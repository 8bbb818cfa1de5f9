import CodingOpd.Selection.Rows

/-!
# SWE-smith rows

`validate_rows` accepts a table when every row has the required columns, no instance id repeats, no
problem statement or image name is blank, and every task has tests that fail.

## Main definitions

* `RawSmithRow V`, `SmithRow V`: a row of the source, and one with the required columns
* `validateRows`: `validate_rows`
* `firstRows`: the first rows of a repository, in the order of a rank
* `exampleSmithRow`: a task of a repository

## Main results

* `validateRows_eq_ok`: what it means that a table is accepted
* `mem_firstRows`, `length_firstRows`, `nodup_firstRows`: the first rows of a repository
-/

open Python RankedSort Selection

namespace SweSmith

/-- The tests of a task: a sequence, or a value on which `list` raises a `TypeError`. -/
inductive Tests (V : Type) where
  | items (tests : List V)
  | unreadable
  deriving DecidableEq

/-- A row of the source. Columns that are not looked into are of `V`. -/
structure RawSmithRow (V : Type) where
  instanceId : Option String
  repo : Option String
  problemStatement : Option String
  imageName : Option String
  failToPass : Option (Tests V)
  passToPass : Option V
  other : V

/-- A row that has the `REQUIRED_COLUMNS`. -/
structure SmithRow (V : Type) where
  instanceId : String
  repo : String
  problemStatement : String
  imageName : String
  failToPass : Tests V
  passToPass : V
  other : V
  deriving DecidableEq

variable {V : Type}

/-- The row, when no required column is missing. -/
def RawSmithRow.complete? (raw : RawSmithRow V) : Option (SmithRow V) := do
  let instanceId ← raw.instanceId
  let repo ← raw.repo
  let problemStatement ← raw.problemStatement
  let imageName ← raw.imageName
  let failToPass ← raw.failToPass
  let passToPass ← raw.passToPass
  return { instanceId, repo, problemStatement, imageName, failToPass, passToPass,
           other := raw.other }

/-- `list(value)` -/
def Tests.list : Tests V → Except PyError (List V)
  | .items tests => .ok tests
  | .unreadable => .error (.typeError "object is not iterable")

theorem Tests.list_eq_ok {value : Tests V} {tests : List V} :
    value.list = .ok tests ↔ value = .items tests := by
  cases value with
  | items => simp [Tests.list]
  | unreadable => simp [Tests.list]

/-- The body of the loop of `validate_rows`. The set `seen` holds the ids of the rows that were
validated. -/
def validateRow (validated : List (SmithRow V)) (raw : RawSmithRow V) :
    Except PyError (List (SmithRow V)) :=
  match raw.complete? with
  | none => .error (.valueError "row is missing required columns")
  | some row => do
    raiseUnless (row.instanceId ∉ validated.map SmithRow.instanceId)
      (.valueError "duplicate SWE-smith instance_id")
    raiseUnless (isBlank row.problemStatement = false) (.valueError "empty problem statement")
    raiseUnless (isBlank row.imageName = false) (.valueError "empty image name")
    let tests ← row.failToPass.list
    raiseUnless (tests.isEmpty = false) (.valueError "no FAIL_TO_PASS tests")
    return validated ++ [row]

/-- `validate_rows` -/
def validateRows (rows : List (RawSmithRow V)) : Except PyError (List (SmithRow V)) :=
  rows.foldlM validateRow []

/-- A row whose texts and tests `validate_rows` accepts. -/
structure SmithRow.Accepted (row : SmithRow V) : Prop where
  problemStatement : isBlank row.problemStatement = false
  imageName : isBlank row.imageName = false
  failToPass : ∃ tests, row.failToPass = .items tests ∧ tests.isEmpty = false

theorem admits_validateRow :
    Admits (validateRow (V := V)) RawSmithRow.complete? SmithRow.instanceId SmithRow.Accepted := by
  intro validated raw pool
  unfold validateRow
  cases raw.complete? with
  | none =>
    constructor
    · intro h
      cases h
    · rintro ⟨_, hnone, -⟩
      cases hnone
  | some row =>
    dsimp only
    rw [raiseUnless_bind_eq_ok, raiseUnless_bind_eq_ok, raiseUnless_bind_eq_ok, bind_eq_ok]
    constructor
    · rintro ⟨hnew, hproblem, himage, tests, htests, h⟩
      obtain ⟨hne, h⟩ := raiseUnless_bind_eq_ok.mp h
      cases h
      exact ⟨row, rfl, hnew, ⟨hproblem, himage, tests, Tests.list_eq_ok.mp htests, hne⟩, rfl⟩
    · rintro ⟨_, ⟨rfl⟩, hnew, ⟨hproblem, himage, tests, htests, hne⟩, rfl⟩
      exact ⟨hnew, hproblem, himage, tests, Tests.list_eq_ok.mpr htests,
        raiseUnless_bind_eq_ok.mpr ⟨hne, rfl⟩⟩

/-- **A table is accepted** when every row has the required columns, the instance ids are distinct,
no text is blank and all tasks have tests. -/
theorem validateRows_eq_ok {rows : List (RawSmithRow V)} {pool : List (SmithRow V)} :
    validateRows rows = .ok pool ↔
      (∀ raw ∈ rows, raw.complete?.isSome) ∧ pool = rows.filterMap RawSmithRow.complete? ∧
      (pool.map SmithRow.instanceId).Nodup ∧ ∀ row ∈ pool, row.Accepted :=
  admits_validateRow.run_eq_ok

/-! ## Repositories -/

section Repositories

variable {ρ : Type} [LinearOrder ρ] (sha256 : String → ρ)

/-- `sorted(groups[repo], key=lambda row: _rank(seed, label, str(row["instance_id"])))` -/
def rankedRows (groups : Dict (List (SmithRow V))) (seed : ℤ) (label repo : String) :
    List (SmithRow V) :=
  sortBy (fun row => stableRank sha256 seed label row.instanceId) (groups.getD repo [])

/-- The first rows of a repository, in the order of a rank. -/
def firstRows (groups : Dict (List (SmithRow V))) (seed : ℤ) (label repo : String) (count : ℤ) :
    List (SmithRow V) :=
  slice (rankedRows sha256 groups seed label repo) count

/-- How many rows a repository has. -/
def countRepo (rows : List (SmithRow V)) (repo : String) : ℕ :=
  rows.countP fun row => row.repo = repo

variable {sha256} {pool : List (SmithRow V)} {seed : ℤ} {label repo : String} {count : ℤ}

theorem length_rankedRows :
    (rankedRows sha256 (groupBy SmithRow.repo pool) seed label repo).length =
      countRepo pool repo := by
  rw [rankedRows, length_sortBy, getD_groupBy, countRepo, List.countP_eq_length_filter]

theorem mem_firstRows {row : SmithRow V}
    (h : row ∈ firstRows sha256 (groupBy SmithRow.repo pool) seed label repo count) :
    row ∈ pool ∧ row.repo = repo :=
  mem_slice_group h

theorem nodup_firstRows (hids : (pool.map SmithRow.instanceId).Nodup) :
    (firstRows sha256 (groupBy SmithRow.repo pool) seed label repo count).Nodup := by
  have hranked : (rankedRows sha256 (groupBy SmithRow.repo pool) seed label repo).Nodup := by
    rw [rankedRows, nodup_sortBy, getD_groupBy]
    exact (List.Nodup.of_map _ hids).filter _
  unfold firstRows slice
  split
  · exact hranked.sublist (List.take_sublist _ _)
  · exact hranked.sublist (List.take_sublist _ _)

/-- As many rows as are asked for, or all of them. -/
theorem length_firstRows (hcount : 0 ≤ count) :
    ((firstRows sha256 (groupBy SmithRow.repo pool) seed label repo count).length : ℤ) =
      min count (countRepo pool repo) := by
  rw [firstRows, slice, if_pos hcount, List.length_take, length_rankedRows]
  omega

end Repositories

/-- A task of a repository. -/
def exampleSmithRow (instanceId repo : String) : RawSmithRow String where
  instanceId := some instanceId
  repo := some repo
  problemStatement := some "Fix the bug."
  imageName := some "smith:latest"
  failToPass := some (.items ["test_bug"])
  passToPass := some "[]"
  other := ""

end SweSmith
