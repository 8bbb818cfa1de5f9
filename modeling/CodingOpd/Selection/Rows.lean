import Mathlib.Algebra.BigOperators.Ring.Finset
import CodingOpd.Python.Collections
import CodingOpd.Python.Tables

/-!
# Source rows

`validate_source_rows` accepts a table when every row has the required columns, no task id repeats
and no problem statement or image is blank. A row it has accepted is a record without optional
columns.

## Main definitions

* `RawRow V`, `Row V`: a row of a source, and one with the required columns
* `Row.taskId`: `task_id`
* `stableRank`: `stable_rank`
* `validateSourceRows`: `validate_source_rows`
* `numeric`: `_numeric`
* `takeRanked`: the first rows of every group
* `exampleRows`: a source of three tasks

## Main results

* `validateSourceRows_eq_ok`, `validateSourceRows_perm`: what it means that a table is accepted
* `takeRanked_perm`: the first rows do not depend on the order of the source
* `countP_takeRanked`: the first rows of a group are as many as its quota
-/

open Python RankedSort

namespace Selection

/-- `R2E_COMPLEXITY_FIELDS` -/
inductive ComplexityField where
  | numNonTestFiles
  | numNonTestFuncMethods
  | numNonTestLines
  deriving DecidableEq

namespace ComplexityField

/-- The fields, in the order of the source. -/
def all : List ComplexityField := [numNonTestFiles, numNonTestFuncMethods, numNonTestLines]

theorem mem_all (field : ComplexityField) : field ∈ all := by
  cases field <;> decide

end ComplexityField

/-- The value of a complexity field, as `int(value or 0)` reads it: a number, or a value on which it
raises a `TypeError` or a `ValueError`. -/
inductive Value where
  | number (n : ℤ)
  | unreadable
  deriving DecidableEq

/-- A row of a source. Columns that are not looked into are of `V`. -/
structure RawRow (V : Type) where
  repoName : Option String
  commitHash : Option String
  problemStatement : Option String
  expectedOutputJson : Option V
  dockerImage : Option String
  complexity : ComplexityField → Option Value
  other : V

/-- A row that has the `REQUIRED_COLUMNS`. -/
structure Row (V : Type) where
  repoName : String
  commitHash : String
  problemStatement : String
  expectedOutputJson : V
  dockerImage : String
  complexity : ComplexityField → Option Value
  other : V

variable {V : Type}

/-- The row, when no required column is missing. -/
def RawRow.complete? (raw : RawRow V) : Option (Row V) := do
  let repoName ← raw.repoName
  let commitHash ← raw.commitHash
  let problemStatement ← raw.problemStatement
  let expectedOutputJson ← raw.expectedOutputJson
  let dockerImage ← raw.dockerImage
  return { repoName, commitHash, problemStatement, expectedOutputJson, dockerImage,
           complexity := raw.complexity, other := raw.other }

/-- `task_id` -/
def Row.taskId (row : Row V) : String := row.repoName ++ ":" ++ row.commitHash

/-- `stable_rank`, for the digest of an encoded text. -/
def stableRank {ρ : Type} (sha256 : String → ρ) (seed : ℤ) (label value : String) : ρ :=
  sha256 (toString seed ++ "\x00" ++ label ++ "\x00" ++ value)

/-- The characters that `str.strip` removes. -/
def isSpace (c : Char) : Bool :=
  (9 ≤ c.toNat && c.toNat ≤ 13) || (28 ≤ c.toNat && c.toNat ≤ 32) ||
    (0x2000 ≤ c.toNat && c.toNat ≤ 0x200a) ||
    [0x85, 0xa0, 0x1680, 0x2028, 0x2029, 0x202f, 0x205f, 0x3000].contains c.toNat

/-- `not text.strip()` -/
def isBlank (text : String) : Bool := text.toList.all isSpace

/-- The body of the loop of `validate_source_rows`. The set `seen` holds the ids of the rows that
were validated. -/
def validateRow (validated : List (Row V)) (raw : RawRow V) : Except PyError (List (Row V)) :=
  match raw.complete? with
  | none => .error (.valueError "row is missing required columns")
  | some row =>
    if row.taskId ∈ validated.map Row.taskId then .error (.valueError "duplicate R2E task id")
    else if isBlank row.problemStatement then .error (.valueError "empty problem statement")
    else if isBlank row.dockerImage then .error (.valueError "empty docker image")
    else .ok (validated ++ [row])

/-- `validate_source_rows` -/
def validateSourceRows (rows : List (RawRow V)) : Except PyError (List (Row V)) :=
  rows.foldlM validateRow []

/-- `_numeric` -/
def numeric (row : Row V) (field : ComplexityField) : Except PyError ℤ :=
  match row.complexity field with
  | none => .ok 0
  | some (.number n) => .ok (max 0 n)
  | some .unreadable => .error (.valueError "invalid complexity field")

/-- A row whose texts `validate_source_rows` accepts. -/
def Row.NonBlank (row : Row V) : Prop :=
  isBlank row.problemStatement = false ∧ isBlank row.dockerImage = false

theorem admits_validateRow :
    Admits (validateRow (V := V)) RawRow.complete? Row.taskId Row.NonBlank := by
  intro validated raw pool
  unfold validateRow
  cases raw.complete? with
  | none =>
    constructor
    · intro h
      cases h
    · rintro ⟨_, hnone, -⟩
      cases hnone
  | some row =>
    constructor
    · intro h
      dsimp only at h
      split_ifs at h with hseen hproblem himage
      cases h
      exact ⟨row, rfl, hseen, ⟨Bool.eq_false_iff.mpr hproblem, Bool.eq_false_iff.mpr himage⟩, rfl⟩
    · rintro ⟨_, ⟨rfl⟩, hnew, ⟨hproblem, himage⟩, rfl⟩
      dsimp only
      rw [if_neg hnew, if_neg (Bool.eq_false_iff.mp hproblem), if_neg (Bool.eq_false_iff.mp himage)]

/-- **A table is accepted** when every row has the required columns, the task ids are distinct and
no text is blank. -/
theorem validateSourceRows_eq_ok {rows : List (RawRow V)} {pool : List (Row V)} :
    validateSourceRows rows = .ok pool ↔
      (∀ raw ∈ rows, raw.complete?.isSome) ∧ pool = rows.filterMap RawRow.complete? ∧
      (pool.map Row.taskId).Nodup ∧ ∀ row ∈ pool, row.NonBlank :=
  admits_validateRow.run_eq_ok

/-- **A permuted table is accepted**, with the rows permuted. -/
theorem validateSourceRows_perm {rows rows' : List (RawRow V)} {pool : List (Row V)}
    (hperm : rows.Perm rows') (h : validateSourceRows rows = .ok pool) :
    ∃ pool', validateSourceRows rows' = .ok pool' ∧ pool.Perm pool' :=
  admits_validateRow.run_perm hperm h

/-! ## Ranked rows -/

section Ranked

variable {α ρ : Type} [LinearOrder ρ]

/-- The first rows of every group in the order of a rank, group by group:
`selected.extend(ranked[:quotas[repo]])` for each `repo` of `sorted(groups)`. -/
def takeRanked (rank : α → ρ) (groups : Dict (List α)) (quotas : Dict ℤ) : List α :=
  groups.sortedKeys.flatMap fun repo =>
    slice (sortBy rank (groups.getD repo [])) (quotas.getD repo 0)

/-- The rows that are taken do not depend on the order of the source, where the rank tells them
apart. -/
theorem takeRanked_perm {rank : α → ρ} {key : α → String} {rows rows' : List α}
    (hperm : rows.Perm rows') (hinj : Set.InjOn rank {row | row ∈ rows}) {quotas quotas' : Dict ℤ}
    (hquotas : ∀ repo, quotas.getD repo 0 = quotas'.getD repo 0) :
    takeRanked rank (groupBy key rows) quotas = takeRanked rank (groupBy key rows') quotas' := by
  unfold takeRanked
  rw [Dict.sortedKeys_eq_of_perm (keys_groupBy_perm key hperm)]
  congr 1
  funext repo
  have hgroup : sortBy rank ((groupBy key rows).getD repo []) =
      sortBy rank ((groupBy key rows').getD repo []) := by
    apply sortBy_eq_of_perm (getD_groupBy_perm key hperm repo)
    apply hinj.mono
    intro row hrow
    rw [Set.mem_ofPred_eq, getD_groupBy] at hrow
    exact List.mem_of_mem_filter hrow
  rw [hgroup, hquotas]

/-- Quotas of the groups, as many rows as each has at most. -/
def Fits (groups : Dict (List α)) (quotas : Dict ℤ) : Prop :=
  ∀ repo ∈ groups.keys, 0 ≤ quotas.getD repo 0 ∧
    quotas.getD repo 0 ≤ (groups.getD repo []).length

section Fits

variable {rank : α → ρ} {key : α → String} {rows : List α} {quotas : Dict ℤ}

/-- The rows that are taken of a group. -/
theorem mem_slice_group {repo : String} {stop : ℤ} {row : α}
    (h : row ∈ slice (sortBy rank ((groupBy key rows).getD repo [])) stop) :
    row ∈ rows ∧ key row = repo := by
  have hmem : row ∈ (groupBy key rows).getD repo [] := by
    unfold slice at h
    split at h
    · exact mem_sortBy.mp (List.mem_of_mem_take h)
    · exact mem_sortBy.mp (List.mem_of_mem_take h)
  rw [getD_groupBy] at hmem
  obtain ⟨hrow, hkey⟩ := List.mem_filter.mp hmem
  exact ⟨hrow, of_decide_eq_true hkey⟩

theorem takeRanked_subset : takeRanked rank (groupBy key rows) quotas ⊆ rows := by
  intro row hrow
  obtain ⟨repo, -, hrow⟩ := List.mem_flatMap.mp hrow
  exact (mem_slice_group hrow).1

/-- No row is taken twice. -/
theorem nodup_takeRanked (hnodup : rows.Nodup) :
    (takeRanked rank (groupBy key rows) quotas).Nodup := by
  rw [takeRanked, List.nodup_flatMap]
  constructor
  · intro repo _
    have hsorted : (sortBy rank ((groupBy key rows).getD repo [])).Nodup := by
      rw [nodup_sortBy, getD_groupBy]
      exact hnodup.filter _
    unfold slice
    split
    · exact hsorted.sublist (List.take_sublist _ _)
    · exact hsorted.sublist (List.take_sublist _ _)
  · apply (Dict.nodup_sortedKeys.mpr (nodup_keys_groupBy key rows)).imp
    intro repo other hne row hrow hother
    exact hne ((mem_slice_group hrow).2.symm.trans (mem_slice_group hother).2)

/-- **As many rows of a group are taken as its quota says.** -/
theorem countP_takeRanked (hfits : Fits (groupBy key rows) quotas) (repo : String) :
    ((takeRanked rank (groupBy key rows) quotas).countP fun row => key row = repo : ℤ) =
      if repo ∈ (groupBy key rows).keys then quotas.getD repo 0 else 0 := by
  have hcount : ∀ other ∈ (groupBy key rows).sortedKeys,
      ((slice (sortBy rank ((groupBy key rows).getD other [])) (quotas.getD other 0)).countP
        fun row => key row = repo : ℤ) = if other = repo then quotas.getD other 0 else 0 := by
    intro other hother
    obtain ⟨hnonneg, hle⟩ := hfits other (Dict.mem_sortedKeys.mp hother)
    split
    case isTrue heq =>
      have hall : ∀ row ∈ slice (sortBy rank ((groupBy key rows).getD other []))
          (quotas.getD other 0), decide (key row = repo) = true :=
        fun row hrow => decide_eq_true ((mem_slice_group hrow).2.trans heq)
      rw [List.countP_eq_length.mpr hall, slice, if_pos hnonneg, List.length_take, length_sortBy]
      omega
    case isFalse hne =>
      rw [Nat.cast_eq_zero, List.countP_eq_zero]
      intro row hrow hkey
      exact hne ((mem_slice_group hrow).2.symm.trans (of_decide_eq_true hkey))
  rw [takeRanked, List.countP_flatMap, Nat.cast_list_sum, List.map_map]
  refine (congrArg List.sum (List.map_congr_left hcount)).trans ?_
  rw [← List.sum_toFinset _ (Dict.nodup_sortedKeys.mpr (nodup_keys_groupBy key rows)),
    Finset.sum_ite_eq']
  simp only [List.mem_toFinset, Dict.mem_sortedKeys]

/-- The rows that are taken are as many as the quotas together. -/
theorem length_takeRanked (hfits : Fits (groupBy key rows) quotas) :
    ((takeRanked rank (groupBy key rows) quotas).length : ℤ) =
      ((groupBy key rows).keys.map fun repo => quotas.getD repo 0).sum := by
  rw [takeRanked, List.length_flatMap, Nat.cast_list_sum, List.map_map,
    ← ((groupBy key rows).sortedKeys_perm.map _).sum_eq]
  congr 1
  apply List.map_congr_left
  intro repo hrepo
  obtain ⟨hnonneg, hle⟩ := hfits repo (Dict.mem_sortedKeys.mp hrepo)
  show ((slice _ _).length : ℤ) = _
  rw [slice, if_pos hnonneg, List.length_take, length_sortBy]
  omega

end Fits

/-- The ranks tell ids apart, under each of the labels. -/
def RanksApart (sha256 : String → ρ) (seed : ℤ) (labels uids : List String) : Prop :=
  ∀ label ∈ labels, Set.InjOn (stableRank sha256 seed label) {uid | uid ∈ uids}

omit [LinearOrder ρ] in
/-- Where ranks tell ids apart, they tell rows with distinct ids apart. -/
theorem RanksApart.injOn {sha256 : String → ρ} {seed : ℤ} {labels uids : List String}
    (h : RanksApart sha256 seed labels uids) {label : String} (hlabel : label ∈ labels)
    {rows : List α} {uid : α → String} (hids : (rows.map uid).Nodup)
    (hsub : ∀ row ∈ rows, uid row ∈ uids) :
    Set.InjOn (fun row => stableRank sha256 seed label (uid row)) {row | row ∈ rows} := by
  intro row hrow other hother heq
  have huid := h label hlabel (hsub row hrow) (hsub other hother) heq
  exact List.inj_on_of_nodup_map hids hrow hother huid

end Ranked

/-! ## A source of three tasks -/

/-- A row of the example: a task that touches as many files, functions and lines as the number. -/
def exampleRow (repoName commitHash : String) (n : ℤ) : RawRow String where
  repoName := repoName
  commitHash := commitHash
  problemStatement := "Fix the bug."
  expectedOutputJson := "\x7b\x7d"
  dockerImage := repoName ++ ":latest"
  complexity _ := some (.number n)
  other := ""

/-- Three tasks of two repositories. -/
def exampleRows : List (RawRow String) :=
  [exampleRow "pandas" "a1" 3, exampleRow "numpy" "b2" 1, exampleRow "pandas" "c3" 8]

theorem validateSourceRows_exampleRows :
    validateSourceRows exampleRows = .ok (exampleRows.filterMap RawRow.complete?) := rfl

end Selection
