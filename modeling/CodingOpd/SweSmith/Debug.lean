import CodingOpd.SweSmith.Spread

/-!
# The debug set of SWE-smith

`select_debug_tasks` selects a deterministic debug set that is balanced by repository: from the
repositories of the caller, or from the first ones by rank that have enough rows. A list of the
caller may name a repository twice; then its first task is selected twice.

## Main definitions

* `chooseRepos`: the choice of repositories
* `selectDebugTasks`: `select_debug_tasks`

## Main results

* `selectDebugTasks_spread_iff`: when the selection is spread over distinct repositories
-/

open Python RankedSort Selection

namespace SweSmith

variable {V ρ : Type} [LinearOrder ρ] (sha256 : String → ρ)

/-- The repositories of a debug set: those of the caller, if there are any, or the first ones by
rank of those with enough rows. -/
def chooseRepos (groups : Dict (List (SmithRow V))) (size repositories seed : ℤ) :
    Option (List String) → Except PyError (List String)
  | some (repo :: repos) => do
    raiseUnless (∀ name ∈ repo :: repos, name ∈ groups.keys)
      (.valueError "requested repositories not found")
    raiseUnless (((repo :: repos).length : ℤ) = repositories)
      (.valueError "include_repos count must equal repositories")
    return repo :: repos
  | _ =>
    let eligible := groups.keys.filter fun repo =>
      size / repositories ≤ ((groups.getD repo []).length : ℤ)
    return slice (sortBy (stableRank sha256 seed "repo") eligible) repositories

/-- The body of the loop over the repositories. -/
def extendSelected (groups : Dict (List (SmithRow V))) (size repositories seed : ℤ)
    (selected : List (SmithRow V)) (item : String × ℕ) : Except PyError (List (SmithRow V)) := do
  let count := quotaAt (size / repositories) (size % repositories) item.2
  let ranked := rankedRows sha256 groups seed item.1 item.1
  raiseUnless (count ≤ ranked.length) (.valueError "repository has only few rows")
  return selected ++ slice ranked count

/-- `select_debug_tasks` -/
def selectDebugTasks (rows : List (RawSmithRow V)) (size : ℤ := 16) (repositories : ℤ := 4)
    (seed : ℤ := 42) (includeRepos : Option (List String) := none) :
    Except PyError (List (SmithRow V)) := do
  let pool ← validateRows rows
  raiseUnless (0 < repositories ∧ repositories ≤ size)
    (.valueError "expected 0 < repositories <= size")
  let groups := groupBy SmithRow.repo pool
  let chosenRepos ← chooseRepos sha256 groups size repositories seed includeRepos
  raiseUnless (repositories ≤ chosenRepos.length)
    (.valueError "too few repositories can satisfy the requested allocation")
  let selected ← chosenRepos.zipIdx.foldlM (extendSelected sha256 groups size repositories seed) []
  return sortBy (fun row => stableRank sha256 seed "order" row.instanceId) selected

variable {sha256}

/-- A loop that appends the rows of each round returns when every check passes. -/
theorem foldlM_extendSelected {groups : Dict (List (SmithRow V))} {size repositories seed : ℤ}
    {items : List (String × ℕ)} {selected result : List (SmithRow V)}
    (h : items.foldlM (extendSelected sha256 groups size repositories seed) selected =
      .ok result) :
    (∀ item ∈ items, quotaAt (size / repositories) (size % repositories) item.2 ≤
        (rankedRows sha256 groups seed item.1 item.1).length) ∧
      result = selected ++ items.flatMap fun item =>
        firstRows sha256 groups seed item.1 item.1
          (quotaAt (size / repositories) (size % repositories) item.2) := by
  induction items generalizing selected with
  | nil =>
    rw [List.foldlM_nil] at h
    cases h
    exact ⟨fun _ hitem => (nomatch hitem), (List.append_nil _).symm⟩
  | cons item items ih =>
    rw [List.foldlM_cons] at h
    obtain ⟨next, hnext, hrest⟩ := bind_eq_ok.mp h
    obtain ⟨hcount, hnext⟩ := raiseUnless_bind_eq_ok.mp hnext
    cases hnext
    obtain ⟨hcounts, rfl⟩ := ih hrest
    refine ⟨List.forall_mem_cons.mpr ⟨hcount, hcounts⟩, ?_⟩
    rw [List.flatMap_cons, List.append_assoc]
    rfl

/-- The repositories that are chosen have rows; they are distinct unless the caller names one
twice. -/
theorem chooseRepos_eq_ok {groups : Dict (List (SmithRow V))} {size repositories seed : ℤ}
    (hnodup : groups.keys.Nodup) (hpos : 0 < repositories) {includeRepos : Option (List String)}
    {repos : List String}
    (h : chooseRepos sha256 groups size repositories seed includeRepos = .ok repos) :
    (repos.length : ℤ) ≤ repositories ∧
      (repos.Nodup ↔ ∀ given ∈ includeRepos, given.Nodup) := by
  unfold chooseRepos at h
  split at h
  case h_1 repo given =>
    obtain ⟨-, h⟩ := raiseUnless_bind_eq_ok.mp h
    obtain ⟨hcount, h⟩ := raiseUnless_bind_eq_ok.mp h
    cases h
    refine ⟨hcount.le, ?_⟩
    simp
  case h_2 hnone =>
    cases h
    have hchosen : (slice (sortBy (stableRank sha256 seed "repo") (groups.keys.filter fun repo =>
        size / repositories ≤ ((groups.getD repo []).length : ℤ))) repositories).Nodup := by
      rw [slice, if_pos hpos.le]
      exact (nodup_sortBy.mpr (hnodup.filter _)).sublist (List.take_sublist _ _)
    refine ⟨?_, iff_of_true hchosen ?_⟩
    · rw [slice, if_pos hpos.le, List.length_take]
      omega
    · rintro given hgiven
      cases given with
      | nil => exact List.nodup_nil
      | cons repo given => exact absurd (Option.mem_def.mp hgiven) (hnone repo given)

/-- The selection before it is ordered. -/
theorem selectDebugTasks_eq_ok {rows : List (RawSmithRow V)} {size repositories seed : ℤ}
    {includeRepos : Option (List String)} {selection : List (SmithRow V)}
    (h : selectDebugTasks sha256 rows size repositories seed includeRepos = .ok selection) :
    ∃ (pool : List (SmithRow V)) (repos : List String), validateRows rows = .ok pool ∧
      0 < repositories ∧ repositories ≤ size ∧
      (repos.length : ℤ) = repositories ∧
      (repos.Nodup ↔ ∀ given ∈ includeRepos, given.Nodup) ∧
      (∀ item ∈ repos.zipIdx, quotaAt (size / repositories) (size % repositories) item.2 ≤
        countRepo pool item.1) ∧
      selection.Perm (repos.zipIdx.flatMap fun item =>
        firstRows sha256 (groupBy SmithRow.repo pool) seed item.1 item.1
          (quotaAt (size / repositories) (size % repositories) item.2)) := by
  obtain ⟨pool, hpool, h⟩ := bind_eq_ok.mp h
  obtain ⟨⟨hpos, hle⟩, h⟩ := raiseUnless_bind_eq_ok.mp h
  obtain ⟨repos, hrepos, h⟩ := bind_eq_ok.mp h
  obtain ⟨hmany, h⟩ := raiseUnless_bind_eq_ok.mp h
  obtain ⟨selected, hselected, h⟩ := bind_eq_ok.mp h
  cases h
  obtain ⟨hfew, hdistinct⟩ := chooseRepos_eq_ok (nodup_keys_groupBy _ _) hpos hrepos
  obtain ⟨hcounts, rfl⟩ := foldlM_extendSelected hselected
  refine ⟨pool, repos, hpool, hpos, hle, le_antisymm hfew hmany, hdistinct, ?_, ?_⟩
  · intro item hitem
    have hcount := hcounts item hitem
    rwa [length_rankedRows] at hcount
  · exact sortBy_perm _ _

/-- The first row of a repository is among its first rows, however many they are. -/
theorem head_mem_firstRows {groups : Dict (List (SmithRow V))} {seed : ℤ} {label repo : String}
    {row : SmithRow V} {rest : List (SmithRow V)}
    (hranked : rankedRows sha256 groups seed label repo = row :: rest) {count : ℤ}
    (hcount : 1 ≤ count) : row ∈ firstRows sha256 groups seed label repo count := by
  obtain ⟨n, hn⟩ := Int.eq_ofNat_of_zero_le (sub_nonneg.mpr hcount)
  have htake : count.toNat = n + 1 := by omega
  rw [firstRows, hranked, slice, if_pos (by omega), htake, List.take_succ_cons]
  exact List.mem_cons_self

/-- Rows that are selected once come from distinct repositories. -/
theorem nodup_repos_of_nodup {pool : List (SmithRow V)} {repos : List String}
    {size repositories seed : ℤ} (hbase : 1 ≤ size / repositories)
    (hcounts : ∀ item ∈ repos.zipIdx, quotaAt (size / repositories) (size % repositories) item.2 ≤
      countRepo pool item.1)
    (hnodup : (repos.zipIdx.flatMap fun item =>
      firstRows sha256 (groupBy SmithRow.repo pool) seed item.1 item.1
        (quotaAt (size / repositories) (size % repositories) item.2)).Nodup) : repos.Nodup := by
  have hdisjoint := (List.nodup_flatMap.mp hnodup).2
  have hrepos : (repos.zipIdx.map Prod.fst).Nodup := by
    rw [List.Nodup, List.pairwise_map]
    apply (List.Pairwise.and_mem.mp hdisjoint).imp
    rintro ⟨repo, i⟩ ⟨other, j⟩ ⟨hitem, -, hrows⟩ heq
    dsimp only at heq
    subst heq
    have hi := le_quotaAt (size / repositories) (size % repositories) i
    have hj := le_quotaAt (size / repositories) (size % repositories) j
    have hcount : quotaAt (size / repositories) (size % repositories) i ≤ countRepo pool repo :=
      hcounts _ hitem
    have hlength : (rankedRows sha256 (groupBy SmithRow.repo pool) seed repo repo).length =
        countRepo pool repo := length_rankedRows
    cases hranked : rankedRows sha256 (groupBy SmithRow.repo pool) seed repo repo with
    | nil =>
      rw [hranked, List.length_nil] at hlength
      omega
    | cons row rest =>
      exact hrows (head_mem_firstRows hranked (hbase.trans hi))
        (head_mem_firstRows hranked (hbase.trans hj))
  rwa [List.zipIdx_map_fst] at hrepos

/-- Rows of distinct repositories are chosen by the quotas. -/
theorem chosen_of_nodup (sha256 : String → ρ) (seed : ℤ) {pool : List (SmithRow V)}
    {repos : List String} {size repositories : ℤ} (hbase : 1 ≤ size / repositories)
    (hids : (pool.map SmithRow.instanceId).Nodup) (hnodup : repos.Nodup)
    (hcounts : ∀ item ∈ repos.zipIdx, quotaAt (size / repositories) (size % repositories) item.2 ≤
      countRepo pool item.1) :
    Chosen pool repos (fun repo => firstRows sha256 (groupBy SmithRow.repo pool) seed repo repo
      (quotaAt (size / repositories) (size % repositories) (repos.idxOf repo)))
      (size / repositories) (size % repositories) := by
  refine ⟨hnodup, fun _ _ _ hrow => mem_firstRows hrow, fun _ _ => nodup_firstRows hids, ?_⟩
  intro repo hrepo
  have hlow := le_quotaAt (size / repositories) (size % repositories) (repos.idxOf repo)
  have hitem : (repo, repos.idxOf repo) ∈ repos.zipIdx := by
    rw [List.mem_zipIdx_iff_getElem?]
    exact List.getElem?_idxOf hrepo
  rw [length_firstRows (by omega), min_eq_left (hcounts _ hitem)]

/-- **The debug set is spread over distinct repositories exactly when** the caller names no
repository twice. -/
theorem selectDebugTasks_spread_iff (sha256 : String → ρ) (rows : List (RawSmithRow V))
    (size repositories seed : ℤ) (includeRepos : Option (List String))
    (selection : List (SmithRow V))
    (h : selectDebugTasks sha256 rows size repositories seed includeRepos = .ok selection) :
    Spread selection (rows.filterMap RawSmithRow.complete?) size repositories ↔
      ∀ given ∈ includeRepos, given.Nodup := by
  obtain ⟨pool, repos, hpool, hpos, hle, hlength, hdistinct, hcounts, hperm⟩ :=
    selectDebugTasks_eq_ok h
  obtain ⟨-, rfl, hids, -⟩ := validateRows_eq_ok.mp hpool
  have hbase : 1 ≤ size / repositories := (Int.le_ediv_iff_mul_le hpos).mpr (by omega)
  rw [← hdistinct]
  constructor
  · intro hspread
    exact nodup_repos_of_nodup hbase hcounts
      (hperm.nodup_iff.mp (List.Nodup.of_map _ hspread.nodup_ids))
  · intro hnodup
    have hchosen := chosen_of_nodup sha256 seed hbase hids hnodup hcounts
    rw [List.flatMap_def, map_zipIdx_eq hnodup fun repo index =>
      firstRows sha256 (groupBy SmithRow.repo _) seed repo repo
        (quotaAt (size / repositories) (size % repositories) index), ← List.flatMap_def] at hperm
    have hspread := hchosen.spread_of_perm hids hbase (Int.emod_nonneg _ hpos.ne')
      (by rw [hlength]; exact (Int.emod_lt_of_pos _ hpos).le) hperm
    rw [hlength, mul_comm, Int.mul_ediv_add_emod] at hspread
    exact hspread

/-- Three tasks of two repositories that the caller names. -/
theorem exists_spread_debugTasks : ∃ selection,
    selectDebugTasks id [exampleSmithRow "a-1" "a", exampleSmithRow "b-1" "b",
        exampleSmithRow "b-2" "b"] 3 2 42 (some ["b", "a"]) = .ok selection ∧
      (Spread selection ([exampleSmithRow "a-1" "a", exampleSmithRow "b-1" "b",
          exampleSmithRow "b-2" "b"].filterMap RawSmithRow.complete?) 3 2 ↔
        ∀ given ∈ some ["b", "a"], given.Nodup) := by
  obtain ⟨selection, hselection⟩ : ∃ selection,
      selectDebugTasks id [exampleSmithRow "a-1" "a", exampleSmithRow "b-1" "b",
        exampleSmithRow "b-2" "b"] 3 2 42 (some ["b", "a"]) = .ok selection := ⟨_, rfl⟩
  exact ⟨selection, hselection, selectDebugTasks_spread_iff id _ 3 2 42 _ selection hselection⟩

/-- A repository that the caller names twice has its task selected twice. -/
theorem selectDebugTasks_twice : ∃ selection,
    selectDebugTasks id [exampleSmithRow "a-1" "a"] 2 2 42 (some ["a", "a"]) = .ok selection ∧
      selection.map SmithRow.instanceId = ["a-1", "a-1"] ∧
      ¬ Spread selection ([exampleSmithRow "a-1" "a"].filterMap RawSmithRow.complete?) 2 2 := by
  refine ⟨_, rfl, rfl, fun hspread => ?_⟩
  exact absurd hspread.nodup_ids (by decide)

end SweSmith
