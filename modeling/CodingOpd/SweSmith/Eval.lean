import Mathlib.Algebra.Order.BigOperators.Group.List
import CodingOpd.Selection.Interleave
import CodingOpd.SweSmith.Spread

/-!
# The evaluation splits of SWE-smith

`build_eval_splits` builds nested splits that are balanced by repository: of the repositories with
enough rows it takes the first ones by rank, of each its first rows, and interleaves them. Enough
are the rows of the quotient, but the first repositories are asked for one more. Where one of these
has none, the internal check at the end fails.

## Main definitions

* `eligibleRepos`: the repositories with enough rows
* `buildEvalSplits`: `build_eval_splits`
* `EvalSplits.Nested`: balanced splits, each a prefix of the next

## Main results

* `buildEvalSplits_of_short`: where a repository has no row more, the internal check fails
* `buildEvalSplits_nested_iff`: when the splits are built
-/

open Python RankedSort RoundRobin Selection

namespace SweSmith

variable {V ρ : Type} [LinearOrder ρ] (sha256 : String → ρ)

/-- The sizes of the splits, with the defaults of `build_eval_splits`. -/
structure EvalSizes where
  smokeSize : ℤ := 8
  fastSize : ℤ := 32
  fullSize : ℤ := 128

/-- The splits, in the order of the dictionary. -/
structure EvalSplits (V : Type) where
  smoke : List (SmithRow V)
  fast : List (SmithRow V)
  full : List (SmithRow V)

/-- The rows that are not excluded. -/
def notExcluded (excludeIds : List String) (validated : List (SmithRow V)) : List (SmithRow V) :=
  validated.filter fun row => row.instanceId ∉ excludeIds

/-- The repositories with enough rows. -/
def eligibleRepos (groups : Dict (List (SmithRow V))) (enough : ℤ) : List String :=
  groups.keys.filter fun repo => enough ≤ ((groups.getD repo []).length : ℤ)

/-- The first repositories by rank. -/
def evalRepos (seed : ℤ) (eligible : List String) (repositories : ℤ) : List String :=
  slice (sortBy (stableRank sha256 seed "eval-repo") eligible) repositories

/-- The splits of a pool. -/
def evalSplits (pool : List (SmithRow V)) (sizes : EvalSizes) (repositories seed : ℤ) :
    Except PyError (EvalSplits V) := do
  let groups := groupBy SmithRow.repo pool
  let eligible := eligibleRepos groups (sizes.fullSize / repositories)
  raiseUnless (repositories ≤ eligible.length) (.valueError "too few repositories have enough rows")
  let chosenRepos := evalRepos sha256 seed eligible repositories
  let perRepo := sizes.fullSize / repositories
  let remainder := sizes.fullSize % repositories
  let selectedByRepo := Dict.update [] (chosenRepos.zipIdx.map fun item =>
    (item.1, firstRows sha256 groups seed "eval-task" item.1 (quotaAt perRepo remainder item.2)))
  let repoOrder := sortBy (stableRank sha256 seed "eval-order") chosenRepos
  let ordered ← interleave selectedByRepo repoOrder
  raiseUnless ((ordered.length : ℤ) = sizes.fullSize)
    (.runtimeError "internal evaluation split allocation error")
  return { smoke := slice ordered sizes.smokeSize, fast := slice ordered sizes.fastSize,
           full := ordered }

/-- `build_eval_splits` -/
def buildEvalSplits (rows : List (RawSmithRow V)) (sizes : EvalSizes := {}) (repositories : ℤ := 8)
    (seed : ℤ := 42) (excludeIds : List String := []) : Except PyError (EvalSplits V) := do
  raiseUnless (0 < sizes.smokeSize ∧ sizes.smokeSize ≤ sizes.fastSize ∧
    sizes.fastSize ≤ sizes.fullSize)
    (.valueError "expected 0 < smoke_size <= fast_size <= full_size")
  raiseUnless (0 < repositories ∧ repositories ≤ sizes.fullSize)
    (.valueError "repositories must be positive and no larger than full_size")
  let validated ← validateRows rows
  evalSplits sha256 (notExcluded excludeIds validated) sizes repositories seed

/-- Splits that are balanced: the full one is spread over the repositories, and so is every prefix
of it; the others are prefixes of it. -/
structure EvalSplits.Nested (splits : EvalSplits V) (pool : List (SmithRow V)) (sizes : EvalSizes)
    (repositories : ℤ) : Prop where
  full : Spread splits.full pool sizes.fullSize repositories
  smoke_prefix : splits.smoke <+: splits.full
  smoke_length : (splits.smoke.length : ℤ) = sizes.smokeSize
  fast_prefix : splits.fast <+: splits.full
  fast_length : (splits.fast.length : ℤ) = sizes.fastSize
  balanced : ∀ part, part <+: splits.full → ∀ repo ∈ splits.full.map SmithRow.repo,
    ∀ other ∈ splits.full.map SmithRow.repo, countRepo part repo ≤ countRepo part other + 1

/-- Arguments that pass the checks of `build_eval_splits` on a pool. -/
structure EvalSizes.Checked (sizes : EvalSizes) (repositories : ℤ) (pool : List (SmithRow V)) :
    Prop where
  smoke_pos : 0 < sizes.smokeSize
  smoke_le : sizes.smokeSize ≤ sizes.fastSize
  fast_le : sizes.fastSize ≤ sizes.fullSize
  repositories_pos : 0 < repositories
  repositories_le : repositories ≤ sizes.fullSize
  eligible : repositories ≤
    (eligibleRepos (groupBy SmithRow.repo pool) (sizes.fullSize / repositories)).length

/-- The repositories that are asked for one row more: the first ones by rank, as many as the
division leaves. -/
def askedForMore (pool : List (SmithRow V)) (sizes : EvalSizes) (repositories seed : ℤ) :
    List String :=
  (sortBy (stableRank sha256 seed "eval-repo")
    (eligibleRepos (groupBy SmithRow.repo pool) (sizes.fullSize / repositories))).take
    (sizes.fullSize % repositories).toNat

variable {sha256}

section Pool

variable {pool : List (SmithRow V)} {sizes : EvalSizes} {repositories seed : ℤ}

theorem mem_eligibleRepos {enough : ℤ} {repo : String} :
    repo ∈ eligibleRepos (groupBy SmithRow.repo pool) enough ↔
      repo ∈ (groupBy SmithRow.repo pool).keys ∧ enough ≤ countRepo pool repo := by
  rw [eligibleRepos, List.mem_filter, decide_eq_true_iff, getD_groupBy, countRepo,
    List.countP_eq_length_filter]

/-- The repositories of the splits. -/
def splitRepos (sha256 : String → ρ) (pool : List (SmithRow V)) (sizes : EvalSizes)
    (repositories seed : ℤ) : List String :=
  evalRepos sha256 seed
    (eligibleRepos (groupBy SmithRow.repo pool) (sizes.fullSize / repositories)) repositories

/-- The rows that are selected of a repository. -/
def splitRows (sha256 : String → ρ) (pool : List (SmithRow V)) (sizes : EvalSizes)
    (repositories seed : ℤ) (repo : String) : List (SmithRow V) :=
  firstRows sha256 (groupBy SmithRow.repo pool) seed "eval-task" repo
    (quotaAt (sizes.fullSize / repositories) (sizes.fullSize % repositories)
      ((splitRepos sha256 pool sizes repositories seed).idxOf repo))

namespace EvalSizes.Checked

theorem base_pos (h : sizes.Checked repositories pool) : 1 ≤ sizes.fullSize / repositories := by
  rw [Int.le_ediv_iff_mul_le h.repositories_pos, one_mul]
  exact h.repositories_le

/-- The repositories are distinct, have enough rows and are as many as were asked for. -/
theorem splitRepos_spec (sha256 : String → ρ) (h : sizes.Checked repositories pool) (seed : ℤ) :
    (splitRepos sha256 pool sizes repositories seed).Nodup ∧
      ((splitRepos sha256 pool sizes repositories seed).length : ℤ) = repositories ∧
      ∀ repo ∈ splitRepos sha256 pool sizes repositories seed,
        sizes.fullSize / repositories ≤ countRepo pool repo := by
  have hpos := h.repositories_pos
  have heligible := h.eligible
  rw [splitRepos, evalRepos, slice, if_pos hpos.le]
  refine ⟨?_, ?_, ?_⟩
  · exact (nodup_sortBy.mpr ((nodup_keys_groupBy _ _).filter _)).sublist (List.take_sublist _ _)
  · rw [List.length_take, length_sortBy]
    omega
  · intro repo hrepo
    exact (mem_eligibleRepos.mp (mem_sortBy.mp (List.mem_of_mem_take hrepo))).2

/-- As many rows are selected of a repository as it is asked for, or all that it has. -/
theorem length_splitRows (h : sizes.Checked repositories pool) (seed : ℤ) (repo : String) :
    ((splitRows sha256 pool sizes repositories seed repo).length : ℤ) =
      min (quotaAt (sizes.fullSize / repositories) (sizes.fullSize % repositories)
        ((splitRepos sha256 pool sizes repositories seed).idxOf repo)) (countRepo pool repo) := by
  have hbase := h.base_pos
  have hlow := le_quotaAt (sizes.fullSize / repositories) (sizes.fullSize % repositories)
    ((splitRepos sha256 pool sizes repositories seed).idxOf repo)
  exact length_firstRows (by omega)

/-- Every repository has the rows it is asked for exactly when those that are asked for one more
have it. -/
theorem quota_le_iff (h : sizes.Checked repositories pool) (seed : ℤ) :
    (∀ repo ∈ splitRepos sha256 pool sizes repositories seed,
      quotaAt (sizes.fullSize / repositories) (sizes.fullSize % repositories)
        ((splitRepos sha256 pool sizes repositories seed).idxOf repo) ≤ countRepo pool repo) ↔
      ∀ repo ∈ askedForMore sha256 pool sizes repositories seed,
        sizes.fullSize / repositories < countRepo pool repo := by
  obtain ⟨-, -, henough⟩ := h.splitRepos_spec sha256 seed
  have hpos := h.repositories_pos
  have hlt := Int.emod_lt_of_pos sizes.fullSize hpos
  have hnonneg := Int.emod_nonneg sizes.fullSize hpos.ne'
  have htake : askedForMore sha256 pool sizes repositories seed =
      (splitRepos sha256 pool sizes repositories seed).take
        (sizes.fullSize % repositories).toNat := by
    rw [splitRepos, evalRepos, slice, if_pos hpos.le, List.take_take, min_eq_left (by omega)]
    rfl
  rw [htake]
  constructor
  · intro hquotas repo hrepo
    have hmem := List.mem_of_mem_take hrepo
    have hplace := (List.mem_take_iff_idxOf_lt hmem).mp hrepo
    have hquota := hquotas repo hmem
    rw [quotaAt, if_pos (by omega)] at hquota
    omega
  · intro hmore repo hrepo
    have hbase := henough repo hrepo
    unfold quotaAt
    split
    case isTrue hplace =>
      have := hmore repo ((List.mem_take_iff_idxOf_lt hrepo).mpr (by omega))
      omega
    case isFalse => omega

end EvalSizes.Checked

/-- The repositories of the splits with their rows. -/
theorem selectedByRepo_eq (sha256 : String → ρ) (h : sizes.Checked repositories pool)
    (seed : ℤ) :
    Dict.update [] ((splitRepos sha256 pool sizes repositories seed).zipIdx.map fun item =>
      (item.1, firstRows sha256 (groupBy SmithRow.repo pool) seed "eval-task" item.1
        (quotaAt (sizes.fullSize / repositories) (sizes.fullSize % repositories) item.2))) =
      Dict.ofKeys (splitRepos sha256 pool sizes repositories seed)
        (splitRows sha256 pool sizes repositories seed) := by
  obtain ⟨hnodup, -, -⟩ := h.splitRepos_spec sha256 seed
  rw [map_zipIdx_eq hnodup fun repo index => (repo, firstRows sha256 (groupBy SmithRow.repo pool)
    seed "eval-task" repo
    (quotaAt (sizes.fullSize / repositories) (sizes.fullSize % repositories) index))]
  apply Dict.update_nil_left
  exact (Dict.keys_ofKeys _ (splitRows sha256 pool sizes repositories seed)).symm ▸ hnodup

/-- **The splits of a pool** after the checks: the interleaved rows, where they are as many as the
full split asks for. -/
theorem evalSplits_of_checked (sha256 : String → ρ) (h : sizes.Checked repositories pool)
    (seed : ℤ) :
    ∃ (ordered : List (SmithRow V)) (order : List String) (n : ℕ),
      order.Perm (splitRepos sha256 pool sizes repositories seed) ∧
      ordered = rounds (order.map (splitRows sha256 pool sizes repositories seed)) n ∧
      ordered.Perm ((splitRepos sha256 pool sizes repositories seed).flatMap
        (splitRows sha256 pool sizes repositories seed)) ∧
      evalSplits sha256 pool sizes repositories seed =
        if (ordered.length : ℤ) = sizes.fullSize then
          .ok ⟨slice ordered sizes.smokeSize, slice ordered sizes.fastSize, ordered⟩
        else .error (.runtimeError "internal evaluation split allocation error") := by
  have hpos := h.repositories_pos
  obtain ⟨hnodup, hlength, -⟩ := h.splitRepos_spec sha256 seed
  have hne : splitRepos sha256 pool sizes repositories seed ≠ [] := by
    rw [← List.length_pos_iff]
    omega
  have horder := sortBy_perm (stableRank sha256 seed "eval-order")
    (splitRepos sha256 pool sizes repositories seed)
  obtain ⟨n, hn, hperm⟩ := interleave_spec (splitRows sha256 pool sizes repositories seed) hne
    horder
  refine ⟨_, _, n, horder, rfl, hperm, ?_⟩
  have hselected := selectedByRepo_eq sha256 h seed
  unfold evalSplits
  dsimp only
  rw [raiseUnless, if_pos h.eligible, ok_bind]
  change (interleave (Dict.update [] ((splitRepos sha256 pool sizes repositories
    seed).zipIdx.map _)) (sortBy _ (splitRepos sha256 pool sizes repositories seed)) >>= _) = _
  rw [hselected, hn, ok_bind, raiseUnless]
  split
  · rfl
  · rfl

/-- The repositories of the chosen rows are among those that they were chosen from. -/
theorem Chosen.mem_repos {repos : List String} {rowsOf : String → List (SmithRow V)}
    {base remainder : ℤ} (h : Chosen pool repos rowsOf base remainder)
    {selection : List (SmithRow V)} (hperm : selection.Perm (repos.flatMap rowsOf)) {repo : String}
    (hrepo : repo ∈ selection.map SmithRow.repo) : repo ∈ repos := by
  obtain ⟨row, hrow, rfl⟩ := List.mem_map.mp hrepo
  obtain ⟨name, hname, hrow⟩ := List.mem_flatMap.mp (hperm.mem_iff.mp hrow)
  rwa [(h.mem name hname row hrow).2]

/-- **Chosen rows that are interleaved** are balanced in every prefix. -/
theorem Chosen.balanced {repos order : List String} {rowsOf : String → List (SmithRow V)}
    {base remainder : ℤ} (h : Chosen pool repos rowsOf base remainder) (hbase : 0 ≤ base)
    (horder : order.Perm repos) {part : List (SmithRow V)} {n : ℕ}
    (hpart : part <+: rounds (order.map rowsOf) n) {repo other : String} (hrepo : repo ∈ repos)
    (hother : other ∈ repos) : countRepo part repo ≤ countRepo part other + 1 := by
  have hbounds : ∀ name ∈ order, base.toNat ≤ (rowsOf name).length ∧
      (rowsOf name).length ≤ base.toNat + 1 := by
    intro name hname
    have hrows := h.length_eq name (horder.mem_iff.mp hname)
    have hlow := le_quotaAt base remainder (repos.idxOf name)
    have hhigh := quotaAt_le base remainder (repos.idxOf name)
    omega
  obtain ⟨low, hlow⟩ := exists_balance_interleave (horder.nodup_iff.mpr h.nodup_repos)
    (fun name hname row hrow => (h.mem name (horder.mem_iff.mp hname) row hrow).2) hbounds hpart
  have hrepoCount := hlow repo (horder.mem_iff.mpr hrepo)
  have hotherCount := hlow other (horder.mem_iff.mpr hother)
  unfold countRepo
  omega

/-- The selected rows are as many as the full split asks for, where every repository has the rows it
is asked for. -/
theorem chosen_splitRows (h : sizes.Checked repositories pool)
    (hids : (pool.map SmithRow.instanceId).Nodup)
    (hmore : ∀ repo ∈ askedForMore sha256 pool sizes repositories seed,
      sizes.fullSize / repositories < countRepo pool repo) :
    Chosen pool (splitRepos sha256 pool sizes repositories seed)
      (splitRows sha256 pool sizes repositories seed) (sizes.fullSize / repositories)
      (sizes.fullSize % repositories) := by
  obtain ⟨hnodup, -, -⟩ := h.splitRepos_spec sha256 seed
  refine ⟨hnodup, fun _ _ _ hrow => mem_firstRows hrow, fun _ _ => nodup_firstRows hids, ?_⟩
  intro repo hrepo
  rw [h.length_splitRows, min_eq_left ((h.quota_le_iff seed).mpr hmore repo hrepo)]

/-- A slice of a list that is long enough is a prefix of that length. -/
theorem slice_prefix {α : Type} (xs : List α) (stop : ℤ) (hpos : 0 ≤ stop)
    (hle : stop ≤ xs.length) : slice xs stop <+: xs ∧ ((slice xs stop).length : ℤ) = stop := by
  rw [slice, if_pos hpos, List.length_take]
  exact ⟨List.take_prefix _ _, by omega⟩

/-- **The splits are built and nested**, where every repository that is asked for one row more has
it. -/
theorem evalSplits_nested (h : sizes.Checked repositories pool)
    (hids : (pool.map SmithRow.instanceId).Nodup)
    (hmore : ∀ repo ∈ askedForMore sha256 pool sizes repositories seed,
      sizes.fullSize / repositories < countRepo pool repo) :
    ∃ splits, evalSplits sha256 pool sizes repositories seed = .ok splits ∧
      splits.Nested pool sizes repositories := by
  have hpos := h.repositories_pos
  have hchosen := chosen_splitRows h hids hmore
  obtain ⟨hnodup, hlength, -⟩ := h.splitRepos_spec sha256 seed
  obtain ⟨ordered, order, n, horder, hordered, hperm, hsplits⟩ :=
    evalSplits_of_checked sha256 h seed
  have hspread := hchosen.spread_of_perm hids h.base_pos (Int.emod_nonneg _ hpos.ne')
    (by rw [hlength]; exact (Int.emod_lt_of_pos _ hpos).le) hperm
  rw [hlength, mul_comm, Int.mul_ediv_add_emod] at hspread
  have hfull := hspread.length_eq
  have hsmoke := h.smoke_pos
  have hsmokeLe := h.smoke_le
  have hfastLe := h.fast_le
  obtain ⟨hsmokePrefix, hsmokeLength⟩ :=
    slice_prefix ordered sizes.smokeSize (by omega) (by omega)
  obtain ⟨hfastPrefix, hfastLength⟩ :=
    slice_prefix ordered sizes.fastSize (by omega) (by omega)
  rw [if_pos hfull] at hsplits
  refine ⟨_, hsplits, hspread, hsmokePrefix, hsmokeLength, hfastPrefix, hfastLength, ?_⟩
  intro part hpart repo hrepo other hother
  dsimp only at hpart hrepo hother
  rw [hordered] at hpart
  exact hchosen.balanced (le_of_lt h.base_pos) horder hpart (hchosen.mem_repos hperm hrepo)
    (hchosen.mem_repos hperm hother)

/-- **Where a repository has no row more**, the internal check fails. -/
theorem evalSplits_of_short (h : sizes.Checked repositories pool)
    (hshort : ¬ ∀ repo ∈ askedForMore sha256 pool sizes repositories seed,
      sizes.fullSize / repositories < countRepo pool repo) :
    evalSplits sha256 pool sizes repositories seed =
      .error (.runtimeError "internal evaluation split allocation error") := by
  have hpos := h.repositories_pos
  obtain ⟨hnodup, hlength, -⟩ := h.splitRepos_spec sha256 seed
  obtain ⟨ordered, order, n, -, -, hperm, hsplits⟩ :=
    evalSplits_of_checked sha256 h seed
  rw [← h.quota_le_iff seed] at hshort
  push Not at hshort
  obtain ⟨repo, hrepo, hlt⟩ := hshort
  have hfew : (((splitRepos sha256 pool sizes repositories seed).map fun repo =>
      ((splitRows sha256 pool sizes repositories seed repo).length : ℤ)).sum) <
      ((splitRepos sha256 pool sizes repositories seed).map fun repo =>
        quotaAt (sizes.fullSize / repositories) (sizes.fullSize % repositories)
          ((splitRepos sha256 pool sizes repositories seed).idxOf repo)).sum := by
    apply List.sum_lt_sum
    · intro name _
      rw [h.length_splitRows]
      exact min_le_left _ _
    · refine ⟨repo, hrepo, ?_⟩
      rw [h.length_splitRows]
      exact min_lt_iff.mpr (Or.inr hlt)
  rw [sum_quotas _ (Int.emod_nonneg _ hpos.ne') hnodup
    (by rw [hlength]; exact (Int.emod_lt_of_pos _ hpos).le), hlength, mul_comm,
    Int.mul_ediv_add_emod] at hfew
  have hordered : (ordered.length : ℤ) ≠ sizes.fullSize := by
    rw [hperm.length_eq, List.length_flatMap, Nat.cast_list_sum, List.map_map]
    exact hfew.ne
  rw [hsplits, if_neg hordered]

end Pool

/-- The arguments that pass the checks come to the splits of the rows that are not excluded. -/
theorem buildEvalSplits_of_checked (sha256 : String → ρ) {rows : List (RawSmithRow V)}
    {sizes : EvalSizes} {repositories seed : ℤ} {excludeIds : List String}
    {validated : List (SmithRow V)} (hvalid : validateRows rows = .ok validated)
    (h : sizes.Checked repositories (notExcluded excludeIds validated)) :
    buildEvalSplits sha256 rows sizes repositories seed excludeIds =
      evalSplits sha256 (notExcluded excludeIds validated) sizes repositories seed := by
  rw [buildEvalSplits, raiseUnless, if_pos ⟨h.smoke_pos, h.smoke_le, h.fast_le⟩, ok_bind,
    raiseUnless, if_pos ⟨h.repositories_pos, h.repositories_le⟩, ok_bind, hvalid, ok_bind]

/-- **The splits are built, distinct, nested and balanced exactly when** every repository that is
asked for one row more has it. -/
theorem buildEvalSplits_nested_iff (sha256 : String → ρ) (rows : List (RawSmithRow V))
    (sizes : EvalSizes) (repositories seed : ℤ) (excludeIds : List String)
    (validated : List (SmithRow V)) (hvalid : validateRows rows = .ok validated)
    (h : sizes.Checked repositories (notExcluded excludeIds validated)) :
    (∃ splits, buildEvalSplits sha256 rows sizes repositories seed excludeIds = .ok splits ∧
        splits.Nested (notExcluded excludeIds validated) sizes repositories) ↔
      ∀ repo ∈ askedForMore sha256 (notExcluded excludeIds validated) sizes repositories seed,
        sizes.fullSize / repositories <
          countRepo (notExcluded excludeIds validated) repo := by
  obtain ⟨-, -, hids, -⟩ := validateRows_eq_ok.mp hvalid
  have hids' : ((notExcluded excludeIds validated).map SmithRow.instanceId).Nodup :=
    hids.sublist (List.filter_sublist.map _)
  rw [buildEvalSplits_of_checked sha256 hvalid h]
  constructor
  · rintro ⟨splits, hsplits, -⟩
    by_contra hshort
    rw [evalSplits_of_short h hshort] at hsplits
    cases hsplits
  · intro hmore
    exact evalSplits_nested h hids' hmore

/-- Two tasks of one repository and one of another; a further one is excluded. -/
def fourSmithRows : List (RawSmithRow String) :=
  [exampleSmithRow "a-1" "a", exampleSmithRow "b-1" "b", exampleSmithRow "a-2" "a",
    exampleSmithRow "b-2" "b"]

/-- Splits of one, two and three tasks of two repositories. -/
theorem exists_nested_evalSplits : ∃ splits,
    buildEvalSplits id fourSmithRows ⟨1, 2, 3⟩ 2 42 ["b-2"] = .ok splits ∧
      splits.Nested
        (notExcluded ["b-2"] (fourSmithRows.filterMap RawSmithRow.complete?)) ⟨1, 2, 3⟩ 2 := by
  refine (buildEvalSplits_nested_iff id fourSmithRows ⟨1, 2, 3⟩ 2 42 ["b-2"] _ rfl
    ⟨?_, ?_, ?_, ?_, ?_, ?_⟩).mpr ?_
  · decide
  · decide
  · decide
  · decide
  · decide
  · decide
  · decide +kernel

/-- Two repositories with one task each have enough rows for a full split of three, and the
internal check fails. -/
theorem buildEvalSplits_short :
    validateRows [exampleSmithRow "a-1" "a", exampleSmithRow "b-1" "b"] = .ok
        ([exampleSmithRow "a-1" "a", exampleSmithRow "b-1" "b"].filterMap
          RawSmithRow.complete?) ∧
      EvalSizes.Checked ⟨1, 1, 3⟩ 2 (notExcluded []
        ([exampleSmithRow "a-1" "a", exampleSmithRow "b-1" "b"].filterMap
          RawSmithRow.complete?)) ∧
      buildEvalSplits id [exampleSmithRow "a-1" "a", exampleSmithRow "b-1" "b"] ⟨1, 1, 3⟩ 2 42 [] =
        .error (.runtimeError "internal evaluation split allocation error") := by
  refine ⟨rfl, ⟨?_, ?_, ?_, ?_, ?_, ?_⟩, rfl⟩
  · decide
  · decide
  · decide
  · decide
  · decide
  · decide

end SweSmith
