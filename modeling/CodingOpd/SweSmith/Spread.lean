import Mathlib.Tactic.Ring
import CodingOpd.SweSmith.Rows

/-!
# Selections spread over repositories

A size is divided by a number of repositories: each gets the quotient, and the first ones one more.
The selection that takes so many distinct rows of each has the size, the number of repositories and
counts that differ by at most one.

## Main definitions

* `quotaAt`: the number of rows of a repository, by its place in the list of repositories
* `Spread`: what a selection is that is spread over repositories

## Main results

* `sum_quotas`: the quotas add up to the size that was divided
* `spread_of_perm`: rows chosen by the quotas are spread over the repositories
-/

open Python RankedSort Selection

namespace SweSmith

/-! ## Quotas by place -/

/-- `base + (index < remainder)` -/
def quotaAt (base remainder : ℤ) (index : ℕ) : ℤ := base + if (index : ℤ) < remainder then 1 else 0

theorem le_quotaAt (base remainder : ℤ) (index : ℕ) : base ≤ quotaAt base remainder index := by
  unfold quotaAt
  split <;> omega

theorem quotaAt_le (base remainder : ℤ) (index : ℕ) : quotaAt base remainder index ≤ base + 1 := by
  unfold quotaAt
  split <;> omega

/-- **The quotas add up** to the size that was divided. -/
theorem sum_quotaAt (base : ℤ) {remainder : ℤ} (hremainder : 0 ≤ remainder) (n : ℕ)
    (hle : remainder ≤ n) :
    ((List.range n).map (quotaAt base remainder)).sum = base * n + remainder := by
  have hcount : ∀ n : ℕ, ((List.range n).map (quotaAt base remainder)).sum =
      base * n + min remainder n := by
    intro n
    induction n with
    | zero => simp [hremainder]
    | succ n ih =>
      rw [List.range_succ, List.map_append, List.sum_append, ih, List.map_singleton,
        List.sum_singleton, quotaAt]
      push_cast
      split
      · rw [min_eq_right (by omega), min_eq_right (by omega)]
        ring
      · rw [min_eq_left (by omega), min_eq_left (by omega)]
        ring
  rw [hcount, min_eq_left hle]

section Places

variable {α β : Type} [DecidableEq α]

/-- Places of a list without repetitions. -/
theorem map_zipIdx_eq {xs : List α} (hnodup : xs.Nodup) (f : α → ℕ → β) :
    (xs.zipIdx.map fun item => f item.1 item.2) = xs.map fun x => f x (xs.idxOf x) := by
  apply List.ext_getElem
  · rw [List.length_map, List.length_map, List.length_zipIdx]
  · intro i hi hi'
    simp only [List.getElem_map, List.getElem_zipIdx, Nat.zero_add]
    rw [List.length_map] at hi'
    rw [hnodup.idxOf_getElem i hi']

/-- The quotas of a list of keys, by their places. -/
theorem sum_quotas (base : ℤ) {remainder : ℤ} (hremainder : 0 ≤ remainder) {xs : List α}
    (hnodup : xs.Nodup) (hle : remainder ≤ xs.length) :
    (xs.map fun x => quotaAt base remainder (xs.idxOf x)).sum =
      base * xs.length + remainder := by
  have hplaces := map_zipIdx_eq hnodup fun _ index => quotaAt base remainder index
  have hrange : (xs.zipIdx.map fun item => quotaAt base remainder item.2) =
      (List.range xs.length).map (quotaAt base remainder) := by
    rw [List.range_eq_range', ← List.zipIdx_map_snd 0 xs, List.map_map]
    rfl
  rw [← hplaces, hrange, sum_quotaAt base hremainder xs.length hle]

end Places

/-! ## Spread -/

section Spread

variable {V : Type}

/-- A selection of distinct tasks of a pool, of the given size and number of repositories, whose
counts by repository differ by at most one. -/
structure Spread (selection pool : List (SmithRow V)) (size repositories : ℤ) : Prop where
  subset : selection ⊆ pool
  nodup_ids : (selection.map SmithRow.instanceId).Nodup
  length_eq : (selection.length : ℤ) = size
  card_repos : ((selection.map SmithRow.repo).toFinset.card : ℤ) = repositories
  balanced : ∀ repo ∈ selection.map SmithRow.repo, ∀ other ∈ selection.map SmithRow.repo,
    countRepo selection repo ≤ countRepo selection other + 1

/-- Rows chosen from repositories: distinct rows of the pool, as many of each repository as its
place in the list says. -/
structure Chosen (pool : List (SmithRow V)) (repos : List String)
    (rowsOf : String → List (SmithRow V)) (base remainder : ℤ) : Prop where
  nodup_repos : repos.Nodup
  mem : ∀ repo ∈ repos, ∀ row ∈ rowsOf repo, row ∈ pool ∧ row.repo = repo
  nodup : ∀ repo ∈ repos, (rowsOf repo).Nodup
  length_eq : ∀ repo ∈ repos, ((rowsOf repo).length : ℤ) =
    quotaAt base remainder (repos.idxOf repo)

namespace Chosen

variable {pool : List (SmithRow V)} {repos : List String}
variable {rowsOf : String → List (SmithRow V)} {base remainder : ℤ}

/-- No row is chosen twice. -/
theorem nodup_flatMap (h : Chosen pool repos rowsOf base remainder) :
    (repos.flatMap rowsOf).Nodup := by
  rw [List.nodup_flatMap]
  refine ⟨h.nodup, ?_⟩
  apply (List.Pairwise.and_mem.mp h.nodup_repos).imp
  rintro repo other ⟨hrepo, hother, hne⟩ row hrow hrow'
  exact hne ((h.mem repo hrepo row hrow).2.symm.trans (h.mem other hother row hrow').2)

/-- The rows of a repository are those chosen from it. -/
theorem countRepo_flatMap (h : Chosen pool repos rowsOf base remainder) {repo : String}
    (hrepo : repo ∈ repos) : countRepo (repos.flatMap rowsOf) repo = (rowsOf repo).length := by
  have hcount : ∀ other ∈ repos, (rowsOf other).countP (fun row => row.repo = repo) =
      if other = repo then (rowsOf repo).length else 0 := by
    intro other hother
    split
    case isTrue heq =>
      subst heq
      exact List.countP_eq_length.mpr fun row hrow =>
        decide_eq_true (h.mem other hother row hrow).2
    case isFalse hne =>
      rw [List.countP_eq_zero]
      intro row hrow heq
      exact hne ((h.mem other hother row hrow).2.symm.trans (of_decide_eq_true heq))
  rw [countRepo, List.countP_flatMap]
  refine (congrArg List.sum (List.map_congr_left hcount)).trans ?_
  rw [← List.sum_toFinset _ h.nodup_repos, Finset.sum_ite_eq', if_pos (List.mem_toFinset.mpr hrepo)]

/-- **Rows chosen by the quotas are spread** over the repositories, where each has one at least. -/
theorem spread_of_perm (h : Chosen pool repos rowsOf base remainder)
    (hids : (pool.map SmithRow.instanceId).Nodup) (hbase : 1 ≤ base) (hremainder : 0 ≤ remainder)
    (hle : remainder ≤ repos.length) {selection : List (SmithRow V)}
    (hperm : selection.Perm (repos.flatMap rowsOf)) :
    Spread selection pool (base * repos.length + remainder) repos.length := by
  have hmem : ∀ row ∈ selection, row ∈ pool ∧ row.repo ∈ repos := by
    intro row hrow
    obtain ⟨repo, hrepo, hrow⟩ := List.mem_flatMap.mp (hperm.mem_iff.mp hrow)
    obtain ⟨hpool, rfl⟩ := h.mem repo hrepo row hrow
    exact ⟨hpool, hrepo⟩
  have hcount : ∀ repo ∈ repos, (countRepo selection repo : ℤ) =
      quotaAt base remainder (repos.idxOf repo) := by
    intro repo hrepo
    rw [countRepo, hperm.countP_eq, ← h.length_eq repo hrepo, ← h.countRepo_flatMap hrepo,
      countRepo]
  have hrepos : ∀ repo, repo ∈ selection.map SmithRow.repo ↔ repo ∈ repos := by
    intro repo
    constructor
    · intro hrepo
      obtain ⟨row, hrow, rfl⟩ := List.mem_map.mp hrepo
      exact (hmem row hrow).2
    · intro hrepo
      have hpos : 0 < countRepo selection repo := by
        have := hcount repo hrepo
        have := le_quotaAt base remainder (repos.idxOf repo)
        omega
      obtain ⟨row, hrow, heq⟩ := List.countP_pos_iff.mp hpos
      exact List.mem_map.mpr ⟨row, hrow, of_decide_eq_true heq⟩
  constructor
  · exact fun row hrow => (hmem row hrow).1
  · apply (hperm.nodup_iff.mpr h.nodup_flatMap).map_on
    intro row hrow other hother heq
    exact List.inj_on_of_nodup_map hids (hmem row hrow).1 (hmem other hother).1 heq
  · rw [hperm.length_eq, List.length_flatMap, Nat.cast_list_sum, List.map_map,
      ← sum_quotas base hremainder h.nodup_repos hle]
    exact congrArg List.sum (List.map_congr_left h.length_eq)
  · have hset : (selection.map SmithRow.repo).toFinset = repos.toFinset := by
      ext repo
      rw [List.mem_toFinset, List.mem_toFinset, hrepos]
    rw [hset, List.toFinset_card_of_nodup h.nodup_repos]
  · intro repo hrepo other hother
    -- two quotas differ by one at most, as both are `base` or one more
    have hrepoCount := hcount repo ((hrepos repo).mp hrepo)
    have hotherCount := hcount other ((hrepos other).mp hother)
    have hhigh := quotaAt_le base remainder (repos.idxOf repo)
    have hlow := le_quotaAt base remainder (repos.idxOf other)
    omega

end Chosen

end Spread

end SweSmith
