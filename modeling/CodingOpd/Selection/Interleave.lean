import CodingOpd.Library.RoundRobin
import CodingOpd.Python.Collections
import CodingOpd.Python.Values

/-!
# Interleaved repositories

The rows that were chosen from each repository are put into one list in rounds over the
repositories, so that a prefix of it has rows of many of them.

## Main definitions

* `interleave`: the loop over the offsets and the repositories

## Main results

* `interleave_spec`: all chosen rows are listed
* `exists_balance_interleave`: in every prefix the repositories are balanced
-/

open Python RoundRobin

namespace Selection

variable {α : Type}

/-- `max(xs)` -/
def maxOf (xs : List ℕ) : Except PyError ℕ :=
  xs.max?.elim (.error (.valueError "max() iterable argument is empty")) .ok

/-- `for offset in range(max(map(len, chosen.values())))`, and for each `repo` of the order: the row
at the offset, if there is one. -/
def interleave (chosen : Dict (List α)) (order : List String) : Except PyError (List α) := do
  let longest ← maxOf (chosen.map fun item => item.2.length)
  return rounds (order.map fun repo => chosen.getD repo []) longest

/-- The maximum of a list that is not empty. -/
theorem maxOf_eq_ok {xs : List ℕ} (hne : xs ≠ []) : ∃ m, maxOf xs = .ok m ∧ ∀ x ∈ xs, x ≤ m := by
  obtain ⟨m, hm⟩ := Option.isSome_iff_exists.mp (List.isSome_max?_iff.mpr hne)
  refine ⟨m, ?_, (List.max?_eq_some_iff.mp hm).2⟩
  rw [maxOf, hm]
  rfl

section Keys

variable {keys order : List String} {rowsOf : String → List α}

variable (rowsOf) in
/-- **All chosen rows are listed**, each once, in rounds over the repositories. -/
theorem interleave_spec (hne : keys ≠ []) (horder : order.Perm keys) :
    ∃ n, interleave (Dict.ofKeys keys rowsOf) order = .ok (rounds (order.map rowsOf) n) ∧
      (rounds (order.map rowsOf) n).Perm (keys.flatMap rowsOf) := by
  have hlengths : ((Dict.ofKeys keys rowsOf).map fun item => item.2.length) =
      keys.map fun repo => (rowsOf repo).length := by
    rw [Dict.ofKeys, List.map_map]
    rfl
  have hne' : (keys.map fun repo => (rowsOf repo).length) ≠ [] := mt List.map_eq_nil_iff.mp hne
  obtain ⟨n, hn, hmax⟩ := maxOf_eq_ok hne'
  have hlists : (order.map fun repo => (Dict.ofKeys keys rowsOf).getD repo []) =
      order.map rowsOf :=
    List.map_congr_left fun repo hrepo => Dict.getD_ofKeys (horder.mem_iff.mp hrepo) []
  refine ⟨n, ?_, (rounds_perm ?_).trans ?_⟩
  · rw [interleave, hlengths, hn, ok_bind, hlists]
    rfl
  · intro xs hxs
    obtain ⟨repo, hrepo, rfl⟩ := List.mem_map.mp hxs
    exact hmax _ (List.mem_map_of_mem (horder.mem_iff.mp hrepo))
  · rw [← List.flatMap_def]
    exact horder.flatMap_right _

/-- The rows of a repository are told apart by the repository. -/
theorem selects_repo (hnodup : order.Nodup) {repoOf : α → String}
    (hrepo : ∀ repo ∈ order, ∀ row ∈ rowsOf repo, repoOf row = repo) {repo : String}
    (hmem : repo ∈ order) :
    Selects (fun row => repoOf row = repo) (order.map rowsOf) (rowsOf repo) := by
  obtain ⟨before, after, rfl⟩ := List.append_of_mem hmem
  refine ⟨⟨before.map rowsOf, after.map rowsOf, by rw [List.map_append, List.map_cons], ?_⟩, ?_⟩
  · intro xs hxs row hrow
    rw [← List.map_append] at hxs
    obtain ⟨other, hother, rfl⟩ := List.mem_map.mp hxs
    have hne : other ≠ repo := by
      rintro rfl
      exact (List.nodup_middle.mp hnodup).notMem hother
    have hrest : other ∈ before ++ repo :: after := by
      rcases List.mem_append.mp hother with hother | hother
      · exact List.mem_append_left _ hother
      · exact List.mem_append_right _ (List.mem_cons_of_mem _ hother)
    exact decide_eq_false (hrepo other hrest row hrow ▸ hne)
  · intro row hrow
    exact decide_eq_true (hrepo repo hmem row hrow)

/-- **In every prefix the repositories are balanced**, where the chosen rows are. -/
theorem exists_balance_interleave (hnodup : order.Nodup) {repoOf : α → String}
    (hrepo : ∀ repo ∈ order, ∀ row ∈ rowsOf repo, repoOf row = repo) {base : ℕ}
    (hbase : ∀ repo ∈ order, base ≤ (rowsOf repo).length ∧ (rowsOf repo).length ≤ base + 1)
    {part : List α} {n : ℕ} (hpart : part <+: rounds (order.map rowsOf) n) :
    ∃ low, ∀ repo ∈ order, low ≤ part.countP (fun row => repoOf row = repo) ∧
      part.countP (fun row => repoOf row = repo) ≤ low + 1 := by
  have hlengths : ∀ xs ∈ order.map rowsOf, base ≤ xs.length ∧ xs.length ≤ base + 1 := by
    intro xs hxs
    obtain ⟨repo, hmem, rfl⟩ := List.mem_map.mp hxs
    exact hbase repo hmem
  obtain ⟨low, hlow⟩ := exists_balance hlengths hpart
  exact ⟨low, fun repo hmem => hlow _ _ (selects_repo hnodup hrepo hmem)⟩

end Keys

end Selection
