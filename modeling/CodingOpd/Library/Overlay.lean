import Mathlib.Data.List.Induction
import Mathlib.Data.Option.Basic

/-!
# Tables laid over one another

Partial tables over the same keys are read as one: an entry is that of the last table which has the
key. A table that is moved to the end shows the entries that later tables had covered.

## Main definitions

* `overlay`: the entries of tables laid over one another

## Main results

* `overlay_append`: the entries of two lists of tables
* `overlay_move_iff`: when a table can be moved to the end
-/

namespace Overlay

variable {κ ν : Type*}

/-- The entry of the last table that has the key. -/
def overlay (tables : List (κ → Option ν)) (key : κ) : Option ν :=
  tables.foldl (fun entry table => (table key).or entry) none

@[simp] theorem overlay_nil (key : κ) : overlay ([] : List (κ → Option ν)) key = none := rfl

@[simp] theorem overlay_append_singleton (tables : List (κ → Option ν)) (table : κ → Option ν)
    (key : κ) : overlay (tables ++ [table]) key = (table key).or (overlay tables key) := by
  rw [overlay, List.foldl_append]
  rfl

/-- **Later tables come first.** -/
theorem overlay_append (tables later : List (κ → Option ν)) (key : κ) :
    overlay (tables ++ later) key = (overlay later key).or (overlay tables key) := by
  induction later using List.reverseRecOn with
  | nil => rw [List.append_nil, overlay_nil, Option.none_or]
  | append_singleton later table ih =>
    rw [← List.append_assoc, overlay_append_singleton, ih, overlay_append_singleton,
      Option.or_assoc]

/-- An entry comes from one of the tables. -/
theorem exists_of_overlay {tables : List (κ → Option ν)} {key : κ} {value : ν}
    (h : overlay tables key = some value) : ∃ table ∈ tables, table key = some value := by
  induction tables using List.reverseRecOn with
  | nil => cases h
  | append_singleton tables table ih =>
    rw [overlay_append_singleton, Option.or_eq_some_iff] at h
    rcases h with h | ⟨-, h⟩
    · exact ⟨table, List.mem_append_right _ List.mem_cons_self, h⟩
    · obtain ⟨earlier, hmem, hentry⟩ := ih h
      exact ⟨earlier, List.mem_append_left _ hmem, hentry⟩

/-- **A table can be moved to the end** exactly when the later tables repeat the entries that they
cover. -/
theorem overlay_move_iff {before later : List (κ → Option ν)} {table : κ → Option ν} :
    overlay (before ++ later ++ [table]) = overlay (before ++ table :: later) ↔
      ∀ key value covering, table key = some value → overlay later key = some covering →
        covering = value := by
  have hmoved : ∀ key, overlay (before ++ later ++ [table]) key =
      (table key).or ((overlay later key).or (overlay before key)) := by
    intro key
    rw [overlay_append_singleton, overlay_append]
  have hplace : ∀ key, overlay (before ++ table :: later) key =
      (overlay later key).or ((table key).or (overlay before key)) := by
    intro key
    rw [← List.singleton_append, ← List.append_assoc, overlay_append, overlay_append_singleton]
  rw [funext_iff]
  simp only [hmoved, hplace]
  refine forall_congr' fun key => ?_
  -- the two orders differ only in which of two entries is found first
  cases htable : table key with
  | none => simp
  | some value =>
    cases hlater : overlay later key with
    | none => simp
    | some covering => simp [eq_comm]

end Overlay
