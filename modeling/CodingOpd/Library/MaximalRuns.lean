import Mathlib.Data.List.Basic
import Mathlib.Data.Nat.Init
import Mathlib.Order.Nat

/-!
# Maximal runs of a list

A list falls into its maximal runs of equal elements in one way. The offsets of the runs are its two
ends and the places where two neighbours differ.

## Main definitions

* `IsRuns`: the offsets of the maximal runs of a list, with its two ends
* `Breaks`: a run ends and another begins at a place

## Main results

* `isRuns_iff`: the offsets, in order, are the two ends and the breaks
* `IsRuns.unique`: a list has no other offsets
-/

namespace MaximalRuns

variable {α : Type*}

/-- The neighbours at a place differ. -/
def Breaks (xs : List α) (a : ℕ) : Prop := xs[a - 1]? ≠ xs[a]?

/-- The offsets of the maximal runs of a list: increasing, from its first place to its end, with
equal elements between two in a row and different ones at each inner offset. -/
structure IsRuns (xs : List α) (offsets : List ℕ) : Prop where
  increasing : offsets.Pairwise (· < ·)
  first : offsets.head? = some 0
  last : offsets.getLast? = some xs.length
  constant : ∀ i a b, offsets[i]? = some a → offsets[i + 1]? = some b →
    ∀ j k, a ≤ j → j < b → a ≤ k → k < b → xs[j]? = xs[k]?
  differ : ∀ a ∈ offsets, 0 < a → a < xs.length → Breaks xs a

/-! ## Increasing lists -/

section Increasing

variable {offsets : List ℕ} {a b c lo hi : ℕ}

theorem le_of_getLast? (h : offsets.Pairwise (· < ·)) (hlast : offsets.getLast? = some hi)
    (ha : a ∈ offsets) : a ≤ hi := by
  obtain ⟨init, rfl⟩ := List.getLast?_eq_some_iff.mp hlast
  rcases List.mem_append.mp ha with hinit | hend
  · exact ((List.pairwise_append.mp h).2.2 a hinit hi List.mem_cons_self).le
  · exact (List.mem_singleton.mp hend).le

/-- Nothing of an increasing list lies between two in a row. -/
theorem le_or_le_of_mem (h : offsets.Pairwise (· < ·)) {i : ℕ} (ha : offsets[i]? = some a)
    (hb : offsets[i + 1]? = some b) (hc : c ∈ offsets) : c ≤ a ∨ b ≤ c := by
  obtain ⟨hi, rfl⟩ := List.getElem?_eq_some_iff.mp ha
  obtain ⟨hi', rfl⟩ := List.getElem?_eq_some_iff.mp hb
  obtain ⟨k, hk, rfl⟩ := List.mem_iff_getElem.mp hc
  rcases lt_trichotomy k i with hlt | rfl | hgt
  · exact .inl (List.pairwise_iff_getElem.mp h k i hk hi hlt).le
  · exact .inl le_rfl
  · rcases Nat.lt_or_eq_of_le (Nat.succ_le_of_lt hgt) with hlt | rfl
    · exact .inr (List.pairwise_iff_getElem.mp h (i + 1) k hi' hk hlt).le
    · exact .inr le_rfl

/-- Two in a row stand around every place from the first to the last. -/
theorem exists_around (hfirst : offsets.head? = some lo) (hlast : offsets.getLast? = some hi)
    (hlo : lo ≤ c) (hhi : c < hi) :
    ∃ i a b, offsets[i]? = some a ∧ offsets[i + 1]? = some b ∧ a ≤ c ∧ c < b := by
  induction offsets generalizing lo with
  | nil => cases hfirst
  | cons a offsets ih =>
    cases hfirst
    cases offsets with
    | nil =>
      cases hlast
      exact absurd hhi hlo.not_gt
    | cons b offsets =>
      rcases Nat.lt_or_ge c b with hlt | hge
      · exact ⟨0, a, b, rfl, rfl, hlo, hlt⟩
      · obtain ⟨i, a', b', ha, hb, hac, hcb⟩ := ih rfl (by simpa using hlast) hge
        exact ⟨i + 1, a', b', ha, hb, hac, hcb⟩

end Increasing

/-! ## Offsets -/

variable {xs : List α} {offsets offsets' : List ℕ}

/-- The two ends of a list, and the breaks within. -/
def IsOffset (xs : List α) (a : ℕ) : Prop :=
  a ≤ xs.length ∧ (a = 0 ∨ a = xs.length ∨ Breaks xs a)

theorem IsRuns.mem_iff (h : IsRuns xs offsets) {a : ℕ} : a ∈ offsets ↔ IsOffset xs a := by
  constructor
  · intro hmem
    have hle := le_of_getLast? h.increasing h.last hmem
    refine ⟨hle, ?_⟩
    rcases Nat.eq_zero_or_pos a with hzero | hpos
    · exact .inl hzero
    · rcases Nat.lt_or_eq_of_le hle with hlt | heq
      · exact .inr (.inr (h.differ a hmem hpos hlt))
      · exact .inr (.inl heq)
  · rintro ⟨hle, rfl | rfl | hbreaks⟩
    · exact List.mem_of_mem_head? h.first
    · exact List.mem_of_mem_getLast? h.last
    · -- a break within a run would split it
      by_contra hmem
      have hne : a ≠ xs.length := fun heq => hmem (heq ▸ List.mem_of_mem_getLast? h.last)
      obtain ⟨i, lo, hi, hlo, hhi, hle, hlt⟩ := exists_around h.first h.last (Nat.zero_le a)
        (lt_of_le_of_ne hle hne)
      have hne : lo ≠ a := fun heq => hmem (heq ▸ List.mem_of_getElem? hlo)
      exact hbreaks (h.constant i lo hi hlo hhi (a - 1) a (by omega) (by omega) hle hlt)

/-- The elements from one place to another are equal when there is no break behind the first. -/
theorem getElem?_eq_of_no_breaks {a b : ℕ} (h : ∀ c, a < c → c < b → ¬ Breaks xs c) {j : ℕ}
    (hj : a ≤ j) (hjb : j < b) : xs[j]? = xs[a]? := by
  induction j, hj using Nat.le_induction with
  | base => rfl
  | succ j hj ih =>
    rw [← ih (by omega)]
    exact (not_not.mp (h (j + 1) (by omega) hjb)).symm

/-- **The offsets of the runs** are, in order, the two ends and the breaks. -/
theorem isRuns_iff : IsRuns xs offsets ↔
    offsets.Pairwise (· < ·) ∧ ∀ a, a ∈ offsets ↔ IsOffset xs a := by
  refine ⟨fun h => ⟨h.increasing, fun _ => h.mem_iff⟩, fun ⟨hincreasing, hmem⟩ => ?_⟩
  have hzero : 0 ∈ offsets := (hmem 0).mpr ⟨Nat.zero_le _, .inl rfl⟩
  have hlength : xs.length ∈ offsets := (hmem _).mpr ⟨le_rfl, .inr (.inl rfl)⟩
  refine ⟨hincreasing, ?_, ?_, ?_, ?_⟩
  · -- nothing that is smaller stands before zero
    cases offsets with
    | nil => cases hzero
    | cons a offsets =>
      rcases List.mem_cons.mp hzero with heq | hrest
      · rw [List.head?_cons, heq]
      · exact absurd ((List.pairwise_cons.mp hincreasing).1 0 hrest) (Nat.not_lt_zero a)
  · obtain ⟨last, hlast⟩ := Option.ne_none_iff_exists'.mp
      (mt List.getLast?_eq_none_iff.mp (List.ne_nil_of_mem hzero))
    have hle := ((hmem last).mp (List.mem_of_mem_getLast? hlast)).1
    rw [hlast, le_antisymm hle (le_of_getLast? hincreasing hlast hlength)]
  · intro i a b ha hb
    -- a break between two in a row would be an offset
    have hnone : ∀ c, a < c → c < b → ¬ Breaks xs c := by
      intro c hac hcb hbreaks
      have hle := ((hmem b).mp (List.mem_of_getElem? hb)).1
      have hc : c ∈ offsets := (hmem c).mpr ⟨hcb.le.trans hle, .inr (.inr hbreaks)⟩
      rcases le_or_le_of_mem hincreasing ha hb hc with hca | hbc
      · exact absurd hac hca.not_gt
      · exact absurd hcb hbc.not_gt
    intro j k hj hjb hk hkb
    rw [getElem?_eq_of_no_breaks hnone hj hjb, getElem?_eq_of_no_breaks hnone hk hkb]
  · intro a ha hpos hlt
    rcases ((hmem a).mp ha).2 with hzero | heq | hbreaks
    · exact absurd hzero hpos.ne'
    · exact absurd heq hlt.ne
    · exact hbreaks

/-- **A list falls into its runs in one way.** -/
theorem IsRuns.unique (h : IsRuns xs offsets) (h' : IsRuns xs offsets') : offsets = offsets' := by
  have hperm : offsets.Perm offsets' :=
    (List.perm_ext_iff_of_nodup (h.increasing.imp ne_of_lt) (h'.increasing.imp ne_of_lt)).mpr
      fun _ => h.mem_iff.trans h'.mem_iff.symm
  exact hperm.eq_of_pairwise (fun _ _ _ _ hab hba => absurd hab hba.not_gt) h.increasing
    h'.increasing

end MaximalRuns
