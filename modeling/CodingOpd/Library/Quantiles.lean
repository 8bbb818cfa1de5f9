import Mathlib.Algebra.Order.Floor.Div
import Mathlib.Order.Interval.Finset.Nat
import Mathlib.Tactic.Ring

/-!
# Cutting an order into parts

The places of an order are cut into parts of about the same size, in their order. A value is placed
by how many values are at most as large.

## Main definitions

* `part`: the part that a place belongs to

## Main results

* `part_mono`, `part_lt`: the parts follow each other
* `card_part`: every part has its share of the places, rounded down or up
* `countP_le_lt_countP_le`: a larger value stands above more values
-/

namespace Quantiles

/-- The part of a place, of `n` places that are cut into `k` parts. -/
def part (k n i : ℕ) : ℕ := i * k / n

theorem part_mono (k n : ℕ) {i j : ℕ} (h : i ≤ j) : part k n i ≤ part k n j :=
  Nat.div_le_div_right (Nat.mul_le_mul_right k h)

theorem part_lt {k n i : ℕ} (hk : 0 < k) (hi : i < n) : part k n i < k := by
  rw [part, Nat.div_lt_iff_lt_mul (Nat.zero_lt_of_lt hi), Nat.mul_comm k n]
  exact Nat.mul_lt_mul_of_pos_right hi hk

/-- A part starts at the next place behind its share. -/
theorem le_part_iff {k n i b : ℕ} (hk : 0 < k) (hn : 0 < n) :
    b ≤ part k n i ↔ (b * n) ⌈/⌉ k ≤ i := by
  rw [part, Nat.le_div_iff_mul_le hn, ceilDiv_le_iff_le_smul hk, smul_eq_mul, Nat.mul_comm i k]

/-- The places of a part follow each other. -/
theorem filter_part {k n b : ℕ} (hk : 0 < k) (hb : b < k) :
    (Finset.range n).filter (part k n · = b) =
      Finset.Ico ((b * n) ⌈/⌉ k) (((b + 1) * n) ⌈/⌉ k) := by
  ext i
  rw [Finset.mem_filter, Finset.mem_range, Finset.mem_Ico]
  rcases Nat.eq_zero_or_pos n with rfl | hn
  · simp
  · rw [← le_part_iff hk hn, ← not_le, ← not_le, ← le_part_iff hk hn]
    constructor
    · rintro ⟨-, rfl⟩
      exact ⟨le_rfl, Nat.not_succ_le_self _⟩
    · rintro ⟨hlow, hhigh⟩
      refine ⟨fun hi => hhigh ?_, by omega⟩
      have hlast : k ≤ part k n i := by
        rw [part, Nat.le_div_iff_mul_le hn, Nat.mul_comm k n]
        exact Nat.mul_le_mul_right k hi
      exact Nat.le_trans hb hlast

/-- **Every part has its share of the places**, rounded down or up. -/
theorem card_part {k n b : ℕ} (hb : b < k) :
    n / k ≤ ((Finset.range n).filter (part k n · = b)).card ∧
      ((Finset.range n).filter (part k n · = b)).card ≤ (n + k - 1) / k := by
  have hk : 0 < k := Nat.zero_lt_of_lt hb
  rw [filter_part hk hb, Nat.card_Ico]
  have hceil : ∀ m : ℕ, m ≤ m ⌈/⌉ k * k := by
    intro m
    rw [Nat.mul_comm]
    exact le_smul_ceilDiv hk
  have hlow := hceil (b * n)
  have hhigh := hceil ((b + 1) * n)
  have hlow' : (b * n) ⌈/⌉ k * k ≤ b * n + k - 1 := Nat.div_mul_le_self _ _
  have hhigh' : ((b + 1) * n) ⌈/⌉ k * k ≤ (b + 1) * n + k - 1 := Nat.div_mul_le_self _ _
  have hsucc : (b + 1) * n = b * n + n := by ring
  constructor
  · rw [← Nat.lt_succ_iff, Nat.div_lt_iff_lt_mul hk, Nat.succ_mul, Nat.sub_mul]
    omega
  · rw [Nat.le_div_iff_mul_le hk, Nat.sub_mul]
    omega

section

variable {α : Type*} [LinearOrder α] {x y : α} {values : List α}

theorem countP_le_mono (h : x ≤ y) (values : List α) :
    values.countP (· ≤ x) ≤ values.countP (· ≤ y) :=
  List.countP_mono_left fun _ _ hle => decide_eq_true ((of_decide_eq_true hle).trans h)

/-- **A larger value stands above more values**: it is one of them itself. -/
theorem countP_le_lt_countP_le (h : x < y) (hy : y ∈ values) :
    values.countP (· ≤ x) < values.countP (· ≤ y) := by
  obtain ⟨before, after, rfl⟩ := List.append_of_mem hy
  rw [List.countP_append, List.countP_append, List.countP_cons_of_neg (by simpa using h),
    List.countP_cons_of_pos (by simp)]
  have hbefore := countP_le_mono h.le before
  have hafter := countP_le_mono h.le after
  omega

end

end Quantiles
