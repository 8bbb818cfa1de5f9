import Mathlib.Algebra.BigOperators.Ring.Finset
import Mathlib.Algebra.Order.BigOperators.Group.List
import Mathlib.Algebra.Order.Floor.Ring
import Mathlib.Logic.Function.Basic
import Mathlib.Tactic.Linarith
import Mathlib.Tactic.Ring

/-!
# Apportionment under capacities

A total is divided over keys in proportion to their weights: every key gets its exact share rounded
down, at most its capacity, and what is left is handed out one unit at a time to keys with room.
Whichever key is selected each time, the total is met exactly and no capacity is exceeded.

## Main definitions

* `share`: the exact share of a key
* `floors`: the shares rounded down, at most the capacities
* `fill`: the units that are left, handed out one at a time

## Main results

* `sum_floors_le`: the rounded shares do not exceed the total
* `fill_spec`: where there is room for what is left, all of it is handed out
-/

namespace Apportionment

variable {κ K : Type*}

section Fill

variable [DecidableEq κ] {select : (κ → ℤ) → List κ → Option κ} {keys : List κ}
variable {capacity : κ → ℤ}

/-- Hand out units one at a time, each to the key that is selected among those with room. -/
def fill (select : (κ → ℤ) → List κ → Option κ) (keys : List κ) (capacity : κ → ℤ) :
    ℕ → (κ → ℤ) → Option (κ → ℤ)
  | 0, quotas => some quotas
  | remaining + 1, quotas =>
    match select quotas (keys.filter fun key => quotas key < capacity key) with
    | none => none
    | some key => fill select keys capacity remaining (Function.update quotas key (quotas key + 1))

/-- A negative number of units never comes down to zero, however many are handed out. -/
def fillRemaining (select : (κ → ℤ) → List κ → Option κ) (keys : List κ) (capacity : κ → ℤ) :
    ℤ → (κ → ℤ) → Option (κ → ℤ)
  | .ofNat remaining, quotas => fill select keys capacity remaining quotas
  | .negSucc _, _ => none

theorem fillRemaining_natCast (remaining : ℕ) (quotas : κ → ℤ) :
    fillRemaining select keys capacity remaining quotas =
      fill select keys capacity remaining quotas := rfl

/-- What is handed out in the end is a number of units. -/
theorem exists_fill_of_fillRemaining {remaining : ℤ} {quotas filled : κ → ℤ}
    (h : fillRemaining select keys capacity remaining quotas = some filled) :
    ∃ n : ℕ, remaining = n ∧ fill select keys capacity n quotas = some filled := by
  cases remaining with
  | ofNat n => exact ⟨n, rfl, h⟩
  | negSucc n => cases h

omit [DecidableEq κ] in
/-- The units of the keys, as numbers of a ring. -/
theorem cast_sum_map {R : Type*} [Ring R] (keys : List κ) (quotas : κ → ℤ) :
    (((keys.map quotas).sum : ℤ) : R) = (keys.map fun key => (quotas key : R)).sum := by
  rw [Int.cast_list_sum, List.map_map]
  rfl

/-- One unit for one key is one unit for all. -/
theorem sum_map_update {keys : List κ} (hnodup : keys.Nodup) {key : κ} (hkey : key ∈ keys)
    (quotas : κ → ℤ) :
    (keys.map (Function.update quotas key (quotas key + 1))).sum = (keys.map quotas).sum + 1 := by
  induction keys with
  | nil => cases hkey
  | cons k keys ih =>
    obtain ⟨hk, hnodup⟩ := List.nodup_cons.mp hnodup
    rw [List.map_cons, List.map_cons, List.sum_cons, List.sum_cons]
    rcases List.mem_cons.mp hkey with rfl | hkey
    · have hrest : keys.map (Function.update quotas key (quotas key + 1)) = keys.map quotas := by
        apply List.map_congr_left
        intro other hother
        exact Function.update_of_ne (ne_of_mem_of_not_mem hother hk) _ _
      rw [hrest, Function.update_self]
      ring
    · rw [ih hnodup hkey, Function.update_of_ne (ne_of_mem_of_not_mem hkey hk).symm]
      ring

/-- The first keys get one more. -/
theorem sum_map_take_succ {order : List κ} (hnodup : order.Nodup) {n : ℕ}
    (hle : n ≤ order.length) (quotas : κ → ℤ) :
    (order.map fun key => if key ∈ order.take n then quotas key + 1 else quotas key).sum =
      (order.map quotas).sum + n := by
  have hsplit := List.take_append_drop n order
  have hdisjoint : List.Disjoint (order.take n) (order.drop n) :=
    List.disjoint_of_nodup_append (by rwa [hsplit])
  have htake : ((order.take n).map fun key =>
      if key ∈ order.take n then quotas key + 1 else quotas key).sum =
      ((order.take n).map quotas).sum + n := by
    have hmore : ((order.take n).map fun key =>
        if key ∈ order.take n then quotas key + 1 else quotas key) =
        (order.take n).map fun key => quotas key + 1 :=
      List.map_congr_left fun key hkey => if_pos hkey
    rw [hmore, List.sum_map_add, List.map_const', List.sum_replicate, List.length_take,
      min_eq_left hle, nsmul_one]
  have hdrop : ((order.drop n).map fun key =>
      if key ∈ order.take n then quotas key + 1 else quotas key) =
      (order.drop n).map quotas :=
    List.map_congr_left fun key hkey => if_neg fun htaken => hdisjoint htaken hkey
  calc (order.map fun key => if key ∈ order.take n then quotas key + 1 else quotas key).sum
      = ((order.take n).map fun key =>
            if key ∈ order.take n then quotas key + 1 else quotas key).sum +
          ((order.drop n).map fun key =>
            if key ∈ order.take n then quotas key + 1 else quotas key).sum := by
        rw [← List.sum_append, ← List.map_append, hsplit]
    _ = ((order.take n).map quotas).sum + n + ((order.drop n).map quotas).sum := by
        rw [htake, hdrop]
    _ = (((order.take n).map quotas).sum + ((order.drop n).map quotas).sum) + n := by
        ring
    _ = (order.map quotas).sum + n := by
        rw [← List.sum_append, ← List.map_append, hsplit]

omit [DecidableEq κ] in
/-- A total that is below the sum of the capacities leaves room at some key. -/
theorem exists_room {quotas : κ → ℤ} (h : (keys.map quotas).sum < (keys.map capacity).sum) :
    ∃ key ∈ keys, quotas key < capacity key := by
  by_contra hnone
  push Not at hnone
  exact absurd h (not_lt.mpr (List.sum_le_sum hnone))

/-- **What is left is handed out**, as long as the capacities have room for it. -/
theorem fill_spec (hselect : ∀ quotas candidates, candidates ≠ [] →
      ∃ key ∈ candidates, select quotas candidates = some key) (hnodup : keys.Nodup)
    (remaining : ℕ) {quotas : κ → ℤ} (hle : ∀ key ∈ keys, quotas key ≤ capacity key)
    (hroom : (keys.map quotas).sum + remaining ≤ (keys.map capacity).sum) :
    ∃ filled, fill select keys capacity remaining quotas = some filled ∧
      (∀ key, quotas key ≤ filled key) ∧ (∀ key ∈ keys, filled key ≤ capacity key) ∧
      (keys.map filled).sum = (keys.map quotas).sum + remaining := by
  induction remaining generalizing quotas with
  | zero => exact ⟨quotas, rfl, fun _ => le_rfl, hle, by simp⟩
  | succ remaining ih =>
    push_cast at hroom
    have hbelow : (keys.map quotas).sum < (keys.map capacity).sum := by omega
    obtain ⟨room, hmem, hlt⟩ := exists_room hbelow
    have hne : keys.filter (fun key => quotas key < capacity key) ≠ [] :=
      List.ne_nil_of_mem (List.mem_filter.mpr ⟨hmem, decide_eq_true hlt⟩)
    obtain ⟨key, hkey, hselected⟩ := hselect quotas _ hne
    obtain ⟨hkey, hfree⟩ := List.mem_filter.mp hkey
    have hsum := sum_map_update hnodup hkey quotas
    have hle' : ∀ other ∈ keys,
        Function.update quotas key (quotas key + 1) other ≤ capacity other := by
      intro other hother
      rcases eq_or_ne other key with rfl | hne
      · rw [Function.update_self]
        have := of_decide_eq_true hfree
        omega
      · rw [Function.update_of_ne hne]
        exact hle other hother
    obtain ⟨filled, hfill, hge, hcap, hfilled⟩ := ih hle' (by omega)
    refine ⟨filled, ?_, fun other => le_trans ?_ (hge other), hcap, ?_⟩
    · rw [fill, hselected]
      exact hfill
    · rcases eq_or_ne other key with rfl | hne
      · rw [Function.update_self]
        omega
      · rw [Function.update_of_ne hne]
    · push_cast
      omega

end Fill

section Floors

variable [Field K] [LinearOrder K] [IsStrictOrderedRing K] [FloorRing K]

/-- The weight of the keys that have a capacity. -/
def positiveWeight (keys : List κ) (weight : κ → K) (capacity : κ → ℤ) : K :=
  ((keys.filter fun key => 0 < capacity key).map weight).sum

/-- The exact share of a key. -/
def share (total : ℤ) (weight : κ → K) (capacity : κ → ℤ) (positive : K) (key : κ) : K :=
  if 0 < capacity key then total * weight key / positive else 0

/-- The share of a key rounded down, at most its capacity. -/
def floors (total : ℤ) (weight : κ → K) (capacity : κ → ℤ) (positive : K) (key : κ) : ℤ :=
  min (capacity key) ⌊share total weight capacity positive key⌋

variable {keys : List κ} {weight : κ → K} {capacity : κ → ℤ} {total : ℤ}

omit [FloorRing K] in
theorem positiveWeight_nonneg (hweight : ∀ key ∈ keys, 0 ≤ weight key) :
    0 ≤ positiveWeight keys weight capacity := by
  apply List.sum_nonneg
  intro x hx
  obtain ⟨key, hkey, rfl⟩ := List.mem_map.mp hx
  exact hweight key (List.mem_filter.mp hkey).1

omit [FloorRing K] in
/-- A key with a capacity and a weight makes the positive weight positive. -/
theorem positiveWeight_pos (hweight : ∀ key ∈ keys, 0 ≤ weight key) {key : κ} (hkey : key ∈ keys)
    (hcapacity : 0 < capacity key) (hpos : 0 < weight key) :
    0 < positiveWeight keys weight capacity := by
  refine lt_of_lt_of_le hpos (List.single_le_sum ?_ (weight key) (List.mem_map.mpr
    ⟨key, List.mem_filter.mpr ⟨hkey, decide_eq_true hcapacity⟩, rfl⟩))
  intro x hx
  obtain ⟨other, hother, rfl⟩ := List.mem_map.mp hx
  exact hweight other (List.mem_filter.mp hother).1

omit [LinearOrder K] [IsStrictOrderedRing K] [FloorRing K] in
/-- The exact shares add up to the total. -/
theorem sum_share (hpositive : positiveWeight keys weight capacity ≠ 0) :
    (keys.map (share total weight capacity (positiveWeight keys weight capacity))).sum =
      (total : K) := by
  have hsum : ∀ (positive : K) (keys : List κ),
      (keys.map (share total weight capacity positive)).sum =
        total * positiveWeight keys weight capacity / positive := by
    intro positive keys
    induction keys with
    | nil => simp [positiveWeight]
    | cons key keys ih =>
      rw [List.map_cons, List.sum_cons, ih, share, positiveWeight, positiveWeight,
        List.filter_cons]
      split
      case isTrue hcap =>
        rw [if_pos (decide_eq_true hcap), List.map_cons, List.sum_cons]
        ring
      case isFalse hcap =>
        rw [if_neg (by simpa using hcap), zero_add]
  rw [hsum, mul_div_assoc, div_self hpositive, mul_one]

/-- **The rounded shares do not exceed the total.** -/
theorem sum_floors_le (hpositive : positiveWeight keys weight capacity ≠ 0) :
    (keys.map (floors total weight capacity (positiveWeight keys weight capacity))).sum ≤
      total := by
  have hle : (((keys.map (floors total weight capacity
      (positiveWeight keys weight capacity))).sum : ℤ) : K) ≤ total := by
    rw [Int.cast_list_sum, List.map_map, ← sum_share hpositive]
    apply List.sum_le_sum
    intro key _
    exact le_trans (Int.cast_le.mpr (min_le_right _ _)) (Int.floor_le _)
  exact Int.cast_le.mp hle

omit [IsStrictOrderedRing K] in
theorem floors_le_capacity (positive : K) (key : κ) :
    floors total weight capacity positive key ≤ capacity key :=
  min_le_left _ _

/-- A rounded share is not negative. -/
theorem floors_nonneg {key : κ} (htotal : 0 ≤ total) (hweight : 0 ≤ weight key)
    (hcapacity : 0 ≤ capacity key) {positive : K} (hpositive : 0 ≤ positive) :
    0 ≤ floors total weight capacity positive key := by
  refine le_min hcapacity (Int.floor_nonneg.mpr ?_)
  unfold share
  split
  · exact div_nonneg (mul_nonneg (Int.cast_nonneg htotal) hweight) hpositive
  · exact le_rfl

omit [FloorRing K] in
/-- The weight of the keys with a capacity is not zero where each of them has a weight, unless there
is no such key. -/
theorem positiveWeight_ne_zero_or (hweight : ∀ key ∈ keys, 0 ≤ weight key)
    (hpositive : ∀ key ∈ keys, 0 < capacity key → 0 < weight key) :
    positiveWeight keys weight capacity ≠ 0 ∨ ∀ key ∈ keys, capacity key ≤ 0 := by
  by_cases hcap : ∃ key ∈ keys, 0 < capacity key
  · obtain ⟨key, hkey, hcap⟩ := hcap
    exact Or.inl (positiveWeight_pos hweight hkey hcap (hpositive key hkey hcap)).ne'
  · push Not at hcap
    exact Or.inr hcap

/-- The rounded shares do not exceed the total, unless nothing can be weighed; then no key has a
capacity. -/
theorem sum_floors_le_total
    (hdivides : positiveWeight keys weight capacity ≠ 0 ∨ ∀ key ∈ keys, capacity key ≤ 0)
    (htotal : 0 ≤ total) :
    (keys.map (floors total weight capacity (positiveWeight keys weight capacity))).sum ≤
      total := by
  rcases hdivides with hpositive | hnone
  · exact sum_floors_le hpositive
  · have hzero : ∀ key ∈ keys,
        floors total weight capacity (positiveWeight keys weight capacity) key ≤ 0 :=
      fun key hkey => le_trans (floors_le_capacity _ key) (hnone key hkey)
    refine le_trans (List.sum_le_sum hzero) ?_
    simpa using htotal

/-- **A total is divided exactly** and within the capacities, where they suffice for it and the
keys with a capacity can be weighed. -/
theorem apportion_spec [DecidableEq κ] {select : (κ → ℤ) → List κ → Option κ}
    (hselect : ∀ quotas candidates, candidates ≠ [] →
      ∃ key ∈ candidates, select quotas candidates = some key)
    (hnodup : keys.Nodup) (hweight : ∀ key ∈ keys, 0 ≤ weight key)
    (hcapacity : ∀ key ∈ keys, 0 ≤ capacity key)
    (hdivides : positiveWeight keys weight capacity ≠ 0 ∨ ∀ key ∈ keys, capacity key ≤ 0)
    (htotal : 0 ≤ total) (hle : total ≤ (keys.map capacity).sum) :
    ∃ filled, fillRemaining select keys capacity
        (total - (keys.map (floors total weight capacity
          (positiveWeight keys weight capacity))).sum)
        (floors total weight capacity (positiveWeight keys weight capacity)) = some filled ∧
      (∀ key ∈ keys, 0 ≤ filled key) ∧ (∀ key ∈ keys, filled key ≤ capacity key) ∧
      (keys.map filled).sum = total := by
  have hfloors := sum_floors_le_total hdivides htotal
  have hnonneg : ∀ key ∈ keys,
      0 ≤ floors total weight capacity (positiveWeight keys weight capacity) key := fun key hkey =>
    floors_nonneg htotal (hweight key hkey) (hcapacity key hkey) (positiveWeight_nonneg hweight)
  have hstart : ∀ key ∈ keys,
      floors total weight capacity (positiveWeight keys weight capacity) key ≤ capacity key :=
    fun key _ => floors_le_capacity _ key
  generalize floors total weight capacity (positiveWeight keys weight capacity) = quotas at *
  obtain ⟨remaining, hremaining⟩ := Int.eq_ofNat_of_zero_le (sub_nonneg.mpr hfloors)
  obtain ⟨filled, hfill, hge, hcap, hsum⟩ := fill_spec hselect hnodup remaining hstart (by omega)
  refine ⟨filled, ?_, fun key hkey => le_trans (hnonneg key hkey) (hge key), hcap, by omega⟩
  rw [hremaining, fillRemaining_natCast, hfill]

end Floors

section Remainders

variable [Field K] [LinearOrder K] [IsStrictOrderedRing K]
variable {order : List κ} {remainder : κ → K} {n : ℕ}

/-- Remainders below one that add up to a number of units are those of at least as many keys. -/
theorem le_length_of_sum_remainders (hlt : ∀ key ∈ order, remainder key < 1)
    (hsum : (order.map remainder).sum = n) : n ≤ order.length := by
  have hle : (order.map remainder).sum ≤ (order.map fun _ => (1 : K)).sum :=
    List.sum_le_sum fun key hkey => (hlt key hkey).le
  rw [hsum, List.map_const', List.sum_replicate, nsmul_one] at hle
  exact Nat.cast_le.mp hle

/-- **The largest remainders are positive**: as many as there are units to give. -/
theorem remainder_pos_of_mem_take (hsorted : order.Pairwise fun a b => remainder b ≤ remainder a)
    (hlt : ∀ key ∈ order, remainder key < 1) (hsum : (order.map remainder).sum = n) {key : κ}
    (hkey : key ∈ order.take n) : 0 < remainder key := by
  by_contra hnot
  obtain ⟨before, after, hsplit⟩ := List.append_of_mem hkey
  obtain ⟨rest, horder⟩ : ∃ rest, order = before ++ key :: rest :=
    ⟨after ++ order.drop n, by
      rw [← List.cons_append, ← List.append_assoc, ← hsplit, List.take_append_drop]⟩
  have hbefore : before.length < n := by
    have := congrArg List.length hsplit
    rw [List.length_take, List.length_append, List.length_cons] at this
    omega
  rw [horder] at hsorted hlt hsum
  -- from the key on, no remainder is positive, and there are too few before it
  have hrest : ((key :: rest).map remainder).sum ≤ 0 := by
    have hle : ∀ other ∈ key :: rest, remainder other ≤ 0 := by
      intro other hother
      have hkeyRest := (List.pairwise_append.mp hsorted).2.1
      rcases List.mem_cons.mp hother with rfl | hother
      · exact not_lt.mp hnot
      · exact le_trans (List.rel_of_pairwise_cons hkeyRest hother) (not_lt.mp hnot)
    refine le_trans (List.sum_le_sum (g := fun _ => (0 : K)) hle) ?_
    simp
  have hfirst : (before.map remainder).sum ≤ before.length := by
    have hle : (before.map remainder).sum ≤ (before.map fun _ => (1 : K)).sum :=
      List.sum_le_sum fun other hother => (hlt other (List.mem_append_left _ hother)).le
    rwa [List.map_const', List.sum_replicate, nsmul_one] at hle
  have hcount : (before.length : K) < n := Nat.cast_lt.mpr hbefore
  rw [List.map_append, List.sum_append] at hsum
  linarith

end Remainders

end Apportionment
