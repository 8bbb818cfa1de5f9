import CodingOpd.Library.LeastSquares
import CodingOpd.Selection.Quotas

/-!
# Quotas by least squares

`largest_remainder_quotas` starts from the exact shares rounded down and gives each unit that is
left to a key with the largest deficit. The quotas it returns are closest to the exact shares among
all that keep to the capacities and add up to the total. It returns quotas unless the total is zero
and only keys without weight have a capacity: then it divides the total by the weight zero.

## Main definitions

* `LeastSquares`: the least-squares optimal apportionment under capacities

## Main results

* `leastSquares_of_eq_ok`: the quotas that are returned are optimal
* `largestRemainderQuotas_optimal_iff`: when optimal quotas are returned
-/

open Python Apportionment

namespace Selection

variable {K : Type} [Field K] [LinearOrder K] [IsStrictOrderedRing K] [FloorRing K]

/-! ## The optimal apportionment -/

section Definitions

variable (weights : Dict K) (total : ℤ) (capacities : Option (Dict ℤ))

/-- Quotas that keep to the capacities, add up to the total and are closest to the exact shares.
Where no capacity binds, each is the share rounded down or one more, and the extra units go to the
largest fractional parts, to the smaller key of two. -/
structure LeastSquares (quotas : Dict ℤ) : Prop
    extends Allots weights.sortedKeys (capacityOf weights total capacities) total quotas where
  least : ∀ other : String → ℤ, (∀ key ∈ weights.sortedKeys, 0 ≤ other key) →
    (∀ key ∈ weights.sortedKeys, other key ≤ capacityOf weights total capacities key) →
    (weights.sortedKeys.map other).sum = total →
    squares weights.sortedKeys (exactShare weights total capacities)
        (fun key => quotas.getD key 0) ≤
      squares weights.sortedKeys (exactShare weights total capacities) other
  extra : (∀ key ∈ weights.sortedKeys,
      exactShare weights total capacities key ≤ capacityOf weights total capacities key) →
    Extra weights.sortedKeys (exactShare weights total capacities) 0 fun key => quotas.getD key 0

end Definitions

/-! ## The run of the loop -/

omit [FloorRing K] in
/-- `min(candidates, key=...)` selects the largest deficit, the smaller key of two. -/
theorem selectKey_largest (exact : String → K) : Largest exact (selectKey exact) := by
  intro quotas candidates key hselect
  refine ⟨List.argmin_mem hselect, fun other hother => ?_⟩
  have hle := List.le_of_mem_argmin hother hselect
  rw [Prod.Lex.toLex_le_toLex] at hle
  rcases hle with hlt | ⟨heq, hle⟩
  · exact Or.inl (neg_lt_neg_iff.mp hlt)
  · exact Or.inr ⟨(neg_injective heq).symm, hle⟩

variable {weights : Dict K} {total : ℤ} {capacities : Option (Dict ℤ)}

omit [IsStrictOrderedRing K] [FloorRing K] in
/-- The exact shares add up to the total. -/
theorem sum_exactShare (hchecked : Checked weights total capacities)
    (hdivides : positiveWeight weights.sortedKeys (fun key => weights.getD key 0)
        (capacityOf weights total capacities) ≠ 0 ∨
      ∀ key ∈ weights.sortedKeys, capacityOf weights total capacities key ≤ 0) :
    (weights.sortedKeys.map (exactShare weights total capacities)).sum = (total : K) := by
  rcases hdivides with hpositive | hnone
  · exact sum_share hpositive
  · -- without a capacity there is no total either
    have hsum : (weights.sortedKeys.map (capacityOf weights total capacities)).sum ≤ 0 := by
      refine le_trans (List.sum_le_sum (g := fun _ => (0 : ℤ)) hnone) ?_
      simp
    have htotal : total = 0 :=
      le_antisymm (le_trans hchecked.total_le hsum) hchecked.total_nonneg
    rw [htotal, Int.cast_zero]
    apply List.sum_eq_zero
    intro x hx
    obtain ⟨key, hkey, rfl⟩ := List.mem_map.mp hx
    exact if_neg (not_lt.mpr (htotal ▸ hnone key hkey))

/-- **The quotas of a run are least-squares optimal.** -/
theorem leastSquares_of_filled (hnodup : weights.keys.Nodup)
    (hsum : (weights.sortedKeys.map (exactShare weights total capacities)).sum = (total : K))
    {filled : String → ℤ}
    (hfill : fillRemaining (selectKey (exactShare weights total capacities)) weights.sortedKeys
      (capacityOf weights total capacities)
      (total - (weights.sortedKeys.map (roundedShare weights total capacities)).sum)
      (roundedShare weights total capacities) = some filled)
    (hallots : Allots weights.sortedKeys (capacityOf weights total capacities) total
      (Dict.ofKeys weights.sortedKeys filled)) :
    LeastSquares weights total capacities (Dict.ofKeys weights.sortedKeys filled) := by
  obtain ⟨remaining, hremaining, hfill⟩ := exists_fill_of_fillRemaining hfill
  have hfilled : ∀ key ∈ weights.sortedKeys,
      (Dict.ofKeys weights.sortedKeys filled).getD key 0 = filled key :=
    fun key hkey => Dict.getD_ofKeys hkey 0
  refine ⟨hallots, ?_, ?_⟩
  · intro other _ hcap hother
    obtain ⟨bound, hlevel⟩ := (selectKey_largest _).level_fill level_floor hfill
    exact (hlevel.congr hfilled).squares_le hcap (hother.trans hallots.sum_eq.symm)
  · intro hfit
    have hfloor : ∀ key ∈ weights.sortedKeys, roundedShare weights total capacities key =
        ⌊exactShare weights total capacities key⌋ := fun key hkey =>
      min_eq_right (Int.cast_le.mp (le_trans (Int.floor_le _) (hfit key hkey)))
    have hmissing : (weights.sortedKeys.map (exactShare weights total capacities)).sum =
        (weights.sortedKeys.map fun key =>
          (roundedShare weights total capacities key : K)).sum + remaining := by
      have := congrArg (Int.cast : ℤ → K) hremaining
      rw [Int.cast_sub, cast_sum_map, Int.cast_natCast, sub_eq_iff_eq_add'] at this
      rw [hsum, this]
    exact ((selectKey_largest _).extra_fill (Dict.nodup_sortedKeys.mpr hnodup) hfit hfloor
      hmissing hfill).congr hfilled

/-! ## When quotas are returned -/

/-- **The quotas are found, and optimal, exactly when** a key with a capacity has a weight or no key
has a capacity. -/
theorem largestRemainderQuotas_optimal_iff (weights : Dict K) (total : ℤ)
    (capacities : Option (Dict ℤ)) (hnodup : weights.keys.Nodup)
    (hchecked : Checked weights total capacities) :
    (∃ quotas, largestRemainderQuotas weights total capacities = .ok quotas ∧
        LeastSquares weights total capacities quotas) ↔
      (∃ key ∈ weights.keys, 0 < capacityOf weights total capacities key ∧
        0 < weights.getD key 0) ∨
      ∀ key ∈ weights.keys, capacityOf weights total capacities key = 0 := by
  have hweight : ∀ key ∈ weights.sortedKeys, 0 ≤ weights.getD key 0 :=
    fun key hkey => hchecked.weight_nonneg key (Dict.mem_sortedKeys.mp hkey)
  constructor
  · rintro ⟨quotas, hquotas, -⟩
    by_contra hnot
    push Not at hnot
    obtain ⟨hweightless, key, hkey, hcap⟩ := hnot
    have hzero : positiveWeight weights.sortedKeys (fun key => weights.getD key 0)
        (capacityOf weights total capacities) = 0 := by
      apply List.sum_eq_zero
      intro x hx
      obtain ⟨other, hother, rfl⟩ := List.mem_map.mp hx
      obtain ⟨hother, hpos⟩ := List.mem_filter.mp hother
      exact le_antisymm
        (hweightless other (Dict.mem_sortedKeys.mp hother) (of_decide_eq_true hpos))
        (hweight other hother)
    have hpos : 0 < capacityOf weights total capacities key :=
      lt_of_le_of_ne (hchecked.capacity_nonneg key hkey) (Ne.symm hcap)
    have hany : weights.sortedKeys.any
        (fun key => 0 < capacityOf weights total capacities key) = true :=
      List.any_eq_true.mpr ⟨key, Dict.mem_sortedKeys.mpr hkey, decide_eq_true hpos⟩
    rw [largestRemainderQuotas_of_checked hchecked, if_pos ⟨hzero, hany⟩] at hquotas
    cases hquotas
  · intro hcondition
    have hdivides : positiveWeight weights.sortedKeys (fun key => weights.getD key 0)
          (capacityOf weights total capacities) ≠ 0 ∨
        ∀ key ∈ weights.sortedKeys, capacityOf weights total capacities key ≤ 0 := by
      rcases hcondition with ⟨key, hkey, hcap, hpos⟩ | hnone
      · exact Or.inl
          (positiveWeight_pos hweight (Dict.mem_sortedKeys.mpr hkey) hcap hpos).ne'
      · exact Or.inr fun key hkey => (hnone key (Dict.mem_sortedKeys.mp hkey)).le
    obtain ⟨filled, hfill, hquotas, hallots⟩ :=
      largestRemainderQuotas_eq_ok hchecked hnodup hdivides
    exact ⟨_, hquotas, leastSquares_of_filled hnodup (sum_exactShare hchecked hdivides)
      hfill hallots⟩

/-- Two units over two keys, one of which has room for one unit only. -/
theorem exists_leastSquares_quotas :
    ∃ quotas, largestRemainderQuotas ([("b", 3), ("a", 1)] : Dict ℚ) 2
        (some [("a", 2), ("b", 1)]) = .ok quotas ∧
      LeastSquares ([("b", 3), ("a", 1)] : Dict ℚ) 2 (some [("a", 2), ("b", 1)]) quotas := by
  refine (largestRemainderQuotas_optimal_iff _ _ _ (by decide) ⟨?_, ?_, ?_, ?_, ?_, ?_, ?_⟩).mpr
    (Or.inl ⟨"a", by decide, by decide +kernel, by decide +kernel⟩)
  · decide
  · decide +kernel
  · decide +kernel
  · rintro given ⟨rfl⟩
    decide
  · decide
  · decide +kernel
  · intro _
    decide +kernel

/-- Nothing is to be shared out, but the shares of weightless keys with room are still divided by
their weight. -/
theorem largestRemainderQuotas_weightless :
    Checked ([("a", 0)] : Dict ℚ) 0 (some [("a", 1)]) ∧
      largestRemainderQuotas ([("a", 0)] : Dict ℚ) 0 (some [("a", 1)]) =
        .error .zeroDivisionError := by
  refine ⟨⟨?_, ?_, ?_, ?_, ?_, ?_, ?_⟩, ?_⟩
  · decide
  · decide +kernel
  · decide +kernel
  · rintro given ⟨rfl⟩
    rfl
  · decide
  · decide +kernel
  · exact fun h => absurd rfl h
  · decide +kernel

end Selection
