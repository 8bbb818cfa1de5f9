import Mathlib.Algebra.BigOperators.Group.List.Lemmas
import Mathlib.Analysis.SpecialFunctions.Pow.Real
import Mathlib.Data.List.MinMax
import Mathlib.Data.Prod.Lex
import CodingOpd.Library.Apportionment
import CodingOpd.Python.Collections
import CodingOpd.Python.Values

/-!
# Quotas

`largest_remainder_quotas` divides a total over the keys of a dictionary in proportion to their
weights, under capacities; `temperature_repo_quotas` weighs repositories by a power of their size.

## Main definitions

* `Arithmetic K`: the functions on floats that the selections use, in exact arithmetic
* `largestRemainderQuotas`: `largest_remainder_quotas`
* `temperatureRepoQuotas`: `temperature_repo_quotas`
* `Checked`: what the checks of `largest_remainder_quotas` leave

## Main results

* `largestRemainderQuotas_eq_ok`: after the checks the quotas keep to the capacities and add up to
  the total, where the keys with a capacity can be weighed
* `temperatureRepoQuotas_spec`: the same for repositories
* `largestRemainderQuotas_congr`: quotas do not depend on the order of the weights
-/

open Python Apportionment

namespace Selection

variable {K : Type} [Field K] [LinearOrder K] [IsStrictOrderedRing K] [FloorRing K]

/-- The functions on floats, in exact arithmetic: `float(size) ** alpha`, and `math.log1p`. -/
structure Arithmetic (K : Type) [Field K] [LinearOrder K] where
  pow : ℤ → K → K
  log1p : ℤ → K
  pow_pos : ∀ size alpha, 0 < size → 0 ≤ alpha → alpha ≤ 1 → 0 < pow size alpha

/-- The functions on the real numbers. -/
noncomputable def Arithmetic.real : Arithmetic ℝ where
  pow size alpha := (size : ℝ) ^ alpha
  log1p n := Real.log (1 + n)
  pow_pos _ _ hsize _ _ := Real.rpow_pos_of_pos (Int.cast_pos.mpr hsize) _

/-- Functions on the rational numbers that agree with the source's at the exponents 0 and 1. The
complexity fields are only ordered by their logarithms, so that any increasing function may stand
for `math.log1p`. -/
def Arithmetic.rational : Arithmetic ℚ where
  pow size alpha := if alpha = 1 then size else 1
  log1p n := n
  pow_pos size alpha hsize _ _ := by
    split
    · exact Int.cast_pos.mpr hsize
    · exact one_pos

/-- The first key, among those with room, with the largest deficit. -/
def selectKey (exact : String → K) (quotas : String → ℤ) (candidates : List String) :
    Option String :=
  candidates.argmin fun key => toLex (-(exact key - quotas key), key)

omit [IsStrictOrderedRing K] [FloorRing K] in
theorem selectKey_spec (exact : String → K) (quotas : String → ℤ) (candidates : List String)
    (hne : candidates ≠ []) :
    ∃ key ∈ candidates, selectKey exact quotas candidates = some key := by
  cases h : selectKey exact quotas candidates with
  | none => exact absurd (List.argmin_eq_none.mp h) hne
  | some key => exact ⟨key, List.argmin_mem h, rfl⟩

/-- `largest_remainder_quotas` -/
def largestRemainderQuotas (weights : Dict K) (total : ℤ) (capacities : Option (Dict ℤ)) :
    Except PyError (Dict ℤ) :=
  let keys := weights.sortedKeys
  let weight key := weights.getD key 0
  let capacities := capacities.getD (Dict.ofKeys keys fun _ => total)
  let capacity key := capacities.getD key 0
  let positive := positiveWeight keys weight capacity
  if total < 0 then
    .error (.valueError "total must be non-negative")
  else if keys = [] ∨ keys.any (fun key => weight key < 0) then
    .error (.valueError "weights must be a non-empty mapping of non-negative values")
  else if capacities.keys.toFinset ≠ keys.toFinset then
    .error (.valueError "capacities and weights must have identical keys")
  else if total > (keys.map capacity).sum then
    .error (.valueError "requested total exceeds capacity")
  else if total ≠ 0 ∧ positive ≤ 0 then
    .error (.valueError "positive capacity requires positive weight")
  else if positive = 0 ∧ keys.any (fun key => 0 < capacity key) then
    .error .zeroDivisionError
  else
    let quotas := floors total weight capacity positive
    match fillRemaining (selectKey (share total weight capacity positive)) keys capacity
        (total - (keys.map quotas).sum) quotas with
    | none => .error (.runtimeError "unable to satisfy quota allocation")
    | some quotas => .ok (Dict.ofKeys keys quotas)

/-- `temperature_repo_quotas` -/
def temperatureRepoQuotas (arithmetic : Arithmetic K) (repoSizes : Dict ℤ) (total : ℤ) (alpha : K)
    (capacities : Option (Dict ℤ)) : Except PyError (Dict ℤ) :=
  if ¬ (0 ≤ alpha ∧ alpha ≤ 1) then
    .error (.valueError "alpha must be in [0, 1]")
  else
    largestRemainderQuotas (repoSizes.mapValues fun size => arithmetic.pow size alpha) total
      (some (capacities.getD repoSizes))

/-- Quotas for the keys that keep to the capacities and add up to the total. -/
structure Allots (keys : List String) (capacity : String → ℤ) (total : ℤ) (quotas : Dict ℤ) :
    Prop where
  keys_eq : quotas.keys = keys
  nonneg : ∀ key ∈ keys, 0 ≤ quotas.getD key 0
  le_capacity : ∀ key ∈ keys, quotas.getD key 0 ≤ capacity key
  sum_eq : (keys.map fun key => quotas.getD key 0).sum = total

section Checks

variable (weights : Dict K) (total : ℤ) (capacities : Option (Dict ℤ))

/-- The capacity of a key: the total, where no capacities are given. -/
def capacityOf (key : String) : ℤ :=
  (capacities.getD (Dict.ofKeys weights.sortedKeys fun _ => total)).getD key 0

/-- The exact share of a key: in proportion to its weight among the keys with a capacity, zero for
the others. -/
def exactShare (key : String) : K :=
  share total (fun key => weights.getD key 0) (capacityOf weights total capacities)
    (positiveWeight weights.sortedKeys (fun key => weights.getD key 0)
      (capacityOf weights total capacities)) key

/-- The exact share of a key rounded down, at most its capacity. -/
def roundedShare (key : String) : ℤ :=
  min (capacityOf weights total capacities key) ⌊exactShare weights total capacities key⌋

/-- Non-negative weights and capacities, and a total, that pass the checks. -/
structure Checked : Prop where
  nonempty : weights ≠ []
  weight_nonneg : ∀ key ∈ weights.keys, 0 ≤ weights.getD key 0
  capacity_nonneg : ∀ key ∈ weights.keys, 0 ≤ capacityOf weights total capacities key
  same_keys : ∀ given, capacities = some given → given.keys.toFinset = weights.keys.toFinset
  total_nonneg : 0 ≤ total
  total_le : total ≤ (weights.sortedKeys.map (capacityOf weights total capacities)).sum
  weighed : total ≠ 0 → 0 < positiveWeight weights.sortedKeys (fun key => weights.getD key 0)
    (capacityOf weights total capacities)

end Checks

section Quotas

variable {weights : Dict K} {total : ℤ} {capacities : Option (Dict ℤ)}

omit [IsStrictOrderedRing K] in
/-- **After the checks** the function divides, unless there is a key to divide for and no weight to
divide by. -/
theorem largestRemainderQuotas_of_checked (hchecked : Checked weights total capacities) :
    largestRemainderQuotas weights total capacities =
      if positiveWeight weights.sortedKeys (fun key => weights.getD key 0)
            (capacityOf weights total capacities) = 0 ∧
          weights.sortedKeys.any (fun key => 0 < capacityOf weights total capacities key) then
        .error .zeroDivisionError
      else
        match fillRemaining (selectKey (exactShare weights total capacities)) weights.sortedKeys
            (capacityOf weights total capacities)
            (total - (weights.sortedKeys.map (roundedShare weights total capacities)).sum)
            (roundedShare weights total capacities) with
        | none => .error (.runtimeError "unable to satisfy quota allocation")
        | some quotas => .ok (Dict.ofKeys weights.sortedKeys quotas) := by
  -- Each check of the source is one of these facts.
  have hkeys : (capacities.getD (Dict.ofKeys weights.sortedKeys fun _ => total)).keys.toFinset =
      weights.sortedKeys.toFinset := by
    cases hgiven : capacities with
    | none => rw [Option.getD_none, Dict.keys_ofKeys]
    | some given =>
      rw [Option.getD_some, hchecked.same_keys given hgiven]
      exact (List.toFinset_eq_of_perm _ _ weights.sortedKeys_perm).symm
  have hne : ¬ (weights.sortedKeys = [] ∨
      weights.sortedKeys.any (fun key => weights.getD key 0 < 0)) := by
    rintro (hnil | hany)
    · have hperm := weights.sortedKeys_perm
      rw [hnil, List.nil_perm] at hperm
      exact hchecked.nonempty (List.map_eq_nil_iff.mp hperm)
    · obtain ⟨key, hkey, hneg⟩ := List.any_eq_true.mp hany
      exact absurd (of_decide_eq_true hneg)
        (not_lt.mpr (hchecked.weight_nonneg key (Dict.mem_sortedKeys.mp hkey)))
  have hle : ¬ total > (weights.sortedKeys.map fun key =>
      (capacities.getD (Dict.ofKeys weights.sortedKeys fun _ => total)).getD key 0).sum :=
    not_lt.mpr hchecked.total_le
  have hweighed : ¬ (total ≠ 0 ∧ positiveWeight weights.sortedKeys (fun key => weights.getD key 0)
      (fun key => (capacities.getD (Dict.ofKeys weights.sortedKeys fun _ => total)).getD key 0) ≤
        0) :=
    fun h => absurd h.2 (not_le.mpr (hchecked.weighed h.1))
  unfold largestRemainderQuotas
  rw [if_neg (not_lt.mpr hchecked.total_nonneg), if_neg hne, if_neg (not_not.mpr hkeys),
    if_neg hle, if_neg hweighed]
  rfl

/-- **The largest-remainder quotas** are the rounded shares and the units that are left, where the
checks pass and the keys with a capacity can be weighed. -/
theorem largestRemainderQuotas_eq_ok (hchecked : Checked weights total capacities)
    (hnodup : weights.keys.Nodup)
    (hdivides : positiveWeight weights.sortedKeys (fun key => weights.getD key 0)
        (capacityOf weights total capacities) ≠ 0 ∨
      ∀ key ∈ weights.sortedKeys, capacityOf weights total capacities key ≤ 0) :
    ∃ filled, fillRemaining (selectKey (exactShare weights total capacities)) weights.sortedKeys
        (capacityOf weights total capacities)
        (total - (weights.sortedKeys.map (roundedShare weights total capacities)).sum)
        (roundedShare weights total capacities) = some filled ∧
      largestRemainderQuotas weights total capacities =
        .ok (Dict.ofKeys weights.sortedKeys filled) ∧
      Allots weights.sortedKeys (capacityOf weights total capacities) total
        (Dict.ofKeys weights.sortedKeys filled) := by
  have hmem : ∀ key ∈ weights.sortedKeys, key ∈ weights.keys := fun _ => Dict.mem_sortedKeys.mp
  have hspec := apportion_spec
    (selectKey_spec (exactShare weights total capacities)) (Dict.nodup_sortedKeys.mpr hnodup)
    (fun key hkey => hchecked.weight_nonneg key (hmem key hkey))
    (fun key hkey => hchecked.capacity_nonneg key (hmem key hkey)) hdivides
    hchecked.total_nonneg hchecked.total_le
  change ∃ filled, fillRemaining (selectKey (exactShare weights total capacities)) _
    (capacityOf weights total capacities)
    (total - (weights.sortedKeys.map (roundedShare weights total capacities)).sum)
    (roundedShare weights total capacities) = some filled ∧ _ at hspec
  obtain ⟨filled, hfill, hnonneg, hcap, hsum⟩ := hspec
  refine ⟨filled, hfill, ?_, Dict.keys_ofKeys _ _, ?_, ?_, ?_⟩
  · rw [largestRemainderQuotas_of_checked hchecked, if_neg, hfill]
    · -- the division by no weight is not reached
      rintro ⟨hzero, hany⟩
      obtain ⟨key, hkey, hpos⟩ := List.any_eq_true.mp hany
      rcases hdivides with hne | hnone
      · exact hne hzero
      · exact absurd (of_decide_eq_true hpos) (not_lt.mpr (hnone key hkey))
  · intro key hkey
    rw [Dict.getD_ofKeys hkey]
    exact hnonneg key hkey
  · intro key hkey
    rw [Dict.getD_ofKeys hkey]
    exact hcap key hkey
  · rw [← hsum]
    congr 1
    apply List.map_congr_left
    intro key hkey
    exact Dict.getD_ofKeys hkey 0

end Quotas

/-- The quotas are found where every key with a capacity has a weight and the capacities suffice for
the total. -/
theorem largestRemainderQuotas_spec (weights : Dict K) (total : ℤ) (capacities : Dict ℤ)
    (hnodup : weights.keys.Nodup) (hne : weights ≠ []) (hkeys : capacities.keys.Perm weights.keys)
    (hweight : ∀ key ∈ weights.keys, 0 ≤ weights.getD key 0)
    (hcapacity : ∀ key ∈ weights.keys, 0 ≤ capacities.getD key 0)
    (hpositive : ∀ key ∈ weights.keys, 0 < capacities.getD key 0 → 0 < weights.getD key 0)
    (htotal : 0 ≤ total)
    (hle : total ≤ (weights.sortedKeys.map fun key => capacities.getD key 0).sum) :
    ∃ quotas, largestRemainderQuotas weights total (some capacities) = .ok quotas ∧
      Allots weights.sortedKeys (fun key => capacities.getD key 0) total quotas := by
  have hmem : ∀ key ∈ weights.sortedKeys, key ∈ weights.keys := fun _ => Dict.mem_sortedKeys.mp
  have hweight' := fun key hkey => hweight key (hmem key hkey)
  have hpositive' := fun key hkey => hpositive key (hmem key hkey)
  have hchecked : Checked weights total (some capacities) := by
    refine ⟨hne, hweight, hcapacity, ?_, htotal, hle, ?_⟩
    · rintro given ⟨rfl⟩
      exact List.toFinset_eq_of_perm _ _ hkeys
    · intro htotal'
      have hroom : (weights.sortedKeys.map fun _ => (0 : ℤ)).sum <
          (weights.sortedKeys.map fun key => capacities.getD key 0).sum := by
        rw [List.map_const', List.sum_replicate, smul_zero]
        omega
      obtain ⟨key, hkey, hcap⟩ := exists_room hroom
      exact positiveWeight_pos hweight' hkey hcap (hpositive' key hkey hcap)
  obtain ⟨filled, -, hquotas, hallots⟩ := largestRemainderQuotas_eq_ok hchecked hnodup
    (positiveWeight_ne_zero_or hweight' hpositive')
  exact ⟨_, hquotas, hallots⟩

/-- **Repository quotas** are found under capacities that the sizes allow. -/
theorem temperatureRepoQuotas_spec (arithmetic : Arithmetic K) (repoSizes : Dict ℤ) (total : ℤ)
    (alpha : K) (capacities : Dict ℤ) (hnodup : repoSizes.keys.Nodup) (hne : repoSizes ≠ [])
    (hsize : ∀ key ∈ repoSizes.keys, 0 < repoSizes.getD key 0)
    (hkeys : capacities.keys.Perm repoSizes.keys) (halpha : 0 ≤ alpha ∧ alpha ≤ 1)
    (hcapacity : ∀ key ∈ repoSizes.keys, 0 ≤ capacities.getD key 0) (htotal : 0 ≤ total)
    (hle : total ≤ (repoSizes.sortedKeys.map fun key => capacities.getD key 0).sum) :
    ∃ quotas, temperatureRepoQuotas arithmetic repoSizes total alpha (some capacities) =
        .ok quotas ∧
      Allots repoSizes.sortedKeys (fun key => capacities.getD key 0) total quotas := by
  have hweight : ∀ key ∈ repoSizes.keys, 0 <
      (repoSizes.mapValues fun size => arithmetic.pow size alpha).getD key 0 := by
    intro key hkey
    obtain ⟨size, hlookup⟩ := Dict.exists_lookup hkey
    have hpos := hsize key hkey
    rw [Dict.getD, hlookup, Option.getD_some] at hpos
    rw [Dict.getD, Dict.lookup_mapValues, hlookup]
    exact arithmetic.pow_pos size alpha hpos halpha.1 halpha.2
  unfold temperatureRepoQuotas
  rw [if_neg (not_not.mpr halpha), Option.getD_some]
  have hspec := largestRemainderQuotas_spec
    (repoSizes.mapValues fun size => arithmetic.pow size alpha) total capacities
  rw [Dict.keys_mapValues, Dict.sortedKeys_mapValues] at hspec
  exact hspec hnodup (fun h => hne (List.map_eq_nil_iff.mp h)) hkeys
    (fun key hkey => (hweight key hkey).le) hcapacity (fun key hkey _ => hweight key hkey) htotal
    hle

omit [IsStrictOrderedRing K] in
/-- **Quotas do not depend on the order** of the weights or of the capacities. -/
theorem largestRemainderQuotas_congr {weights weights' : Dict K} {capacities capacities' : Dict ℤ}
    (hkeys : weights.keys.Perm weights'.keys)
    (hweights : ∀ key, weights.getD key 0 = weights'.getD key 0)
    (hkeys' : capacities.keys.Perm capacities'.keys)
    (hcapacities : ∀ key, capacities.getD key 0 = capacities'.getD key 0) (total : ℤ) :
    largestRemainderQuotas weights total (some capacities) =
      largestRemainderQuotas weights' total (some capacities') := by
  unfold largestRemainderQuotas
  simp only [Dict.sortedKeys_eq_of_perm hkeys, Option.getD_some, hweights, hcapacities,
    List.toFinset_eq_of_perm _ _ hkeys']

omit [IsStrictOrderedRing K] in
theorem temperatureRepoQuotas_congr (arithmetic : Arithmetic K) {repoSizes repoSizes' : Dict ℤ}
    {capacities capacities' : Dict ℤ} (hkeys : repoSizes.keys.Perm repoSizes'.keys)
    (hsizes : ∀ key, repoSizes.lookup key = repoSizes'.lookup key)
    (hkeys' : capacities.keys.Perm capacities'.keys)
    (hcapacities : ∀ key, capacities.getD key 0 = capacities'.getD key 0) (total : ℤ) (alpha : K) :
    temperatureRepoQuotas arithmetic repoSizes total alpha (some capacities) =
      temperatureRepoQuotas arithmetic repoSizes' total alpha (some capacities') := by
  have hweights : ∀ key, (repoSizes.mapValues fun size => arithmetic.pow size alpha).getD key 0 =
      (repoSizes'.mapValues fun size => arithmetic.pow size alpha).getD key 0 := by
    intro key
    rw [Dict.getD, Dict.getD, Dict.lookup_mapValues, Dict.lookup_mapValues, hsizes]
  unfold temperatureRepoQuotas
  rw [Option.getD_some, Option.getD_some, largestRemainderQuotas_congr
    (by rwa [Dict.keys_mapValues, Dict.keys_mapValues]) hweights hkeys' hcapacities]

end Selection
