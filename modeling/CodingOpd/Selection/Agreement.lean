import CodingOpd.Selection.Optimal
import CodingOpd.Selection.Pilot
import CodingOpd.Selection.Proportional

/-!
# The proportional allocators agree

`_repo_quotas` gives out what is left in rounds, `_select_verified` in one pass, and
`largest_remainder_quotas` one unit at a time to the largest deficit. Where the capacities are the
sizes of the repositories they do not bind, each loop gives one unit to the first repositories in
the order of the remainders, and the quotas are the same.

## Main results

* `exists_first_units`: which repositories get one more row
* `largestRemainderQuotas_groups`: the quotas by largest deficit
* `repoQuotas_groupBy`: the pilot has the quotas of `_repo_quotas`
* `quotas_agree`: the three allocators return the same quotas
-/

open Python RankedSort Apportionment

namespace Selection

variable {K : Type} [Field K] [LinearOrder K] [IsStrictOrderedRing K] [FloorRing K]

/-! ## The first units -/

section Units

variable {repos : List String} {length : String → ℤ} {size : ℤ}

/-- The quotas before the loops: the shares rounded down, at most the sizes. -/
def startQuotas (K : Type) [Field K] [LinearOrder K] [FloorRing K] (length : String → ℤ)
    (size total : ℤ) (repo : String) : ℤ :=
  min (length repo) (truncate (proportion K length size total repo))

/-- The order of the remainders. -/
def remainderOrder (K : Type) [Field K] [LinearOrder K] [FloorRing K] (repos : List String)
    (length : String → ℤ) (size total : ℤ) : List String :=
  sortBy (fun repo => toLex (-(proportion K length size total repo -
    (startQuotas K length size total repo : K)), repo)) repos

/-- The quotas with one more row for the first repositories in the order of the remainders. -/
def oneMore (K : Type) [Field K] [LinearOrder K] [FloorRing K] (repos : List String)
    (length : String → ℤ) (size total : ℤ) (n : ℕ) (repo : String) : ℤ :=
  if repo ∈ (remainderOrder K repos length size total).take n then
    startQuotas K length size total repo + 1
  else startQuotas K length size total repo

/-- **One more row for the first repositories**: they have room for it, and the quotas that result
are the shares with the extra units at the largest fractional parts. -/
theorem exists_first_units (hnodup : repos.Nodup) (hlength : ∀ repo ∈ repos, 0 < length repo)
    (hsize : 0 ≤ size) (hle : size ≤ (repos.map length).sum) :
    ∃ n : ℕ, size - (repos.map (startQuotas K length size (repos.map length).sum)).sum = n ∧
      n ≤ (remainderOrder K repos length size (repos.map length).sum).length ∧
      (∀ repo ∈ (remainderOrder K repos length size (repos.map length).sum).take n,
        startQuotas K length size (repos.map length).sum repo < length repo) ∧
      Extra repos (proportion K length size (repos.map length).sum) 0
        (oneMore K repos length size (repos.map length).sum n) := by
  have hfloor : ∀ repo ∈ repos, startQuotas K length size (repos.map length).sum repo =
      ⌊proportion K length size (repos.map length).sum repo⌋ :=
    fun repo hrepo => min_truncate_proportion hlength hsize hle hrepo
  have hsum := sum_proportion (K := K) hlength hsize hle
  obtain ⟨n, hn, hcount, hpositive⟩ := exists_units hfloor hsum rfl
  have hperm := sortBy_perm (fun repo =>
    toLex (-(proportion K length size (repos.map length).sum repo -
      (startQuotas K length size (repos.map length).sum repo : K)), repo)) repos
  refine ⟨n, hn, hcount, ?_, extra_of_take hperm hnodup hfloor ?_ hcount ?_⟩
  · intro repo hrepo
    have hpos := hpositive repo hrepo
    have hcap := proportion_le (K := K) hlength hsize hle
      (hperm.mem_iff.mp (List.mem_of_mem_take hrepo))
    have : (startQuotas K length size (repos.map length).sum repo : K) < length repo := by
      linarith
    exact Int.cast_lt.mp this
  · -- the remainders are the fractional parts
    apply (List.Pairwise.and_mem.mp (pairwise_sortBy _ repos)).imp
    rintro first second ⟨hfirst, hsecond, hsorted⟩
    rw [hfloor first (hperm.mem_iff.mp hfirst), hfloor second (hperm.mem_iff.mp hsecond)] at hsorted
    rcases Prod.Lex.toLex_le_toLex.mp hsorted with hlt | ⟨heq, hle⟩
    · exact Or.inl (neg_lt_neg_iff.mp hlt)
    · exact Or.inr ⟨(neg_injective heq).symm, hle⟩
  · have hcast := congrArg (Int.cast : ℤ → K) hn
    rw [Int.cast_sub, cast_sum_map, Int.cast_natCast, sub_eq_iff_eq_add'] at hcast
    rw [hsum, hcast]

end Units

/-! ## The allocators -/

section Allocators

variable {α : Type} {groups : Dict (List α)}

/-- The rows of all groups. -/
def totalRows (groups : Dict (List α)) : ℤ :=
  (groups.keys.map fun repo => ((groups.getD repo []).length : ℤ)).sum

/-- The sizes of the groups, as weights. -/
def sizeWeights (K : Type) [Field K] (groups : Dict (List α)) : Dict K :=
  (groupSizes groups).mapValues Int.cast

omit [LinearOrder K] [IsStrictOrderedRing K] [FloorRing K] in
@[simp] theorem keys_sizeWeights (groups : Dict (List α)) :
    (sizeWeights K groups).keys = groups.keys := by
  rw [sizeWeights, Dict.keys_mapValues, keys_groupSizes]

omit [LinearOrder K] [IsStrictOrderedRing K] [FloorRing K] in
@[simp] theorem sortedKeys_sizeWeights (groups : Dict (List α)) :
    (sizeWeights K groups).sortedKeys = groups.sortedKeys := by
  rw [Dict.sortedKeys, keys_sizeWeights, Dict.sortedKeys]

omit [LinearOrder K] [IsStrictOrderedRing K] [FloorRing K] in
theorem getD_sizeWeights (groups : Dict (List α)) (repo : String) :
    (sizeWeights K groups).getD repo 0 = (((groups.getD repo []).length : ℤ) : K) := by
  have h := Dict.getD_mapValues (Int.cast : ℤ → K) (groupSizes groups) repo 0
  rw [Int.cast_zero, getD_groupSizes] at h
  exact h

omit [LinearOrder K] [IsStrictOrderedRing K] [FloorRing K] in
theorem capacityOf_sizeWeights (groups : Dict (List α)) (size : ℤ) :
    capacityOf (sizeWeights K groups) size (some (groupSizes groups)) =
      fun repo => ((groups.getD repo []).length : ℤ) :=
  funext (getD_groupSizes groups)

section Groups

variable (hrows : ∀ repo ∈ groups.keys, groups.getD repo [] ≠ [])
include hrows

omit [LinearOrder K] [IsStrictOrderedRing K] [FloorRing K] in
/-- Every repository is weighed. -/
theorem positiveWeight_sizeWeights :
    positiveWeight groups.sortedKeys (fun repo => (sizeWeights K groups).getD repo 0)
      (fun repo => ((groups.getD repo []).length : ℤ)) = (totalRows groups : K) := by
  have hall : groups.sortedKeys.filter
      (fun repo => 0 < ((groups.getD repo []).length : ℤ)) = groups.sortedKeys := by
    rw [List.filter_eq_self]
    intro repo hrepo
    exact decide_eq_true (Nat.cast_pos.mpr
      (List.length_pos_iff.mpr (hrows repo (Dict.mem_sortedKeys.mp hrepo))))
  rw [positiveWeight, hall, (groups.sortedKeys_perm.map _).sum_eq, totalRows, cast_sum_map]
  exact congrArg List.sum (List.map_congr_left fun repo _ => getD_sizeWeights groups repo)

omit [LinearOrder K] [IsStrictOrderedRing K] [FloorRing K] in
/-- The exact shares are the proportional ones. -/
theorem exactShare_sizeWeights (size : ℤ) :
    exactShare (sizeWeights K groups) size (some (groupSizes groups)) =
      proportion K (fun repo => (groups.getD repo []).length) size (totalRows groups) := by
  funext repo
  rw [exactShare, capacityOf_sizeWeights, sortedKeys_sizeWeights,
    positiveWeight_sizeWeights hrows, share, proportion, getD_sizeWeights, Int.cast_mul]
  split
  case isTrue => rfl
  case isFalse hnone =>
    have hzero : ((groups.getD repo []).length : ℤ) = 0 := by omega
    rw [hzero, Int.cast_zero, mul_zero, zero_div]

/-- The sizes of the groups pass the checks of `largest_remainder_quotas`. -/
theorem checked_sizeWeights {size : ℤ} (hsize : 1 ≤ size) (hle : size ≤ totalRows groups) :
    Checked (sizeWeights K groups) size (some (groupSizes groups)) := by
  refine ⟨?_, ?_, ?_, ?_, by omega, ?_, ?_⟩
  · intro hnil
    have hkeys : groups.keys = [] := by rw [← keys_sizeWeights (K := K), hnil]; rfl
    rw [totalRows, hkeys, List.map_nil, List.sum_nil] at hle
    omega
  · intro repo _
    rw [getD_sizeWeights]
    exact Int.cast_nonneg (Nat.cast_nonneg _)
  · intro repo _
    rw [capacityOf_sizeWeights]
    exact Nat.cast_nonneg _
  · rintro given ⟨rfl⟩
    rw [keys_groupSizes, keys_sizeWeights]
  · rw [capacityOf_sizeWeights, sortedKeys_sizeWeights]
    exact hle.trans_eq (groups.sortedKeys_perm.map _).sum_eq.symm
  · intro _
    rw [capacityOf_sizeWeights, sortedKeys_sizeWeights, positiveWeight_sizeWeights hrows]
    exact Int.cast_pos.mpr (by omega)

/-- **The quotas by largest deficit**, for sizes as weights and as capacities. -/
theorem largestRemainderQuotas_groups (hnodup : groups.keys.Nodup) {size : ℤ} (hsize : 1 ≤ size)
    (hle : size ≤ totalRows groups) :
    ∃ quotas, largestRemainderQuotas (sizeWeights K groups) size (some (groupSizes groups)) =
        .ok (Dict.ofKeys groups.sortedKeys quotas) ∧
      Extra groups.keys (proportion K (fun repo => (groups.getD repo []).length) size
        (totalRows groups)) 0 quotas := by
  have hpositive : 0 < (totalRows groups : K) := Int.cast_pos.mpr (by omega)
  have hchecked := checked_sizeWeights (K := K) hrows hsize hle
  have hdivides : positiveWeight (sizeWeights K groups).sortedKeys
      (fun key => (sizeWeights K groups).getD key 0)
      (capacityOf (sizeWeights K groups) size (some (groupSizes groups))) ≠ 0 := by
    rw [capacityOf_sizeWeights, sortedKeys_sizeWeights, positiveWeight_sizeWeights hrows]
    exact hpositive.ne'
  have hnodup' : (sizeWeights K groups).keys.Nodup := by rwa [keys_sizeWeights]
  obtain ⟨filled, hfill, hquotas, hallots⟩ :=
    largestRemainderQuotas_eq_ok hchecked hnodup' (Or.inl hdivides)
  have hleast := leastSquares_of_filled hnodup' (sum_exactShare hchecked (Or.inl hdivides)) hfill
    hallots
  have hextra := hleast.extra ?_
  · rw [sortedKeys_sizeWeights] at hquotas
    refine ⟨filled, hquotas, ?_⟩
    rw [sortedKeys_sizeWeights, exactShare_sizeWeights hrows] at hextra
    refine (hextra.congr ?_).perm groups.sortedKeys_perm
    intro repo hrepo
    exact (Dict.getD_ofKeys hrepo 0).symm
  · intro repo hrepo
    rw [sortedKeys_sizeWeights] at hrepo
    rw [exactShare_sizeWeights hrows, capacityOf_sizeWeights]
    have hlength : ∀ other ∈ groups.keys, (0 : ℤ) < ((groups.getD other []).length : ℤ) :=
      fun other hother => Nat.cast_pos.mpr (List.length_pos_iff.mpr (hrows other hother))
    exact proportion_le hlength (by omega) hle (Dict.mem_sortedKeys.mp hrepo)

end Groups

/-- **Rounds and one pass** give one more row to the same repositories. -/
theorem exists_oneMore (hrows : ∀ repo ∈ groups.keys, groups.getD repo [] ≠ [])
    (hnodup : groups.keys.Nodup) {size : ℤ} (hsize : 0 ≤ size) (hle : size ≤ totalRows groups) :
    ∃ quotas : String → ℤ,
      repoQuotas K groups size = .ok (Dict.ofKeys groups.keys quotas) ∧
      pilotQuotas K groups (totalRows groups) size = Dict.ofKeys groups.keys quotas ∧
      Extra groups.keys (proportion K (fun repo => (groups.getD repo []).length) size
        (totalRows groups)) 0 quotas := by
  have hlength : ∀ repo ∈ groups.keys, (0 : ℤ) < ((groups.getD repo []).length : ℤ) :=
    fun repo hrepo => Nat.cast_pos.mpr (List.length_pos_iff.mpr (hrows repo hrepo))
  obtain ⟨n, hn, hcount, hroom, hextra⟩ := exists_first_units (K := K) hnodup hlength hsize hle
  have horder : (remainderOrder K groups.keys (fun repo => (groups.getD repo []).length) size
      (groups.keys.map fun repo => ((groups.getD repo []).length : ℤ)).sum).Nodup :=
    nodup_sortBy.mpr hnodup
  have hallocate := allocate_of_room _ horder hcount hroom
  have honce := giveOnce_of_room _ horder hcount hroom
  rw [← allocateRemaining_natCast, ← hn] at hallocate
  rw [← hn] at honce
  have hchecks : ¬ (size < 0 ∨
      size > (groups.keys.map fun repo => ((groups.getD repo []).length : ℤ)).sum) := by
    rw [totalRows] at hle
    omega
  have hrounds : quotasOf K groups.keys (fun repo => (groups.getD repo []).length) size =
      .ok (oneMore K groups.keys (fun repo => (groups.getD repo []).length) size
        (totalRows groups) n) := quotasOf_eq_ok K hchecks rfl rfl hallocate
  refine ⟨oneMore K groups.keys (fun repo => (groups.getD repo []).length) size
    (totalRows groups) n, ?_, ?_, hextra⟩
  · rw [repoQuotas, hrounds]
    rfl
  · exact congrArg (Dict.ofKeys groups.keys) honce

/-- **The three allocators agree**: `_repo_quotas`, the quota loop of `_select_verified` and
`largest_remainder_quotas` return the same quota for every repository. -/
theorem quotas_agree (K : Type) [Field K] [LinearOrder K] [IsStrictOrderedRing K] [FloorRing K]
    (groups : Dict (List α)) (hnodup : groups.keys.Nodup)
    (hrows : ∀ repo ∈ groups.keys, groups.getD repo [] ≠ []) (size : ℤ) (hsize : 1 ≤ size)
    (hle : size ≤ totalRows groups) :
    ∃ quotas : String → ℤ,
      repoQuotas K groups size = .ok (Dict.ofKeys groups.keys quotas) ∧
      pilotQuotas K groups (totalRows groups) size = Dict.ofKeys groups.keys quotas ∧
      largestRemainderQuotas (sizeWeights K groups) size (some (groupSizes groups)) =
        .ok (Dict.ofKeys groups.sortedKeys quotas) := by
  obtain ⟨quotas, hrounds, honce, hextra⟩ := exists_oneMore (K := K) hrows hnodup (by omega) hle
  obtain ⟨filled, hfilled, hextra'⟩ := largestRemainderQuotas_groups (K := K) hrows hnodup hsize hle
  refine ⟨quotas, hrounds, honce, ?_⟩
  rw [hfilled]
  refine congrArg Except.ok (List.map_congr_left fun repo hrepo => ?_)
  rw [hextra'.unique hextra repo (Dict.mem_sortedKeys.mp hrepo)]

/-- Three rows of one repository and one of another. -/
theorem exists_quotas_agree : ∃ quotas : String → ℤ,
    repoQuotas ℚ [("pandas", [0, 1, 2]), ("numpy", [3])] 2 =
      .ok (Dict.ofKeys ["pandas", "numpy"] quotas) ∧
    pilotQuotas ℚ [("pandas", [0, 1, 2]), ("numpy", [3])] 4 2 =
      Dict.ofKeys ["pandas", "numpy"] quotas ∧
    largestRemainderQuotas (sizeWeights ℚ [("pandas", [0, 1, 2]), ("numpy", [3])]) 2
        (some (groupSizes [("pandas", [0, 1, 2]), ("numpy", [3])])) =
      .ok (Dict.ofKeys ["numpy", "pandas"] quotas) :=
  quotas_agree ℚ [("pandas", [0, 1, 2]), ("numpy", [3])] (by decide) (by decide) 2 (by decide)
    (by decide)

/-- **The pilot has the quotas of `_repo_quotas`.** -/
theorem repoQuotas_groupBy (key : α → String) (rows : List α) {size : ℤ} (hsize : 0 ≤ size)
    (hle : size ≤ rows.length) :
    repoQuotas K (groupBy key rows) size =
      .ok (pilotQuotas K (groupBy key rows) rows.length size) := by
  have hrows : ∀ repo ∈ (groupBy key rows).keys, (groupBy key rows).getD repo [] ≠ [] :=
    fun repo hrepo => List.length_pos_iff.mp (length_groupBy_pos hrepo)
  obtain ⟨quotas, hrounds, honce, -⟩ := exists_oneMore (K := K) hrows
    (nodup_keys_groupBy key rows) hsize (by rwa [totalRows, sum_groupLengths])
  rw [hrounds, ← sum_groupLengths key rows, ← totalRows, honce]

end Allocators

end Selection
