import CodingOpd.Selection.Bins

/-!
# Nested pools

`build_nested_r2e_subsets` allots two sizes to the repositories of a pool and, within a repository,
to its complexity bins. The quotas of the small tier are found under the quotas of the large one,
and a tier takes the first tasks of every bin in the order of their ranks.

## Main definitions

* `planRepo`, `Tiers.add`: a round of the loop over the repositories
* `materialize`: the rows of a tier
* `buildNestedR2eSubsets`: `build_nested_r2e_subsets`

## Main results

* `buildNestedR2eSubsets_eq_ok`: the runs in which no check fails
* `planRepo_spec`: the bins and the quotas of a repository
* `foldlM_addRepo_eq`: the loop over the repositories, where every one of them is planned
-/

open Python RankedSort Apportionment

namespace Selection

variable {V K ρ : Type} [Field K] [LinearOrder K] [IsStrictOrderedRing K] [FloorRing K]
variable [LinearOrder ρ]
variable (arithmetic : Arithmetic K) (sha256 : String → ρ)

/-- A value for each of the two tiers. -/
structure Tiered (α : Type) where
  r2eTrain128 : α
  r2eTrain512 : α
  deriving DecidableEq

/-- The metadata of the pools. -/
structure Metadata (K : Type) where
  sourcePoolCount : ℕ
  sourceRepoCounts : Dict ℤ
  repoTemperatureAlpha : K
  repoQuotas : Tiered (Dict ℤ)
  stratumQuotas : Dict (Dict ℤ)
  complexityBinByTaskId : Dict ℕ
  deriving DecidableEq

/-- `strata[index]`: the ids of a bin. -/
def stratum (repoBins : Dict ℕ) (index : ℕ) : List String :=
  (repoBins.filter fun item => item.2 = index).map Prod.fst

/-- `bin_sizes` -/
def binSizes (repoBins : Dict ℕ) : Dict ℤ :=
  (List.range 4).map fun index => (toString index, ((stratum repoBins index).length : ℤ))

/-- The sizes of the bins, as the weights of their keys. -/
def binWeights (repoBins : Dict ℕ) : Dict K :=
  (binSizes repoBins).mapValues fun size : ℤ => (size : K)

/-- What a round of the loop finds for a repository. -/
structure RepoPlan where
  repoBins : Dict ℕ
  largeBinQuotas : Dict ℤ
  smallBinQuotas : Dict ℤ

/-- The bins of a repository and the quotas of the bins. -/
def planRepo (repoRows : List (Row V)) (largeRepoQuota smallRepoQuota seed : ℤ) :
    Except PyError RepoPlan := do
  let repoBins ← complexityBins arithmetic sha256 repoRows seed
  let largeBinQuotas ← largestRemainderQuotas (binWeights repoBins : Dict K) largeRepoQuota
    (some (binSizes repoBins))
  let smallBinQuotas ← largestRemainderQuotas (binWeights repoBins : Dict K) smallRepoQuota
    (some largeBinQuotas)
  return { repoBins, largeBinQuotas, smallBinQuotas }

/-- `stratum_quotas[repo]` -/
def RepoPlan.stratumQuotas (plan : RepoPlan) : Dict ℤ :=
  Dict.update
    ((List.range 4).map fun index =>
      ("q128_bin_" ++ toString index, plan.smallBinQuotas.getD (toString index) 0))
    ((List.range 4).map fun index =>
      ("q512_bin_" ++ toString index, plan.largeBinQuotas.getD (toString index) 0))

/-- The ids that the inner loop selects under the quotas of a tier. -/
def selected (seed : ℤ) (repoBins : Dict ℕ) (binQuotas : Dict ℤ) : List String :=
  (List.range 4).flatMap fun index =>
    slice (sortBy (stableRank sha256 seed "r2e-task") (stratum repoBins index))
      (binQuotas.getD (toString index) 0)

/-- The variables of the loop over the repositories. -/
structure Tiers where
  binById : Dict ℕ
  smallIds : Finset String
  largeIds : Finset String
  stratumQuotas : Dict (Dict ℤ)

/-- The variables before the loop. -/
def Tiers.empty : Tiers := ⟨[], ∅, ∅, []⟩

/-- The variables after a round. -/
def Tiers.add (seed : ℤ) (tiers : Tiers) (repo : String) (plan : RepoPlan) : Tiers where
  binById := tiers.binById.update plan.repoBins
  smallIds := tiers.smallIds ∪ (selected sha256 seed plan.repoBins plan.smallBinQuotas).toFinset
  largeIds := tiers.largeIds ∪ (selected sha256 seed plan.repoBins plan.largeBinQuotas).toFinset
  stratumQuotas := tiers.stratumQuotas.setItem repo plan.stratumQuotas

/-- A round of the loop over the repositories. -/
def addRepo (groups : Dict (List (Row V))) (largeRepoQuotas smallRepoQuotas : Dict ℤ) (seed : ℤ)
    (tiers : Tiers) (repo : String) : Except PyError Tiers := do
  let plan ← planRepo arithmetic sha256 (groups.getD repo []) (largeRepoQuotas.getD repo 0)
    (smallRepoQuotas.getD repo 0) seed
  return tiers.add sha256 seed repo plan

/-- `materialize`. The set is iterated in an order of its own. -/
def materialize (order : String → SetOrder) (seed : ℤ) (rowById : Dict (Row V))
    (ids : Finset String) (label : String) : Except PyError (List (Row V)) :=
  (sortBy (stableRank sha256 seed (label ++ ":order")) ((order label).list ids)).mapM fun uid =>
    key uid (rowById.lookup uid)

/-- A row with every complexity field. -/
def Row.HasComplexity (row : Row V) : Prop :=
  ∀ field ∈ ComplexityField.all, (row.complexity field).isSome

instance (row : Row V) : Decidable row.HasComplexity :=
  inferInstanceAs (Decidable (∀ field ∈ ComplexityField.all, _))

/-- The rows of a pool by their repository: `groups`. -/
abbrev groupsOf (pool : List (Row V)) : Dict (List (Row V)) := groupBy Row.repoName pool

/-- `repo_sizes` -/
abbrev repoSizesOf (pool : List (Row V)) : Dict ℤ := groupSizes (groupsOf pool)

/-- `metadata` -/
def nestedMetadata (pool : List (Row V)) (repoTemperature : K)
    (largeRepoQuotas smallRepoQuotas : Dict ℤ) (tiers : Tiers) : Metadata K where
  sourcePoolCount := pool.length
  sourceRepoCounts := (repoSizesOf pool).sortItems
  repoTemperatureAlpha := repoTemperature
  repoQuotas := ⟨smallRepoQuotas.sortItems, largeRepoQuotas.sortItems⟩
  stratumQuotas := tiers.stratumQuotas
  complexityBinByTaskId := tiers.binById

/-- `build_nested_r2e_subsets` -/
def buildNestedR2eSubsets (order : String → SetOrder) (rows : List (RawRow V))
    (smallSize largeSize seed : ℤ) (repoTemperature : K) :
    Except PyError (Tiered (List (Row V)) × Metadata K) := do
  let pool ← validateSourceRows rows
  raiseUnless (0 < smallSize ∧ smallSize ≤ largeSize ∧ largeSize ≤ pool.length)
    (.valueError "expected 0 < small_size <= large_size <= pool")
  raiseUnless (∀ row ∈ pool, row.HasComplexity)
    (.valueError "R2E row is missing complexity fields")
  let largeRepoQuotas ← temperatureRepoQuotas arithmetic (repoSizesOf pool) largeSize
    repoTemperature none
  let smallRepoQuotas ← temperatureRepoQuotas arithmetic (repoSizesOf pool) smallSize
    repoTemperature (some largeRepoQuotas)
  let rowById := Dict.update [] (pool.map fun row => (row.taskId, row))
  let tiers ← (groupsOf pool).sortedKeys.foldlM
    (addRepo arithmetic sha256 (groupsOf pool) largeRepoQuotas smallRepoQuotas seed) Tiers.empty
  raiseUnless (tiers.smallIds.card = smallSize ∧ tiers.largeIds.card = largeSize)
    (.assertionError "R2E tier sizes do not match requested sizes")
  raiseUnless (tiers.smallIds ⊆ tiers.largeIds)
    (.assertionError "small R2E tier is not nested in large tier")
  let r2eTrain128 ← materialize sha256 order seed rowById tiers.smallIds "r2e128"
  let r2eTrain512 ← materialize sha256 order seed rowById tiers.largeIds "r2e512"
  return ({ r2eTrain128, r2eTrain512 },
    nestedMetadata pool repoTemperature largeRepoQuotas smallRepoQuotas tiers)

/-- The variables of a run of `build_nested_r2e_subsets` in which no check fails. -/
structure NestedRun (order : String → SetOrder) (rows : List (RawRow V))
    (smallSize largeSize seed : ℤ) (repoTemperature : K) (pool : List (Row V))
    (largeRepoQuotas smallRepoQuotas : Dict ℤ) (tiers : Tiers) (subsets : Tiered (List (Row V))) :
    Prop where
  pool_eq : validateSourceRows rows = .ok pool
  sizes : 0 < smallSize ∧ smallSize ≤ largeSize ∧ largeSize ≤ pool.length
  hasComplexity : ∀ row ∈ pool, row.HasComplexity
  large_eq : temperatureRepoQuotas arithmetic (repoSizesOf pool) largeSize repoTemperature none =
    .ok largeRepoQuotas
  small_eq : temperatureRepoQuotas arithmetic (repoSizesOf pool) smallSize repoTemperature
    (some largeRepoQuotas) = .ok smallRepoQuotas
  tiers_eq : (groupsOf pool).sortedKeys.foldlM
    (addRepo arithmetic sha256 (groupsOf pool) largeRepoQuotas smallRepoQuotas seed) Tiers.empty =
    .ok tiers
  card_eq : tiers.smallIds.card = smallSize ∧ tiers.largeIds.card = largeSize
  nested : tiers.smallIds ⊆ tiers.largeIds
  small_rows : materialize sha256 order seed
    (Dict.update [] (pool.map fun row => (row.taskId, row))) tiers.smallIds "r2e128" =
    .ok subsets.r2eTrain128
  large_rows : materialize sha256 order seed
    (Dict.update [] (pool.map fun row => (row.taskId, row))) tiers.largeIds "r2e512" =
    .ok subsets.r2eTrain512

variable {arithmetic sha256} in
omit [IsStrictOrderedRing K] in
/-- **The pools are built** in a run in which no check fails. -/
theorem buildNestedR2eSubsets_eq_ok {order : String → SetOrder} {rows : List (RawRow V)}
    {smallSize largeSize seed : ℤ} {repoTemperature : K}
    {result : Tiered (List (Row V)) × Metadata K} :
    buildNestedR2eSubsets arithmetic sha256 order rows smallSize largeSize seed repoTemperature =
        .ok result ↔
      ∃ pool largeRepoQuotas smallRepoQuotas tiers, NestedRun arithmetic sha256 order rows
        smallSize largeSize seed repoTemperature pool largeRepoQuotas smallRepoQuotas tiers
        result.1 ∧
        result.2 = nestedMetadata pool repoTemperature largeRepoQuotas smallRepoQuotas tiers := by
  unfold buildNestedR2eSubsets
  constructor
  · intro h
    obtain ⟨pool, hpool, h⟩ := bind_eq_ok.mp h
    obtain ⟨hsizes, h⟩ := raiseUnless_bind_eq_ok.mp h
    obtain ⟨hcomplexity, h⟩ := raiseUnless_bind_eq_ok.mp h
    obtain ⟨large, hlarge, h⟩ := bind_eq_ok.mp h
    obtain ⟨small, hsmall, h⟩ := bind_eq_ok.mp h
    obtain ⟨tiers, htiers, h⟩ := bind_eq_ok.mp h
    obtain ⟨hcard, h⟩ := raiseUnless_bind_eq_ok.mp h
    obtain ⟨hnested, h⟩ := raiseUnless_bind_eq_ok.mp h
    obtain ⟨smallRows, hsmallRows, h⟩ := bind_eq_ok.mp h
    obtain ⟨largeRows, hlargeRows, h⟩ := bind_eq_ok.mp h
    cases h
    exact ⟨pool, large, small, tiers, ⟨hpool, hsizes, hcomplexity, hlarge, hsmall, htiers, hcard,
      hnested, hsmallRows, hlargeRows⟩, rfl⟩
  · rintro ⟨pool, large, small, tiers, hrun, hmetadata⟩
    rw [hrun.pool_eq, ok_bind, raiseUnless_bind_eq_ok]
    refine ⟨hrun.sizes, ?_⟩
    rw [raiseUnless_bind_eq_ok]
    refine ⟨hrun.hasComplexity, ?_⟩
    rw [hrun.large_eq, ok_bind, hrun.small_eq, ok_bind]
    dsimp only
    rw [hrun.tiers_eq, ok_bind, raiseUnless_bind_eq_ok]
    refine ⟨hrun.card_eq, ?_⟩
    rw [raiseUnless_bind_eq_ok]
    refine ⟨hrun.nested, ?_⟩
    rw [hrun.small_rows, ok_bind, hrun.large_rows, ok_bind, ← hmetadata]
    rfl

/-! ## The plan of a repository -/

/-- The keys of the bins. -/
def binKeys : List String := (List.range 4).map toString

theorem nodup_binKeys : binKeys.Nodup := by decide

theorem mem_binKeys {index : ℕ} (hindex : index < 4) : toString index ∈ binKeys :=
  List.mem_map_of_mem (List.mem_range.mpr hindex)

theorem keys_binSizes (repoBins : Dict ℕ) : (binSizes repoBins).keys = binKeys := by
  rw [Dict.keys, binSizes, List.map_map]
  rfl

theorem sortedKeys_binSizes (repoBins : Dict ℕ) : (binSizes repoBins).sortedKeys = binKeys := by
  have hsorted : sortBy id binKeys = binKeys := by decide
  rw [Dict.sortedKeys, keys_binSizes, hsorted]

theorem getD_binSizes (repoBins : Dict ℕ) {index : ℕ} (hindex : index < 4) :
    (binSizes repoBins).getD (toString index) 0 = (stratum repoBins index).length := by
  have hnodup : (binSizes repoBins).keys.Nodup := keys_binSizes repoBins ▸ nodup_binKeys
  have hmem : (toString index, ((stratum repoBins index).length : ℤ)) ∈ binSizes repoBins :=
    List.mem_map_of_mem (List.mem_range.mpr hindex)
  rw [Dict.getD, (Dict.lookup_eq_some_iff hnodup).mpr hmem, Option.getD_some]

/-- The sum over the keys of the bins, as a sum over the bins. -/
theorem sum_binKeys (f : String → ℤ) :
    (binKeys.map f).sum = ∑ index ∈ Finset.range 4, f (toString index) := by
  rw [binKeys, List.map_map]
  rfl

theorem mem_stratum {repoBins : Dict ℕ} {index : ℕ} {uid : String} :
    uid ∈ stratum repoBins index ↔ (uid, index) ∈ repoBins := by
  simp [stratum]

theorem length_stratum_cons (item : String × ℕ) (repoBins : Dict ℕ) (index : ℕ) :
    (stratum (item :: repoBins) index).length =
      (stratum repoBins index).length + if item.2 = index then 1 else 0 := by
  unfold stratum
  by_cases h : item.2 = index
  · simp [h]
  · simp [h]

/-- The bins share the tasks out. -/
theorem sum_length_stratum {repoBins : Dict ℕ} (hlt : ∀ item ∈ repoBins, item.2 < 4) :
    ∑ index ∈ Finset.range 4, (stratum repoBins index).length = repoBins.length := by
  induction repoBins with
  | nil => rfl
  | cons item repoBins ih =>
    obtain ⟨hitem, hlt⟩ := List.forall_mem_cons.mp hlt
    simp only [length_stratum_cons]
    rw [Finset.sum_add_distrib, ih hlt, Finset.sum_ite_eq, if_pos (Finset.mem_range.mpr hitem),
      List.length_cons]

/-- The reported quotas of a bin. -/
theorem RepoPlan.lookup_stratumQuotas (plan : RepoPlan) {index : ℕ} (hindex : index < 4) :
    plan.stratumQuotas.lookup ("q128_bin_" ++ toString index) =
        some (plan.smallBinQuotas.getD (toString index) 0) ∧
      plan.stratumQuotas.lookup ("q512_bin_" ++ toString index) =
        some (plan.largeBinQuotas.getD (toString index) 0) := by
  set small := (List.range 4).map fun index =>
    ("q128_bin_" ++ toString index, plan.smallBinQuotas.getD (toString index) 0) with hsmall
  set large := (List.range 4).map fun index =>
    ("q512_bin_" ++ toString index, plan.largeBinQuotas.getD (toString index) 0) with hlarge
  have hkeys : (Dict.keys small ++ Dict.keys large).Nodup := by
    have hnames : (((List.range 4).map fun index => "q128_bin_" ++ toString index) ++
        (List.range 4).map fun index => "q512_bin_" ++ toString index).Nodup := by decide
    rw [Dict.keys, Dict.keys, hsmall, hlarge, List.map_map, List.map_map]
    exact hnames
  have happend : plan.stratumQuotas = small ++ large := Dict.update_eq_append hkeys
  have hnodup : Dict.keys (small ++ large) |>.Nodup := by
    rw [Dict.keys, List.map_append]
    exact hkeys
  have hmem := List.mem_range.mpr hindex
  rw [happend, Dict.lookup_eq_some_iff hnodup, Dict.lookup_eq_some_iff hnodup]
  exact ⟨List.mem_append_left _ (List.mem_map_of_mem hmem),
    List.mem_append_right _ (List.mem_map_of_mem hmem)⟩

/-- The sizes of the bins add up to the number of tasks. -/
theorem sum_binSizes {repoBins : Dict ℕ} (hlt : ∀ item ∈ repoBins, item.2 < 4) :
    (binKeys.map fun key => (binSizes repoBins).getD key 0).sum = repoBins.length := by
  rw [sum_binKeys, ← sum_length_stratum hlt, Nat.cast_sum]
  apply Finset.sum_congr rfl
  intro index hindex
  exact getD_binSizes repoBins (Finset.mem_range.mp hindex)

theorem binSizes_nonneg (repoBins : Dict ℕ) :
    ∀ key ∈ binKeys, 0 ≤ (binSizes repoBins).getD key 0 := by
  intro key hkey
  obtain ⟨index, hindex, rfl⟩ := List.mem_map.mp hkey
  rw [getD_binSizes repoBins (List.mem_range.mp hindex)]
  exact Int.natCast_nonneg _

section Weights

variable {F : Type} [Field F] (repoBins : Dict ℕ)

theorem keys_binWeights : (binWeights repoBins : Dict F).keys = binKeys := by
  rw [binWeights, Dict.keys_mapValues, keys_binSizes]

theorem sortedKeys_binWeights : (binWeights repoBins : Dict F).sortedKeys = binKeys := by
  rw [binWeights, Dict.sortedKeys_mapValues, sortedKeys_binSizes]

theorem getD_binWeights (key : String) :
    (binWeights repoBins : Dict F).getD key 0 = ((binSizes repoBins).getD key 0 : ℤ) := by
  rw [← Dict.getD_mapValues (fun size : ℤ => (size : F)), Int.cast_zero, binWeights]

end Weights

/-- Quotas of the bins are found under capacities that no bin's size is below. -/
theorem binQuotas_spec (repoBins : Dict ℕ) {capacities : Dict ℤ} {total : ℤ}
    (hkeys : capacities.keys = binKeys) (hnonneg : ∀ key ∈ binKeys, 0 ≤ capacities.getD key 0)
    (hle : ∀ key ∈ binKeys, capacities.getD key 0 ≤ (binSizes repoBins).getD key 0)
    (htotal : 0 ≤ total) (hsum : total ≤ (binKeys.map fun key => capacities.getD key 0).sum) :
    ∃ quotas, largestRemainderQuotas (binWeights repoBins : Dict K) total (some capacities) =
        .ok quotas ∧ Allots binKeys (fun key => capacities.getD key 0) total quotas := by
  have hspec := largestRemainderQuotas_spec (binWeights repoBins : Dict K) total capacities
  rw [keys_binWeights, sortedKeys_binWeights] at hspec
  have hne : (binWeights repoBins : Dict K) ≠ [] := List.cons_ne_nil _ _
  refine hspec nodup_binKeys hne (by rw [hkeys]) ?_ hnonneg ?_ htotal hsum
  · intro key hkey
    rw [getD_binWeights]
    exact Int.cast_nonneg (binSizes_nonneg repoBins key hkey)
  · -- a bin with a capacity is not empty, so that it has a weight
    intro key hkey hpos
    rw [getD_binWeights]
    exact Int.cast_pos.mpr (hpos.trans_le (hle key hkey))

/-- The plan of a repository bins its rows and allots its quotas to the bins. -/
structure RepoPlan.Fits (plan : RepoPlan) (repoRows : List (Row V))
    (largeRepoQuota smallRepoQuota : ℤ) : Prop where
  keys_perm : plan.repoBins.keys.Perm (repoRows.map Row.taskId)
  lt : ∀ item ∈ plan.repoBins, item.2 < 4
  large : Allots binKeys (fun key => (binSizes plan.repoBins).getD key 0) largeRepoQuota
    plan.largeBinQuotas
  small : Allots binKeys (fun key => plan.largeBinQuotas.getD key 0) smallRepoQuota
    plan.smallBinQuotas

variable {arithmetic sha256}

/-- **The plan of a repository** is found for quotas that its rows allow. -/
theorem planRepo_spec {repoRows : List (Row V)} (hnumeric : ∀ row ∈ repoRows, row.Numeric)
    (hids : (repoRows.map Row.taskId).Nodup) {largeRepoQuota smallRepoQuota : ℤ}
    (hsmall : 0 ≤ smallRepoQuota) (hle : smallRepoQuota ≤ largeRepoQuota)
    (hlarge : largeRepoQuota ≤ repoRows.length) (seed : ℤ) :
    ∃ plan, planRepo arithmetic sha256 repoRows largeRepoQuota smallRepoQuota seed = .ok plan ∧
      plan.Fits repoRows largeRepoQuota smallRepoQuota := by
  obtain ⟨repoBins, hbins, hperm, hlt⟩ :=
    complexityBins_spec arithmetic sha256 hnumeric hids seed
  have hlength : (repoBins.length : ℤ) = repoRows.length := by
    have hlength := hperm.length_eq
    rw [Dict.keys, List.length_map, List.length_map] at hlength
    rw [hlength]
  obtain ⟨largeBinQuotas, hlargeOk, hlargeAllots⟩ := binQuotas_spec (K := K) repoBins
    (keys_binSizes repoBins) (binSizes_nonneg repoBins) (fun _ _ => le_rfl) (hsmall.trans hle)
    (by rwa [sum_binSizes hlt, hlength])
  -- the quotas of the large tier are the capacities of the small one
  obtain ⟨smallBinQuotas, hsmallOk, hsmallAllots⟩ := binQuotas_spec (K := K) repoBins
    hlargeAllots.keys_eq hlargeAllots.nonneg hlargeAllots.le_capacity hsmall
    (by rwa [hlargeAllots.sum_eq])
  refine ⟨⟨repoBins, largeBinQuotas, smallBinQuotas⟩, ?_, hperm, hlt, hlargeAllots, hsmallAllots⟩
  rw [planRepo, hbins, ok_bind, hlargeOk, ok_bind, hsmallOk]
  rfl

/-! ## The loop over the repositories -/

variable (sha256) in
/-- The variables after the loop, from the plans of the repositories. -/
def Tiers.ofPlans (seed : ℤ) (plan : String → RepoPlan) (repos : List String) : Tiers where
  binById := repos.flatMap fun repo => (plan repo).repoBins
  smallIds := (repos.flatMap fun repo =>
    selected sha256 seed (plan repo).repoBins (plan repo).smallBinQuotas).toFinset
  largeIds := (repos.flatMap fun repo =>
    selected sha256 seed (plan repo).repoBins (plan repo).largeBinQuotas).toFinset
  stratumQuotas := repos.map fun repo => (repo, (plan repo).stratumQuotas)

theorem keys_flatMap {ν : Type} (repos : List String) (d : String → Dict ν) :
    Dict.keys (repos.flatMap d) = repos.flatMap fun repo => (d repo).keys :=
  List.map_flatMap

/-- A round after the plans of other repositories. -/
theorem Tiers.ofPlans_append_singleton (seed : ℤ) (plan : String → RepoPlan)
    {repos : List String} {repo : String} (hrepos : (repos ++ [repo]).Nodup)
    (hids : ((repos ++ [repo]).flatMap fun repo => (plan repo).repoBins.keys).Nodup) :
    (Tiers.ofPlans sha256 seed plan repos).add sha256 seed repo (plan repo) =
      Tiers.ofPlans sha256 seed plan (repos ++ [repo]) := by
  have hnew : repo ∉ Dict.keys (repos.map fun repo => (repo, (plan repo).stratumQuotas)) := by
    rw [Dict.keys, List.map_map]
    show repo ∉ repos.map id
    rw [List.map_id]
    exact fun hmem => List.disjoint_of_nodup_append hrepos hmem (List.mem_singleton_self repo)
  rw [List.flatMap_append, ← keys_flatMap, List.flatMap_singleton] at hids
  unfold Tiers.ofPlans Tiers.add
  dsimp only
  rw [Dict.update_eq_append hids, Dict.setItem_of_notMem hnew]
  simp only [List.flatMap_append, List.flatMap_singleton, List.toFinset_append, List.map_append,
    List.map_singleton]

theorem foldl_add_eq_ofPlans (seed : ℤ) (plan : String → RepoPlan) {repos : List String}
    (hrepos : repos.Nodup) (hids : (repos.flatMap fun repo => (plan repo).repoBins.keys).Nodup) :
    repos.foldl (fun tiers repo => tiers.add sha256 seed repo (plan repo)) Tiers.empty =
      Tiers.ofPlans sha256 seed plan repos := by
  induction repos using List.reverseRecOn with
  | nil => rfl
  | append_singleton repos repo ih =>
    have hids' := hids
    rw [List.flatMap_append] at hids'
    rw [List.foldl_append, ih hrepos.of_append_left hids'.of_append_left]
    exact Tiers.ofPlans_append_singleton seed plan hrepos hids

omit [IsStrictOrderedRing K] in
/-- **The loop over the repositories**, where every one of them is planned. -/
theorem foldlM_addRepo_eq {groups : Dict (List (Row V))} {largeRepoQuotas smallRepoQuotas : Dict ℤ}
    {seed : ℤ} {plan : String → RepoPlan} {repos : List String} (hrepos : repos.Nodup)
    (hids : (repos.flatMap fun repo => (plan repo).repoBins.keys).Nodup)
    (hplan : ∀ repo ∈ repos, planRepo arithmetic sha256 (groups.getD repo [])
      (largeRepoQuotas.getD repo 0) (smallRepoQuotas.getD repo 0) seed = .ok (plan repo)) :
    repos.foldlM (addRepo arithmetic sha256 groups largeRepoQuotas smallRepoQuotas seed)
      Tiers.empty = .ok (Tiers.ofPlans sha256 seed plan repos) := by
  rw [← foldl_add_eq_ofPlans seed plan hrepos hids]
  apply foldlM_eq_ok_foldl
  intro tiers repo hrepo
  rw [addRepo, hplan repo hrepo]
  rfl

end Selection
