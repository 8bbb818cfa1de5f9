import CodingOpd.Selection.Tiers

/-!
# The nested pools are exact

Whatever rows `validate_source_rows` accepts, where their complexity fields are numeric, the two
nested pools are found for any sizes that the source allows, and both meet their quotas.

## Main definitions

* `Selectable`: a pool of distinct tasks with numeric complexity fields

## Main results

* `exists_plans`: quotas of the repositories, and a plan of every repository under them
* `buildNestedR2eSubsets_exact`: the pools are found and meet the quotas
-/

open Python RankedSort

namespace Selection

variable {V K ρ : Type} [Field K] [LinearOrder K] [IsStrictOrderedRing K] [FloorRing K]
variable [LinearOrder ρ]

/-! ## The repositories of a pool -/

section Groups

variable (pool : List (Row V))

theorem mem_repos {repo : String} :
    repo ∈ (groupsOf pool).sortedKeys ↔ repo ∈ pool.map Row.repoName := by
  rw [Dict.mem_sortedKeys, mem_keys_groupBy]

theorem nodup_repos : (groupsOf pool).sortedKeys.Nodup :=
  Dict.nodup_sortedKeys.mpr (nodup_keys_groupBy Row.repoName pool)

theorem getD_repoSizes (repo : String) :
    (repoSizesOf pool).getD repo 0 = (pool.filter fun row => row.repoName = repo).length := by
  rw [getD_groupSizes, getD_groupBy]

/-- A repository has rows. -/
theorem repoSizes_pos {repo : String} (hrepo : repo ∈ (groupsOf pool).sortedKeys) :
    0 < (repoSizesOf pool).getD repo 0 := by
  rw [getD_groupSizes]
  exact Nat.cast_pos.mpr (length_groupBy_pos (Dict.mem_sortedKeys.mp hrepo))

/-- The repositories share the rows out. -/
theorem sum_repoSizes : ((groupsOf pool).sortedKeys.map fun repo =>
    (repoSizesOf pool).getD repo 0).sum = pool.length := by
  simp only [getD_groupSizes]
  rw [← sum_length_groupBy Row.repoName pool, Nat.cast_list_sum, List.map_map]
  exact ((groupsOf pool).sortedKeys_perm.map _).sum_eq

end Groups

/-! ## Quotas and plans -/

/-- A pool that the loop over its repositories gets through. -/
structure Selectable (pool : List (Row V)) : Prop where
  nodup_ids : (pool.map Row.taskId).Nodup
  numeric : ∀ row ∈ pool, ∀ field, ∃ n, row.complexity field = some (.number n)

namespace Selectable

variable {pool : List (Row V)}

theorem row_numeric (h : Selectable pool) {row : Row V} (hrow : row ∈ pool) : row.Numeric := by
  intro field
  obtain ⟨n, hn⟩ := h.numeric row hrow field
  refine ⟨max 0 n, ?_⟩
  rw [Selection.numeric, hn]

theorem hasComplexity (h : Selectable pool) : ∀ row ∈ pool, row.HasComplexity := by
  intro row hrow field _
  obtain ⟨n, hn⟩ := h.numeric row hrow field
  rw [hn]
  rfl

end Selectable

section Plans

variable {arithmetic : Arithmetic K} {sha256 : String → ρ} {pool : List (Row V)}

variable (arithmetic) in
/-- The quotas of the repositories for a size, under capacities that suffice. -/
theorem exists_repoQuotas (hne : pool ≠ []) {size : ℤ} (hsize : 0 ≤ size) {alpha : K}
    (halpha : 0 ≤ alpha ∧ alpha ≤ 1) (capacities : Dict ℤ)
    (hkeys : capacities.keys.Perm (groupsOf pool).keys)
    (hcapacity : ∀ repo ∈ (groupsOf pool).sortedKeys, 0 ≤ capacities.getD repo 0)
    (hle : size ≤ ((groupsOf pool).sortedKeys.map fun repo => capacities.getD repo 0).sum) :
    ∃ quotas, temperatureRepoQuotas arithmetic (repoSizesOf pool) size alpha (some capacities) =
        .ok quotas ∧
      Allots (groupsOf pool).sortedKeys (fun repo => capacities.getD repo 0) size quotas := by
  have hspec := temperatureRepoQuotas_spec arithmetic (repoSizesOf pool) size alpha capacities
  rw [keys_groupSizes, sortedKeys_groupSizes] at hspec
  refine hspec (nodup_keys_groupBy Row.repoName pool) ?_ ?_ hkeys halpha ?_ hsize hle
  · intro (hnil : groupSizes (groupsOf pool) = [])
    obtain ⟨row, hrow⟩ := List.exists_mem_of_ne_nil pool hne
    have hkey := (mem_repos pool).mpr (List.mem_map_of_mem hrow)
    rw [Dict.mem_sortedKeys, ← keys_groupSizes, hnil] at hkey
    cases hkey
  · exact fun repo hrepo => repoSizes_pos pool (Dict.mem_sortedKeys.mpr hrepo)
  · exact fun repo hrepo => hcapacity repo (Dict.mem_sortedKeys.mpr hrepo)

variable (arithmetic) in
/-- **Quotas of the repositories for both tiers**, the small ones under the large ones. -/
theorem exists_tierQuotas {smallSize largeSize : ℤ} (hsmall : 0 < smallSize)
    (hle : smallSize ≤ largeSize) (hlarge : largeSize ≤ pool.length) {alpha : K}
    (halpha : 0 ≤ alpha ∧ alpha ≤ 1) :
    ∃ large small, temperatureRepoQuotas arithmetic (repoSizesOf pool) largeSize alpha none =
        .ok large ∧
      temperatureRepoQuotas arithmetic (repoSizesOf pool) smallSize alpha (some large) =
        .ok small ∧
      Allots (groupsOf pool).sortedKeys (fun repo => (repoSizesOf pool).getD repo 0) largeSize
        large ∧
      Allots (groupsOf pool).sortedKeys (fun repo => large.getD repo 0) smallSize small := by
  have hne : pool ≠ [] := by
    rintro rfl
    rw [List.length_nil] at hlarge
    omega
  obtain ⟨large, hlargeOk, hlargeAllots⟩ := exists_repoQuotas arithmetic hne
    (hsmall.le.trans hle) halpha (repoSizesOf pool)
    (by rw [keys_groupSizes]) (fun repo hrepo => (repoSizes_pos pool hrepo).le)
    (by rwa [sum_repoSizes])
  obtain ⟨small, hsmallOk, hsmallAllots⟩ := exists_repoQuotas arithmetic hne
    hsmall.le halpha large (by rw [hlargeAllots.keys_eq]; exact (groupsOf pool).sortedKeys_perm)
    hlargeAllots.nonneg (by rwa [hlargeAllots.sum_eq])
  exact ⟨large, small, hlargeOk, hsmallOk, hlargeAllots, hsmallAllots⟩

variable (arithmetic sha256) in
/-- **Every repository is planned** under its quotas. -/
theorem exists_plans (h : Selectable pool) (seed : ℤ) {large small : Dict ℤ}
    {smallSize largeSize : ℤ}
    (hlarge : Allots (groupsOf pool).sortedKeys (fun repo => (repoSizesOf pool).getD repo 0)
      largeSize large)
    (hsmall : Allots (groupsOf pool).sortedKeys (fun repo => large.getD repo 0) smallSize small) :
    ∃ plan : String → RepoPlan, ∀ repo ∈ (groupsOf pool).sortedKeys,
      planRepo arithmetic sha256 ((groupsOf pool).getD repo []) (large.getD repo 0)
        (small.getD repo 0) seed = .ok (plan repo) ∧
      (plan repo).Fits (pool.filter fun row => row.repoName = repo) (large.getD repo 0)
        (small.getD repo 0) := by
  have hplan : ∀ repo ∈ (groupsOf pool).sortedKeys, ∃ plan,
      planRepo arithmetic sha256 ((groupsOf pool).getD repo []) (large.getD repo 0)
        (small.getD repo 0) seed = .ok plan ∧
      plan.Fits (pool.filter fun row => row.repoName = repo) (large.getD repo 0)
        (small.getD repo 0) := by
    intro repo hrepo
    rw [getD_groupBy]
    apply planRepo_spec
    · exact fun row hrow => h.row_numeric (List.mem_of_mem_filter hrow)
    · exact h.nodup_ids.sublist (List.Sublist.map _ List.filter_sublist)
    · exact hsmall.nonneg repo hrepo
    · exact hsmall.le_capacity repo hrepo
    · rw [← getD_repoSizes]
      exact hlarge.le_capacity repo hrepo
  have : Nonempty RepoPlan := ⟨⟨[], [], []⟩⟩
  choose! plan hplan using hplan
  exact ⟨plan, hplan⟩

/-- The planned bins are bins of the pool. -/
theorem binned_of_fits (hids : (pool.map Row.taskId).Nodup) {plan : String → RepoPlan}
    {large small : Dict ℤ} (hfits : ∀ repo ∈ (groupsOf pool).sortedKeys,
      (plan repo).Fits (pool.filter fun row => row.repoName = repo) (large.getD repo 0)
        (small.getD repo 0)) :
    Binned pool (groupsOf pool).sortedKeys fun repo => (plan repo).repoBins where
  nodup_ids := hids
  nodup_repos := nodup_repos pool
  mem_repos _ := mem_repos pool
  keys_perm repo hrepo := (hfits repo hrepo).keys_perm
  lt repo hrepo := (hfits repo hrepo).lt

/-- Quotas under capacities that the bins allow are an allotment to the bins. -/
theorem binAllotment_of_allots {repos : List String} {bins : String → Dict ℕ}
    {quotas : String → Dict ℤ} {repoQuotas : Dict ℤ} (capacity : String → String → ℤ)
    (hallots : ∀ repo ∈ repos,
      Allots binKeys (capacity repo) (repoQuotas.getD repo 0) (quotas repo))
    (hle : ∀ repo ∈ repos, ∀ key ∈ binKeys,
      capacity repo key ≤ (binSizes (bins repo)).getD key 0) :
    BinAllotment repos bins quotas repoQuotas where
  nonneg repo hrepo index hindex := (hallots repo hrepo).nonneg _ (mem_binKeys hindex)
  le_length repo hrepo index hindex := by
    rw [← getD_binSizes (bins repo) hindex]
    exact ((hallots repo hrepo).le_capacity _ (mem_binKeys hindex)).trans
      (hle repo hrepo _ (mem_binKeys hindex))
  sum_eq repo hrepo := by
    rw [← (hallots repo hrepo).sum_eq, sum_binKeys]
    rfl

end Plans

/-! ## The pools -/

/-- **The nested pools are found and exact.** For every table that `validate_source_rows` accepts
with numeric complexity fields, both pools are found, and they hold as many rows of every repository
and of every bin as the metadata report. -/
theorem buildNestedR2eSubsets_exact (arithmetic : Arithmetic K) (sha256 : String → ρ)
    (order : String → SetOrder) {rows : List (RawRow V)} {pool : List (Row V)}
    (hpool : validateSourceRows rows = .ok pool)
    (hnumeric : ∀ row ∈ pool, ∀ field, ∃ n, row.complexity field = some (.number n))
    {smallSize largeSize : ℤ} (hsmall : 0 < smallSize) (hle : smallSize ≤ largeSize)
    (hlarge : largeSize ≤ pool.length) (seed : ℤ) {repoTemperature : K}
    (htemperature : 0 ≤ repoTemperature ∧ repoTemperature ≤ 1) :
    ∃ subsets metadata, buildNestedR2eSubsets arithmetic sha256 order rows smallSize largeSize seed
        repoTemperature = .ok (subsets, metadata) ∧
      ExactTier pool subsets.r2eTrain128 smallSize metadata.repoQuotas.r2eTrain128
        metadata.stratumQuotas (fun index => "q128_bin_" ++ toString index)
        metadata.complexityBinByTaskId ∧
      ExactTier pool subsets.r2eTrain512 largeSize metadata.repoQuotas.r2eTrain512
        metadata.stratumQuotas (fun index => "q512_bin_" ++ toString index)
        metadata.complexityBinByTaskId ∧
      subsets.r2eTrain128 ⊆ subsets.r2eTrain512 ∧
      ∀ row ∈ pool, ∃ index < 4,
        metadata.complexityBinByTaskId.lookup row.taskId = some index := by
  obtain ⟨-, -, hids, -⟩ := validateSourceRows_eq_ok.mp hpool
  have hselectable : Selectable pool := ⟨hids, hnumeric⟩
  obtain ⟨large, small, hlargeOk, hsmallOk, hlargeAllots, hsmallAllots⟩ :=
    exists_tierQuotas arithmetic hsmall hle hlarge htemperature
  obtain ⟨plan, hplan⟩ :=
    exists_plans arithmetic sha256 hselectable seed hlargeAllots hsmallAllots
  have hbins := binned_of_fits hids fun repo hrepo => (hplan repo hrepo).2
  have hlargeBins : BinAllotment (groupsOf pool).sortedKeys (fun repo => (plan repo).repoBins)
      (fun repo => (plan repo).largeBinQuotas) large :=
    binAllotment_of_allots _ (fun repo hrepo => (hplan repo hrepo).2.large) fun _ _ _ _ => le_rfl
  have hsmallBins : BinAllotment (groupsOf pool).sortedKeys (fun repo => (plan repo).repoBins)
      (fun repo => (plan repo).smallBinQuotas) small :=
    binAllotment_of_allots _ (fun repo hrepo => (hplan repo hrepo).2.small)
      fun repo hrepo => (hplan repo hrepo).2.large.le_capacity
  have htiers := foldlM_addRepo_eq (nodup_repos pool) hbins.nodup_keys
    fun repo hrepo => (hplan repo hrepo).1
  set repos := (groupsOf pool).sortedKeys with hrepos
  set tiers := Tiers.ofPlans sha256 seed plan repos
  have hstrata : ∀ repo ∈ repos, tiers.stratumQuotas.lookup repo = some (plan repo).stratumQuotas :=
    fun repo hrepo => Dict.lookup_ofKeys hrepo
  have hlargeKeys : large.keys.Nodup := hlargeAllots.keys_eq ▸ nodup_repos pool
  have hsmallKeys : small.keys.Nodup := hsmallAllots.keys_eq ▸ nodup_repos pool
  have hsmallIds : ∀ uid ∈ tiers.smallIds, uid ∈ pool.map Row.taskId :=
    fun _ huid => mem_of_mem_selectedIds hbins hsmallBins huid
  have hlargeIds : ∀ uid ∈ tiers.largeIds, uid ∈ pool.map Row.taskId :=
    fun _ huid => mem_of_mem_selectedIds hbins hlargeBins huid
  obtain ⟨smallRows, hsmallRows, hsmallNodup, hsmallMem, hsmallSub⟩ :=
    materialize_spec sha256 seed hids order hsmallIds "r2e128"
  obtain ⟨largeRows, hlargeRows, hlargeNodup, hlargeMem, hlargeSub⟩ :=
    materialize_spec sha256 seed hids order hlargeIds "r2e512"
  have hnested : tiers.smallIds ⊆ tiers.largeIds := selectedIds_mono hsmallBins hlargeBins
    fun repo hrepo index hindex => (hplan repo hrepo).2.small.le_capacity _ (mem_binKeys hindex)
  refine ⟨⟨smallRows, largeRows⟩, nestedMetadata pool repoTemperature large small tiers,
    buildNestedR2eSubsets_eq_ok.mpr ⟨pool, large, small, tiers, ?_, rfl⟩, ?_, ?_, ?_, ?_⟩
  · refine ⟨hpool, ⟨hsmall, hle, hlarge⟩, hselectable.hasComplexity, hlargeOk, hsmallOk, htiers,
      ⟨?_, ?_⟩, hnested, ?_, ?_⟩
    · rw [← hsmallAllots.sum_eq]
      exact card_selectedIds sha256 seed hbins hsmallBins
    · rw [← hlargeAllots.sum_eq]
      exact card_selectedIds sha256 seed hbins hlargeBins
    · rw [update_rowsById hids]
      exact hsmallRows
    · rw [update_rowsById hids]
      exact hlargeRows
  · apply exactTier_of_materialize hbins hsmallBins hsmallAllots.sum_eq _
      (Dict.lookup_sortItems hsmallKeys) _ hsmallNodup hsmallMem hsmallSub
    · intro repo hrepo
      exact Dict.lookup_eq_some_getD (hsmallAllots.keys_eq ▸ hrepo) 0
    · intro repo hrepo index hindex
      exact ⟨_, hstrata repo hrepo, ((plan repo).lookup_stratumQuotas hindex).1⟩
  · apply exactTier_of_materialize hbins hlargeBins hlargeAllots.sum_eq _
      (Dict.lookup_sortItems hlargeKeys) _ hlargeNodup hlargeMem hlargeSub
    · intro repo hrepo
      exact Dict.lookup_eq_some_getD (hlargeAllots.keys_eq ▸ hrepo) 0
    · intro repo hrepo index hindex
      exact ⟨_, hstrata repo hrepo, ((plan repo).lookup_stratumQuotas hindex).2⟩
  · -- a row of the small tier is the row of its task
    intro row hrow
    have huid := (hlargeMem row.taskId).mpr
      (hnested ((hsmallMem row.taskId).mp (List.mem_map_of_mem hrow)))
    obtain ⟨other, hother, heq⟩ := List.mem_map.mp huid
    rwa [List.inj_on_of_nodup_map hids (hsmallSub hrow) (hlargeSub hother) heq.symm]
  · exact fun row hrow => hbins.exists_bin hrow

theorem numeric_exampleRows : ∀ row ∈ exampleRows.filterMap RawRow.complete?, ∀ field,
    ∃ n, row.complexity field = some (.number n) := by
  intro row hrow field
  obtain ⟨raw, hraw, hcomplete⟩ := List.mem_filterMap.mp hrow
  simp only [exampleRows, List.mem_cons, List.not_mem_nil, or_false] at hraw
  rcases hraw with rfl | rfl | rfl
  · cases hcomplete
    exact ⟨3, rfl⟩
  · cases hcomplete
    exact ⟨1, rfl⟩
  · cases hcomplete
    exact ⟨8, rfl⟩

/-- Pools of one and of two of the tasks, at the temperature of the source. -/
theorem exists_examplePools : ∃ subsets metadata,
    buildNestedR2eSubsets Arithmetic.real id (fun _ => SetOrder.sorted) exampleRows 1 2 42 (1 / 2) =
        .ok (subsets, metadata) ∧
      (subsets.r2eTrain128.length : ℤ) = 1 ∧ (subsets.r2eTrain512.length : ℤ) = 2 ∧
      subsets.r2eTrain128 ⊆ subsets.r2eTrain512 := by
  have hle : (1 : ℤ) ≤ 2 := by decide
  have hlength : (2 : ℤ) ≤ (exampleRows.filterMap RawRow.complete?).length := by decide
  have htemperature : (0 : ℝ) ≤ 1 / 2 ∧ (1 : ℝ) / 2 ≤ 1 := by norm_num
  obtain ⟨subsets, metadata, hbuild, hsmall, hlarge, hnested, -⟩ :=
    buildNestedR2eSubsets_exact Arithmetic.real id (fun _ => SetOrder.sorted)
      validateSourceRows_exampleRows numeric_exampleRows Int.one_pos hle hlength 42 htemperature
  exact ⟨subsets, metadata, hbuild, hsmall.length_eq, hlarge.length_eq, hnested⟩

end Selection
