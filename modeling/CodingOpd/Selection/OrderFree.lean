import CodingOpd.Selection.Exact
import CodingOpd.Selection.Splits
import CodingOpd.Selection.Verified

/-!
# Selections do not depend on the order of the source

The shards of a source arrive in any order. The nested pools, the quick panel and the splits are the
same for every permutation of the rows, and for every order in which sets are iterated, where ranks
tell the ids apart.

## Main results

* `buildNestedR2eSubsets_perm`: the nested pools and their metadata
* `selections_perm`: all frozen selections
-/

open Python RankedSort

namespace Selection

variable {V K ρ : Type} [Field K] [LinearOrder K] [FloorRing K] [LinearOrder ρ]
variable {arithmetic : Arithmetic K} {sha256 : String → ρ} {seed : ℤ}

/-! ## The nested pools -/

section Nested

variable {pool pool' : List (Row V)}

/-- The plan of a repository does not depend on the order of its rows. -/
theorem planRepo_perm {repoRows repoRows' : List (Row V)} (hperm : repoRows.Perm repoRows')
    (hids : (repoRows.map Row.taskId).Nodup)
    (hrank : Set.InjOn (stableRank sha256 seed "complexity-tie")
      {uid | uid ∈ repoRows.map Row.taskId})
    {largeRepoQuota smallRepoQuota : ℤ} {plan : RepoPlan}
    (h : planRepo arithmetic sha256 repoRows largeRepoQuota smallRepoQuota seed = .ok plan) :
    planRepo arithmetic sha256 repoRows' largeRepoQuota smallRepoQuota seed = .ok plan := by
  obtain ⟨repoBins, hbins, h⟩ := bind_eq_ok.mp h
  rw [planRepo, complexityBins_perm hperm hids hrank hbins]
  exact h

/-- The loop over the repositories does not depend on the order of the rows. -/
theorem foldlM_addRepo_perm (hperm : pool.Perm pool') (hids : (pool.map Row.taskId).Nodup)
    (hrank : Set.InjOn (stableRank sha256 seed "complexity-tie") {uid | uid ∈ pool.map Row.taskId})
    {large small : Dict ℤ} {tiers : Tiers}
    (h : (groupsOf pool).sortedKeys.foldlM
      (addRepo arithmetic sha256 (groupsOf pool) large small seed) Tiers.empty = .ok tiers) :
    (groupsOf pool').sortedKeys.foldlM
      (addRepo arithmetic sha256 (groupsOf pool') large small seed) Tiers.empty = .ok tiers := by
  rw [← Dict.sortedKeys_eq_of_perm (keys_groupBy_perm Row.repoName hperm)]
  apply foldlM_eq_ok_mono _ h
  intro tiers repo _ next hnext
  obtain ⟨plan, hplan, hnext⟩ := bind_eq_ok.mp hnext
  have hgroup : (groupsOf pool).getD repo [] = pool.filter fun row => row.repoName = repo :=
    getD_groupBy Row.repoName pool repo
  have hsub : ((groupsOf pool).getD repo []).map Row.taskId |>.Sublist (pool.map Row.taskId) := by
    rw [hgroup]
    exact List.Sublist.map _ List.filter_sublist
  rw [addRepo, planRepo_perm (getD_groupBy_perm Row.repoName hperm repo) (hids.sublist hsub)
    (hrank.mono fun _ huid => hsub.subset huid) hplan]
  exact hnext

/-- The rows of a tier do not depend on the order of the pool or of the set. -/
theorem materialize_perm (hperm : pool.Perm pool') (hids : (pool.map Row.taskId).Nodup)
    {label : String} (hrank : Set.InjOn (stableRank sha256 seed (label ++ ":order"))
      {uid | uid ∈ pool.map Row.taskId})
    {order order' : String → SetOrder} {ids : Finset String} {tier : List (Row V)}
    (h : materialize sha256 order seed (rowsById pool) ids label = .ok tier) :
    materialize sha256 order' seed (rowsById pool') ids label = .ok tier := by
  have hids' := (hperm.map Row.taskId).nodup_iff.mp hids
  have hlookup : ∀ uid, (rowsById pool').lookup uid = (rowsById pool).lookup uid := by
    intro uid
    apply Option.ext
    intro row
    rw [lookup_rowsById hids', lookup_rowsById hids, hperm.mem_iff]
  have hmem : ∀ uid ∈ (order label).list ids, uid ∈ pool.map Row.taskId := by
    intro uid huid
    obtain ⟨row, hfound⟩ := exists_of_mapM_eq_ok h uid (mem_sortBy.mpr huid)
    obtain ⟨hrow, rfl⟩ := (lookup_rowsById hids).mp (key_eq_ok.mp hfound)
    exact List.mem_map_of_mem hrow
  have hlists : ((order label).list ids).Perm ((order' label).list ids) := by
    apply (List.perm_ext_iff_of_nodup ((order label).nodup ids) ((order' label).nodup ids)).mpr
    intro uid
    rw [(order label).mem, (order' label).mem]
  rw [materialize, ← sortBy_eq_of_perm hlists (hrank.mono hmem)]
  simp only [hlookup]
  exact h

variable (arithmetic) in
/-- The quotas of the repositories do not depend on the order of the rows. -/
theorem temperatureRepoQuotas_perm (hperm : pool.Perm pool') (size : ℤ) (alpha : K)
    (large : Dict ℤ) :
    temperatureRepoQuotas arithmetic (repoSizesOf pool) size alpha none =
        temperatureRepoQuotas arithmetic (repoSizesOf pool') size alpha none ∧
      temperatureRepoQuotas arithmetic (repoSizesOf pool) size alpha (some large) =
        temperatureRepoQuotas arithmetic (repoSizesOf pool') size alpha (some large) := by
  have hkeys : (repoSizesOf pool).keys.Perm (repoSizesOf pool').keys := by
    rw [keys_groupSizes, keys_groupSizes]
    exact keys_groupBy_perm Row.repoName hperm
  have hlookup := lookup_groupSizes_perm Row.repoName hperm
  constructor
  · exact temperatureRepoQuotas_congr arithmetic hkeys hlookup hkeys
      (fun key => by rw [Dict.getD, Dict.getD, hlookup]) size alpha
  · exact temperatureRepoQuotas_congr arithmetic hkeys hlookup (List.Perm.refl _)
      (fun _ => rfl) size alpha

/-- The metadata do not depend on the order of the rows. -/
theorem nestedMetadata_perm {F : Type} (hperm : pool.Perm pool') (alpha : F) (large small : Dict ℤ)
    (tiers : Tiers) :
    nestedMetadata pool alpha large small tiers = nestedMetadata pool' alpha large small tiers := by
  have hnodup : (repoSizesOf pool).keys.Nodup := by
    rw [keys_groupSizes]
    exact nodup_keys_groupBy Row.repoName pool
  have hsizes : (repoSizesOf pool).Perm (repoSizesOf pool') := by
    apply Dict.perm_of_lookup _ hnodup (lookup_groupSizes_perm Row.repoName hperm)
    rw [keys_groupSizes, keys_groupSizes]
    exact keys_groupBy_perm Row.repoName hperm
  rw [nestedMetadata, nestedMetadata, hperm.length_eq, Dict.sortItems_eq_of_perm hsizes hnodup]

/-- **The nested pools and their metadata do not depend on the order of the rows**, nor on the order
in which sets are iterated. -/
theorem buildNestedR2eSubsets_perm {rows rows' : List (RawRow V)} (hperm : rows.Perm rows')
    (hrank : RanksApart sha256 seed ["complexity-tie", "r2e128:order", "r2e512:order"]
      ((rows.filterMap RawRow.complete?).map Row.taskId))
    {order order' : String → SetOrder} {smallSize largeSize : ℤ} {repoTemperature : K}
    {result : Tiered (List (Row V)) × Metadata K}
    (h : buildNestedR2eSubsets arithmetic sha256 order rows smallSize largeSize seed
      repoTemperature = .ok result) :
    buildNestedR2eSubsets arithmetic sha256 order' rows' smallSize largeSize seed
      repoTemperature = .ok result := by
  obtain ⟨pool, large, small, tiers, hrun, hmetadata⟩ := buildNestedR2eSubsets_eq_ok.mp h
  obtain ⟨pool', hpool', hpools⟩ := validateSourceRows_perm hperm hrun.pool_eq
  obtain ⟨-, rfl, hids, -⟩ := validateSourceRows_eq_ok.mp hrun.pool_eq
  have hids' := (hpools.map Row.taskId).nodup_iff.mp hids
  have hquotas := fun size =>
    temperatureRepoQuotas_perm arithmetic hpools size repoTemperature large
  apply buildNestedR2eSubsets_eq_ok.mpr
  refine ⟨pool', large, small, tiers, ?_, ?_⟩
  · exact {
      pool_eq := hpool'
      sizes := by rw [← hpools.length_eq]; exact hrun.sizes
      hasComplexity := fun row hrow => hrun.hasComplexity row (hpools.mem_iff.mpr hrow)
      large_eq := by rw [← (hquotas largeSize).1]; exact hrun.large_eq
      small_eq := by rw [← (hquotas smallSize).2]; exact hrun.small_eq
      tiers_eq := foldlM_addRepo_perm hpools hids (hrank _ (by decide)) hrun.tiers_eq
      card_eq := hrun.card_eq
      nested := hrun.nested
      small_rows := by
        have hrows := hrun.small_rows
        rw [update_rowsById hids] at hrows
        rw [update_rowsById hids']
        exact materialize_perm hpools hids (hrank _ (by decide)) hrows
      large_rows := by
        have hrows := hrun.large_rows
        rw [update_rowsById hids] at hrows
        rw [update_rowsById hids']
        exact materialize_perm hpools hids (hrank _ (by decide)) hrows }
  · rw [hmetadata, nestedMetadata_perm hpools]

end Nested

/-! ## All selections -/

/-- **Frozen selections do not depend on the order of the source.** Whatever the nested pools, the
quick panel and the splits return for some rows, they return for every permutation of them, where
the ranks tell the ids apart that ties and sets are ordered by. -/
theorem selections_perm (arithmetic : Arithmetic K) (sha256 : String → ρ) (seed : ℤ)
    {rows rows' : List (RawRow V)} (hrows : rows.Perm rows')
    (hrank : RanksApart sha256 seed
      ["complexity-tie", "r2e128:order", "r2e512:order", "dev", "train"]
      ((rows.filterMap RawRow.complete?).map Row.taskId))
    {verified verified' : List (RawVerifiedRow V)} (hverified : verified.Perm verified')
    (hrank' : RanksApart sha256 seed ["verified-task"]
      (verified.filterMap RawVerifiedRow.instanceId)) :
    (∀ (order order' : String → SetOrder) (smallSize largeSize : ℤ) (repoTemperature : K) (result),
      buildNestedR2eSubsets arithmetic sha256 order rows smallSize largeSize seed
          repoTemperature = .ok result →
        buildNestedR2eSubsets arithmetic sha256 order' rows' smallSize largeSize seed
          repoTemperature = .ok result) ∧
      (∀ size result, selectVerifiedQuick arithmetic sha256 verified size seed = .ok result →
        selectVerifiedQuick arithmetic sha256 verified' size seed = .ok result) ∧
      ∀ sizes result, buildR2eSplits K sha256 rows sizes seed = .ok result →
        buildR2eSplits K sha256 rows' sizes seed = .ok result := by
  refine ⟨?_, ?_, ?_⟩
  · intro order order' smallSize largeSize repoTemperature result
    exact buildNestedR2eSubsets_perm hrows fun label hlabel =>
      hrank label (List.mem_append_left ["dev", "train"] hlabel)
  · intro size result
    exact selectVerifiedQuick_perm hverified hrank'
  · intro sizes result
    exact buildR2eSplits_perm hrows fun label hlabel =>
      hrank label (List.mem_append_right ["complexity-tie", "r2e128:order", "r2e512:order"] hlabel)

/-- Texts tell ids apart. -/
theorem ranksApart_id (seed : ℤ) (labels uids : List String) : RanksApart id seed labels uids := by
  intro label _ uid _ other _ heq
  exact (String.append_right_inj _).mp heq

/-- Three tasks of two repositories of Verified. -/
def exampleVerified : List (RawVerifiedRow String) :=
  [⟨"django-1", "django", ""⟩, ⟨"sympy-7", "sympy", ""⟩, ⟨"django-3", "django", ""⟩]

/-- The selections from the tasks in the opposite order. -/
theorem selections_reverse :
    selectVerifiedQuick Arithmetic.rational id exampleVerified.reverse 2 42 =
        .ok ([⟨"django-1", "django", ""⟩, ⟨"sympy-7", "sympy", ""⟩],
          [("django", 1), ("sympy", 1)]) ∧
      (∀ result, buildNestedR2eSubsets Arithmetic.rational id (fun _ => SetOrder.sorted) exampleRows
          1 2 42 1 = .ok result →
        buildNestedR2eSubsets Arithmetic.rational id (fun _ => SetOrder.sorted)
          exampleRows.reverse 1 2 42 1 = .ok result) ∧
      ∀ result, buildR2eSplits ℚ id exampleRows ⟨2, 1, 1, none, 1⟩ 42 = .ok result →
        buildR2eSplits ℚ id exampleRows.reverse ⟨2, 1, 1, none, 1⟩ 42 = .ok result := by
  obtain ⟨hnested, hverified, hsplits⟩ := selections_perm Arithmetic.rational id 42
    exampleRows.reverse_perm.symm (ranksApart_id 42 _ _) exampleVerified.reverse_perm.symm
    (ranksApart_id 42 _ _)
  exact ⟨hverified 2 _ (by decide +kernel), fun result => hnested _ _ 1 2 1 result,
    fun result => hsplits _ result⟩

end Selection
