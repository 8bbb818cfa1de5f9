import CodingOpd.Selection.Quotas
import CodingOpd.Selection.Rows

/-!
# The quick panel of Verified

`select_verified_quick` gives every repository one slot, divides the other slots in proportion to
the sizes of the repositories, and takes the first tasks of every repository in the order of their
ranks.

## Main definitions

* `selectVerifiedQuick`: `select_verified_quick`
* `Panel`: what a panel of a pool is

## Main results

* `selectVerifiedQuick_perm`: the panel and its quotas do not depend on the order of the rows
* `selectVerifiedQuick_panel`: the panel exists and covers every repository
-/

open Python RankedSort

namespace Selection

variable {V K ρ : Type} [Field K] [LinearOrder K] [FloorRing K] [LinearOrder ρ]
variable (arithmetic : Arithmetic K) (sha256 : String → ρ)

/-- A row of SWE-bench Verified. Columns that are not looked into are of `V`. -/
structure RawVerifiedRow (V : Type) where
  instanceId : Option String
  repo : Option String
  other : V

/-- A row with an instance id and a repository. -/
structure VerifiedRow (V : Type) where
  instanceId : String
  repo : String
  other : V
  deriving DecidableEq

/-- The row, when it has both columns. -/
def RawVerifiedRow.complete? (raw : RawVerifiedRow V) : Option (VerifiedRow V) := do
  let instanceId ← raw.instanceId
  let repo ← raw.repo
  return { instanceId, repo, other := raw.other }

/-- The body of the first loop of `select_verified_quick`. The set `seen` holds the ids of the rows
that were read. -/
def readVerifiedRow (pool : List (VerifiedRow V)) (raw : RawVerifiedRow V) :
    Except PyError (List (VerifiedRow V)) := do
  let uid ← key "instance_id" raw.instanceId
  raiseUnless (uid ∉ pool.map VerifiedRow.instanceId)
    (.valueError "duplicate SWE-bench Verified instance_id")
  let repo ← key "repo" raw.repo
  return pool ++ [{ instanceId := uid, repo, other := raw.other }]

/-- The panel of a pool that was read, and its quotas. -/
def verifiedPanel (pool : List (VerifiedRow V)) (size seed : ℤ) :
    Except PyError (List (VerifiedRow V) × Dict ℤ) := do
  let groups := groupBy VerifiedRow.repo pool
  raiseUnless (0 < size ∧ size ≤ pool.length) (.valueError "expected 0 < size <= pool")
  raiseUnless (groups.length ≤ size) (.valueError "size cannot cover all repositories")
  let repoSizes := groupSizes groups
  let extraCapacities := repoSizes.mapValues fun repoSize => repoSize - 1
  let extra ← temperatureRepoQuotas arithmetic repoSizes (size - groups.length) 1
    (some extraCapacities)
  let quotas := Dict.ofKeys repoSizes.sortedKeys fun repo => extra.getD repo 0 + 1
  let selected := takeRanked (fun row => stableRank sha256 seed "verified-task" row.instanceId)
    groups quotas
  return (sortBy (fun row => stableRank sha256 seed "verified50:order" row.instanceId) selected,
    quotas.sortItems)

/-- `select_verified_quick` -/
def selectVerifiedQuick (rows : List (RawVerifiedRow V)) (size seed : ℤ) :
    Except PyError (List (VerifiedRow V) × Dict ℤ) := do
  let pool ← rows.foldlM readVerifiedRow []
  verifiedPanel arithmetic sha256 pool size seed

variable {arithmetic sha256}

theorem admits_readVerifiedRow : Admits (readVerifiedRow (V := V)) RawVerifiedRow.complete?
    VerifiedRow.instanceId fun _ => True := by
  intro pool raw next
  unfold readVerifiedRow
  constructor
  · intro h
    obtain ⟨uid, huid, h⟩ := bind_eq_ok.mp h
    obtain ⟨hnew, h⟩ := raiseUnless_bind_eq_ok.mp h
    obtain ⟨repo, hrepo, h⟩ := bind_eq_ok.mp h
    cases h
    refine ⟨⟨uid, repo, raw.other⟩, ?_, hnew, trivial, rfl⟩
    rw [RawVerifiedRow.complete?, key_eq_ok.mp huid, key_eq_ok.mp hrepo]
    rfl
  · rintro ⟨row, hrow, hnew, -, rfl⟩
    obtain ⟨instanceId, repo, other⟩ := raw
    cases instanceId with
    | none => cases hrow
    | some uid =>
      cases repo with
      | none => cases hrow
      | some repo =>
        cases hrow
        rw [key_eq_ok.mpr rfl, ok_bind, raiseUnless_bind_eq_ok]
        exact ⟨hnew, rfl⟩

/-- The panel of a pool does not depend on the order of its rows. -/
theorem verifiedPanel_perm {pool pool' : List (VerifiedRow V)} (hperm : pool.Perm pool')
    {seed : ℤ} (hinj : Set.InjOn
      (fun row : VerifiedRow V => stableRank sha256 seed "verified-task" row.instanceId)
      {row | row ∈ pool}) (size : ℤ) :
    verifiedPanel arithmetic sha256 pool size seed =
      verifiedPanel arithmetic sha256 pool' size seed := by
  have hkeys := keys_groupBy_perm VerifiedRow.repo hperm
  have hlookup := lookup_groupSizes_perm VerifiedRow.repo hperm
  set groups := groupBy VerifiedRow.repo pool with hgroups
  set groups' := groupBy VerifiedRow.repo pool' with hgroups'
  have hlength : groups.length = groups'.length := by
    have hlength := hkeys.length_eq
    rwa [Dict.keys, Dict.keys, List.length_map, List.length_map] at hlength
  have hextra : ∀ key, ((groupSizes groups).mapValues fun size => size - 1).getD key 0 =
      ((groupSizes groups').mapValues fun size => size - 1).getD key 0 := by
    intro key
    rw [Dict.getD, Dict.getD, Dict.lookup_mapValues, Dict.lookup_mapValues, hlookup]
  have hquotas : ∀ total, temperatureRepoQuotas arithmetic (groupSizes groups) total 1
      (some ((groupSizes groups).mapValues fun size => size - 1)) =
      temperatureRepoQuotas arithmetic (groupSizes groups') total 1
        (some ((groupSizes groups').mapValues fun size => size - 1)) := by
    intro total
    apply temperatureRepoQuotas_congr arithmetic _ hlookup _ hextra
    · rwa [keys_groupSizes, keys_groupSizes]
    · rwa [Dict.keys_mapValues, Dict.keys_mapValues, keys_groupSizes, keys_groupSizes]
  have htake : ∀ quotas,
      takeRanked (fun row => stableRank sha256 seed "verified-task" row.instanceId) groups quotas =
        takeRanked (fun row => stableRank sha256 seed "verified-task" row.instanceId) groups'
          quotas :=
    fun _ => takeRanked_perm hperm hinj fun _ => rfl
  unfold verifiedPanel
  dsimp only
  rw [← hgroups, ← hgroups', hperm.length_eq, hlength, hquotas]
  simp only [sortedKeys_groupSizes, Dict.sortedKeys_eq_of_perm hkeys, htake]

/-- **The panel and its quotas do not depend on the order of the rows.** -/
theorem selectVerifiedQuick_perm {rows rows' : List (RawVerifiedRow V)} (hperm : rows.Perm rows')
    {seed : ℤ} (hrank : RanksApart sha256 seed ["verified-task"]
      (rows.filterMap RawVerifiedRow.instanceId)) {size : ℤ}
    {result : List (VerifiedRow V) × Dict ℤ}
    (h : selectVerifiedQuick arithmetic sha256 rows size seed = .ok result) :
    selectVerifiedQuick arithmetic sha256 rows' size seed = .ok result := by
  obtain ⟨pool, hpool, h⟩ := bind_eq_ok.mp h
  obtain ⟨pool', hpool', hpools⟩ := admits_readVerifiedRow.run_perm hperm hpool
  obtain ⟨-, rfl, hids, -⟩ := admits_readVerifiedRow.run_eq_ok.mp hpool
  rw [selectVerifiedQuick, hpool', ok_bind, ← verifiedPanel_perm hpools, h]
  apply hrank.injOn (List.mem_singleton_self _) hids
  intro row hrow
  obtain ⟨raw, hraw, hcomplete⟩ := List.mem_filterMap.mp hrow
  apply List.mem_filterMap.mpr
  refine ⟨raw, hraw, ?_⟩
  obtain ⟨uid, huid, hcomplete⟩ := Option.bind_eq_some_iff.mp hcomplete
  obtain ⟨repo, -, hcomplete⟩ := Option.bind_eq_some_iff.mp hcomplete
  cases hcomplete
  exact huid

/-! ## The panel exists -/

/-- A panel of a pool: distinct rows, as many as the size says, of every repository as many as its
quota says, which is at least one and at most the repository's rows. -/
structure Panel (pool panel : List (VerifiedRow V)) (quotas : Dict ℤ) (size : ℤ) : Prop where
  subset : panel ⊆ pool
  nodup_ids : (panel.map VerifiedRow.instanceId).Nodup
  length_eq : (panel.length : ℤ) = size
  mem_keys : ∀ repo, repo ∈ quotas.keys ↔ repo ∈ pool.map VerifiedRow.repo
  count_eq : ∀ repo, (panel.countP (fun row => row.repo = repo) : ℤ) = quotas.getD repo 0
  quota_pos : ∀ repo ∈ pool.map VerifiedRow.repo, 1 ≤ quotas.getD repo 0
  quota_le : ∀ repo, quotas.getD repo 0 ≤ pool.countP fun row => row.repo = repo

section Exists

variable [IsStrictOrderedRing K] {pool : List (VerifiedRow V)} {size : ℤ}

/-- The rows of a repository besides the first. -/
theorem getD_extraCapacities {α : Type} {groups : Dict (List α)} {repo : String}
    (hrepo : repo ∈ groups.keys) :
    ((groupSizes groups).mapValues fun repoSize => repoSize - 1).getD repo 0 =
      ((groups.getD repo []).length : ℤ) - 1 := by
  rw [Dict.getD_mapValues_of_mem _ (by rwa [keys_groupSizes]) 0, getD_groupSizes]

/-- The rows that are left when every repository has its slot. -/
theorem sum_extraCapacities (pool : List (VerifiedRow V)) :
    ((groupBy VerifiedRow.repo pool).keys.map fun repo =>
      ((groupSizes (groupBy VerifiedRow.repo pool)).mapValues fun repoSize =>
        repoSize - 1).getD repo 0).sum =
      (pool.length - (groupBy VerifiedRow.repo pool).length : ℤ) := by
  have hones : ((groupBy VerifiedRow.repo pool).keys.map fun _ => (1 : ℤ)).sum =
      (groupBy VerifiedRow.repo pool).length := by
    rw [List.map_const', List.sum_replicate, nsmul_one, Dict.length_keys]
  have hsplit : ((groupBy VerifiedRow.repo pool).keys.map fun repo =>
      ((groupSizes (groupBy VerifiedRow.repo pool)).mapValues fun repoSize =>
        repoSize - 1).getD repo 0 + 1).sum = (pool.length : ℤ) := by
    rw [← sum_groupLengths VerifiedRow.repo pool]
    congr 1
    apply List.map_congr_left
    intro repo hrepo
    rw [getD_extraCapacities hrepo]
    ring
  rw [List.sum_map_add, hones] at hsplit
  omega

/-- **The quotas of a panel** are found: one slot for every repository and a share of the others. -/
theorem exists_panelQuotas (arithmetic : Arithmetic K) (hne : pool ≠ [])
    (hcover : (groupBy VerifiedRow.repo pool).length ≤ size) (hle : size ≤ pool.length) :
    ∃ extra, temperatureRepoQuotas arithmetic (groupSizes (groupBy VerifiedRow.repo pool))
        (size - (groupBy VerifiedRow.repo pool).length) 1
        (some ((groupSizes (groupBy VerifiedRow.repo pool)).mapValues fun repoSize =>
          repoSize - 1)) = .ok extra ∧
      (∀ repo ∈ (groupBy VerifiedRow.repo pool).keys, 0 ≤ extra.getD repo 0 ∧
        extra.getD repo 0 ≤ ((groupBy VerifiedRow.repo pool).getD repo []).length - 1) ∧
      ((groupBy VerifiedRow.repo pool).keys.map fun repo => extra.getD repo 0).sum =
        size - (groupBy VerifiedRow.repo pool).length := by
  set groups := groupBy VerifiedRow.repo pool with hgroups
  have hlength : ∀ repo ∈ groups.keys, (0 : ℤ) < (groups.getD repo []).length :=
    fun repo hrepo => Nat.cast_pos.mpr (length_groupBy_pos hrepo)
  have hgroupsNe : groupSizes groups ≠ [] := by
    intro hnil
    obtain ⟨row, hrow⟩ := List.exists_mem_of_ne_nil pool hne
    have hrepo : row.repo ∈ groups.keys := mem_keys_groupBy.mpr (List.mem_map_of_mem hrow)
    rw [← keys_groupSizes, hnil] at hrepo
    cases hrepo
  have hsorted : groups.sortedKeys.Perm groups.keys := groups.sortedKeys_perm
  obtain ⟨extra, hextra, hallots⟩ := temperatureRepoQuotas_spec arithmetic (groupSizes groups)
    (size - groups.length) 1 ((groupSizes groups).mapValues fun repoSize => repoSize - 1)
    (by rw [keys_groupSizes]; exact nodup_keys_groupBy _ _) hgroupsNe
    (fun repo hrepo => by
      rw [getD_groupSizes]
      exact hlength repo (by rwa [keys_groupSizes] at hrepo))
    (by rw [Dict.keys_mapValues]) ⟨zero_le_one, le_rfl⟩
    (fun repo hrepo => by
      rw [keys_groupSizes] at hrepo
      rw [getD_extraCapacities hrepo]
      have := hlength repo hrepo
      omega)
    (by omega)
    (by
      rw [sortedKeys_groupSizes, (hsorted.map _).sum_eq, hgroups, sum_extraCapacities]
      omega)
  rw [sortedKeys_groupSizes] at hallots
  refine ⟨extra, hextra, ?_, ?_⟩
  · intro repo hrepo
    have hmem := Dict.mem_sortedKeys.mpr hrepo
    rw [← getD_extraCapacities hrepo]
    exact ⟨hallots.nonneg repo hmem, hallots.le_capacity repo hmem⟩
  · rw [← (hsorted.map _).sum_eq]
    exact hallots.sum_eq

/-- The rows that are taken by the quotas of the repositories are a panel, in any order of ranks. -/
theorem panel_takeRanked {rank order : VerifiedRow V → ρ} {quotas : Dict ℤ}
    (hids : (pool.map VerifiedRow.instanceId).Nodup)
    (hkeys : quotas.keys.Perm (groupBy VerifiedRow.repo pool).keys)
    (hpos : ∀ repo ∈ (groupBy VerifiedRow.repo pool).keys, 1 ≤ quotas.getD repo 0)
    (hcap : ∀ repo ∈ (groupBy VerifiedRow.repo pool).keys,
      quotas.getD repo 0 ≤ ((groupBy VerifiedRow.repo pool).getD repo []).length)
    (hsum : ((groupBy VerifiedRow.repo pool).keys.map fun repo => quotas.getD repo 0).sum = size) :
    Panel pool (sortBy order (takeRanked rank (groupBy VerifiedRow.repo pool) quotas))
      quotas.sortItems size := by
  have hnodup : quotas.keys.Nodup := hkeys.nodup_iff.mpr (nodup_keys_groupBy _ _)
  have hfits : Fits (groupBy VerifiedRow.repo pool) quotas := fun repo hrepo =>
    ⟨zero_le_one.trans (hpos repo hrepo), hcap repo hrepo⟩
  have hnone : ∀ repo, repo ∉ (groupBy VerifiedRow.repo pool).keys → quotas.getD repo 0 = 0 :=
    fun repo hrepo => Dict.getD_of_notMem (mt hkeys.mem_iff.mp hrepo) 0
  have hperm := sortBy_perm order (takeRanked rank (groupBy VerifiedRow.repo pool) quotas)
  have hsubset : sortBy order (takeRanked rank (groupBy VerifiedRow.repo pool) quotas) ⊆ pool :=
    fun row hrow => takeRanked_subset (hperm.mem_iff.mp hrow)
  constructor
  · exact hsubset
  · apply (hperm.nodup_iff.mpr (nodup_takeRanked (List.Nodup.of_map _ hids))).map_on
    intro row hrow other hother heq
    exact List.inj_on_of_nodup_map hids (hsubset hrow) (hsubset hother) heq
  · rw [hperm.length_eq, length_takeRanked hfits, hsum]
  · intro repo
    rw [← mem_keys_groupBy, ← hkeys.mem_iff]
    exact ((sortBy_perm Prod.fst quotas).map Prod.fst).mem_iff
  · intro repo
    rw [hperm.countP_eq, countP_takeRanked hfits, Dict.getD_sortItems hnodup]
    split
    case isTrue => rfl
    case isFalse hrepo => exact (hnone repo hrepo).symm
  · intro repo hrepo
    rw [Dict.getD_sortItems hnodup]
    exact hpos repo (mem_keys_groupBy.mpr hrepo)
  · intro repo
    rw [Dict.getD_sortItems hnodup]
    by_cases hrepo : repo ∈ (groupBy VerifiedRow.repo pool).keys
    · have hle := hcap repo hrepo
      rwa [getD_groupBy, ← List.countP_eq_length_filter] at hle
    · rw [hnone repo hrepo]
      exact Nat.cast_nonneg _

/-- **The panel of a pool exists** and covers every repository, for every size from the number of
repositories to the number of rows. -/
theorem verifiedPanel_panel (arithmetic : Arithmetic K) (sha256 : String → ρ)
    (hids : (pool.map VerifiedRow.instanceId).Nodup) (hne : pool ≠ [])
    (hcover : (groupBy VerifiedRow.repo pool).length ≤ size) (hle : size ≤ pool.length)
    (seed : ℤ) :
    ∃ panel quotas, verifiedPanel arithmetic sha256 pool size seed = .ok (panel, quotas) ∧
      Panel pool panel quotas size := by
  obtain ⟨extra, hextra, hbounds, hsum⟩ := exists_panelQuotas arithmetic hne hcover hle
  have hpos : 0 < (groupBy VerifiedRow.repo pool).length := by
    obtain ⟨row, hrow⟩ := List.exists_mem_of_ne_nil pool hne
    rw [← Dict.length_keys]
    exact List.length_pos_of_mem (mem_keys_groupBy.mpr (List.mem_map_of_mem hrow))
  set groups := groupBy VerifiedRow.repo pool with hgroups
  set quotas := Dict.ofKeys groups.sortedKeys fun repo => extra.getD repo 0 + 1 with hquotas
  have hkeys : quotas.keys.Perm groups.keys := by
    rw [hquotas, Dict.keys_ofKeys]
    exact groups.sortedKeys_perm
  have hgetD : ∀ repo ∈ groups.keys, quotas.getD repo 0 = extra.getD repo 0 + 1 :=
    fun repo hrepo => Dict.getD_ofKeys (Dict.mem_sortedKeys.mpr hrepo) 0
  -- The checks pass, and the quotas are one slot and a share of the others.
  have hrun : verifiedPanel arithmetic sha256 pool size seed = .ok
      (sortBy (fun row => stableRank sha256 seed "verified50:order" row.instanceId)
        (takeRanked (fun row => stableRank sha256 seed "verified-task" row.instanceId) groups
          quotas), quotas.sortItems) := by
    unfold verifiedPanel
    dsimp only
    rw [← hgroups, raiseUnless, if_pos ⟨by omega, hle⟩, ok_bind, raiseUnless, if_pos hcover,
      ok_bind, hextra, ok_bind, sortedKeys_groupSizes]
    rfl
  refine ⟨_, _, hrun, panel_takeRanked hids hkeys (fun repo hrepo => ?_) (fun repo hrepo => ?_) ?_⟩
  · have hnonneg := (hbounds repo hrepo).1
    rw [hgetD repo hrepo]
    omega
  · have hcap := (hbounds repo hrepo).2
    rw [hgetD repo hrepo, ← hgroups]
    omega
  · -- one slot for every repository, and the others
    rw [List.map_congr_left hgetD, List.sum_map_add, hsum, List.map_const', List.sum_replicate,
      nsmul_one, Dict.length_keys]
    omega

/-- **The quick panel exists**: for all rows with an instance id of their own and a repository, and
at least one row. -/
theorem selectVerifiedQuick_panel (arithmetic : Arithmetic K) (sha256 : String → ρ)
    (rows : List (RawVerifiedRow V)) (hrows : ∀ raw ∈ rows, raw.complete?.isSome)
    (hids : ((rows.filterMap RawVerifiedRow.complete?).map VerifiedRow.instanceId).Nodup)
    (hne : rows ≠ []) (seed : ℤ)
    (hcover : (groupBy VerifiedRow.repo (rows.filterMap RawVerifiedRow.complete?)).length ≤ size)
    (hle : size ≤ rows.length) :
    ∃ panel quotas, selectVerifiedQuick arithmetic sha256 rows size seed = .ok (panel, quotas) ∧
      Panel (rows.filterMap RawVerifiedRow.complete?) panel quotas size := by
  have hpool : rows.foldlM readVerifiedRow [] = .ok (rows.filterMap RawVerifiedRow.complete?) :=
    admits_readVerifiedRow.run_eq_ok.mpr ⟨hrows, rfl, hids, fun _ _ => trivial⟩
  have hlength : (rows.filterMap RawVerifiedRow.complete?).length = rows.length :=
    List.length_filterMap_eq_countP.trans (List.countP_eq_length.mpr hrows)
  have hpoolNe : rows.filterMap RawVerifiedRow.complete? ≠ [] := by
    rwa [← List.length_pos_iff, hlength, List.length_pos_iff]
  rw [selectVerifiedQuick, hpool, ok_bind]
  exact verifiedPanel_panel arithmetic sha256 hids hpoolNe hcover (by rwa [hlength]) seed

end Exists

/-- Three rows of two repositories. -/
def threeVerifiedRows : List (RawVerifiedRow String) :=
  [⟨some "django-1", some "django", ""⟩, ⟨some "flask-1", some "flask", ""⟩,
    ⟨some "django-2", some "django", ""⟩]

/-- A panel of two of three rows. -/
theorem exists_panel_two : ∃ panel quotas,
    selectVerifiedQuick Arithmetic.rational id threeVerifiedRows 2 42 = .ok (panel, quotas) ∧
      Panel (threeVerifiedRows.filterMap RawVerifiedRow.complete?) panel quotas 2 :=
  selectVerifiedQuick_panel Arithmetic.rational id threeVerifiedRows (by decide) (by decide)
    (by decide) 42 (by decide) (by decide)

/-- The empty pool has no repository and no row, but the size between them is rejected. -/
theorem selectVerifiedQuick_nil :
    (groupBy VerifiedRow.repo ([] : List (VerifiedRow String))).length ≤ 0 ∧
      0 ≤ ([] : List (RawVerifiedRow String)).length ∧
      selectVerifiedQuick Arithmetic.rational id ([] : List (RawVerifiedRow String)) 0 42 =
        .error (.valueError "expected 0 < size <= pool") := by
  decide +kernel

end Selection
