import CodingOpd.Library.Stratification
import CodingOpd.Selection.Nested

/-!
# Tiers of a binned pool

Once every repository of a pool is binned, the repositories and their bins are the strata of a
classification of the tasks, and a tier is the stratified selection under the quotas of its bins.

## Main definitions

* `Binned`: bins for the tasks of every repository of a pool
* `BinAllotment`: quotas of the bins that add up to the quotas of the repositories
* `ExactTier`: distinct rows of a pool, as many as the quotas say

## Main results

* `selectedIds_eq_select`: the loop makes the stratified selection
* `materialize_spec`: the rows of a set of tasks
* `exactTier_of_materialize`: the rows of a tier meet the quotas
-/

open Python RankedSort Stratification

namespace Selection

variable {V K ρ : Type} [LinearOrder ρ]
variable (sha256 : String → ρ) (seed : ℤ)

/-- Bins for the tasks of every repository of a pool. -/
structure Binned (pool : List (Row V)) (repos : List String) (bins : String → Dict ℕ) : Prop where
  nodup_ids : (pool.map Row.taskId).Nodup
  nodup_repos : repos.Nodup
  mem_repos : ∀ repo, repo ∈ repos ↔ repo ∈ pool.map Row.repoName
  keys_perm : ∀ repo ∈ repos,
    (bins repo).keys.Perm ((pool.filter fun row => row.repoName = repo).map Row.taskId)
  lt : ∀ repo ∈ repos, ∀ item ∈ bins repo, item.2 < 4

/-- The quota of a bin of a repository. -/
def binQuota (quotas : String → Dict ℤ) (k : String × ℕ) : ℤ := (quotas k.1).getD (toString k.2) 0

/-- Quotas of the bins, at most the sizes of the bins, that add up to the quotas of the
repositories. -/
structure BinAllotment (repos : List String) (bins : String → Dict ℕ) (quotas : String → Dict ℤ)
    (repoQuotas : Dict ℤ) : Prop where
  nonneg : ∀ repo ∈ repos, ∀ index < 4, 0 ≤ binQuota quotas (repo, index)
  le_length : ∀ repo ∈ repos, ∀ index < 4,
    binQuota quotas (repo, index) ≤ (stratum (bins repo) index).length
  sum_eq : ∀ repo ∈ repos,
    ∑ index ∈ Finset.range 4, binQuota quotas (repo, index) = repoQuotas.getD repo 0

/-- A tier holds distinct rows of the pool, as many as the size says, and as many of every
repository and of every bin as the reported quotas say. -/
structure ExactTier (pool tier : List (Row V)) (size : ℤ) (repoQuotas : Dict ℤ)
    (stratumQuotas : Dict (Dict ℤ)) (quotaName : ℕ → String) (binById : Dict ℕ) : Prop where
  length_eq : tier.length = size
  nodup : (tier.map Row.taskId).Nodup
  subset : tier ⊆ pool
  repo_quota : ∀ repo ∈ pool.map Row.repoName, repoQuotas.lookup repo =
    some ((tier.countP fun row => row.repoName = repo : ℕ) : ℤ)
  bin_quota : ∀ repo ∈ pool.map Row.repoName, ∀ index < 4, ∃ quotas,
    stratumQuotas.lookup repo = some quotas ∧ quotas.lookup (quotaName index) =
      some ((tier.countP fun row =>
        row.repoName = repo ∧ binById.lookup row.taskId = some index : ℕ) : ℤ)

/-- The rows of a pool by their ids. -/
def rowsById (pool : List (Row V)) : Dict (Row V) := pool.map fun row => (row.taskId, row)

theorem keys_rowsById (pool : List (Row V)) : (rowsById pool).keys = pool.map Row.taskId := by
  rw [Dict.keys, rowsById, List.map_map]
  rfl

/-- The dictionary of the rows of a pool. -/
theorem update_rowsById {pool : List (Row V)} (hids : (pool.map Row.taskId).Nodup) :
    Dict.update [] (pool.map fun row => (row.taskId, row)) = rowsById pool :=
  Dict.update_nil_left (keys_rowsById pool ▸ hids)

theorem lookup_rowsById {pool : List (Row V)} (hids : (pool.map Row.taskId).Nodup) {uid : String}
    {row : Row V} : (rowsById pool).lookup uid = some row ↔ row ∈ pool ∧ row.taskId = uid := by
  rw [Dict.lookup_eq_some_iff (keys_rowsById pool ▸ hids), rowsById, List.mem_map]
  constructor
  · rintro ⟨_, hrow, heq⟩
    obtain ⟨rfl, rfl⟩ := Prod.mk.inj heq
    exact ⟨hrow, rfl⟩
  · rintro ⟨hrow, rfl⟩
    exact ⟨row, hrow, rfl⟩

/-- The repository and the bin of a task. -/
def classOf (pool : List (Row V)) (binById : Dict ℕ) (uid : String) : String × ℕ :=
  (((rowsById pool).lookup uid).elim "" Row.repoName, binById.getD uid 0)

/-! ## The strata of a pool -/

namespace Binned

variable {pool : List (Row V)} {repos : List String} {bins : String → Dict ℕ}

theorem mem_keys (h : Binned pool repos bins) {repo uid : String} (hrepo : repo ∈ repos) :
    uid ∈ (bins repo).keys ↔ ∃ row ∈ pool, row.repoName = repo ∧ row.taskId = uid := by
  rw [(h.keys_perm repo hrepo).mem_iff, List.mem_map]
  simp only [List.mem_filter, decide_eq_true_eq, and_assoc]

theorem nodup_keys (h : Binned pool repos bins) :
    (repos.flatMap fun repo => (bins repo).keys).Nodup := by
  apply List.nodup_flatMap.mpr
  constructor
  · intro repo hrepo
    apply (h.keys_perm repo hrepo).nodup_iff.mpr
    exact h.nodup_ids.sublist (List.Sublist.map _ List.filter_sublist)
  · apply h.nodup_repos.pairwise_of_forall_ne
    intro repo hrepo other hother hne uid huid huid'
    obtain ⟨row, hrow, rfl, rfl⟩ := (h.mem_keys hrepo).mp huid
    obtain ⟨row', hrow', rfl, heq⟩ := (h.mem_keys hother).mp huid'
    exact hne (congrArg Row.repoName (List.inj_on_of_nodup_map h.nodup_ids hrow hrow' heq.symm))

theorem lookup_binById (h : Binned pool repos bins) {uid : String} {index : ℕ} :
    List.lookup uid (repos.flatMap bins) = some index ↔
      ∃ repo ∈ repos, (uid, index) ∈ bins repo := by
  have hnodup : Dict.keys (repos.flatMap bins) |>.Nodup := by
    rw [keys_flatMap]
    exact h.nodup_keys
  rw [Dict.lookup_eq_some_iff hnodup, List.mem_flatMap]

/-- **Every row of the pool has a bin.** -/
theorem exists_bin (h : Binned pool repos bins) {row : Row V} (hrow : row ∈ pool) :
    ∃ index < 4, List.lookup row.taskId (repos.flatMap bins) = some index := by
  have hrepo := (h.mem_repos row.repoName).mpr (List.mem_map_of_mem hrow)
  have hkey : row.taskId ∈ (bins row.repoName).keys := (h.mem_keys hrepo).mpr ⟨row, hrow, rfl, rfl⟩
  obtain ⟨⟨_, index⟩, hitem, rfl⟩ := List.mem_map.mp hkey
  exact ⟨index, h.lt row.repoName hrepo _ hitem, h.lookup_binById.mpr ⟨row.repoName, hrepo, hitem⟩⟩

/-- The class of a row of the pool. -/
theorem classOf_eq_iff (h : Binned pool repos bins) {row : Row V} (hrow : row ∈ pool)
    {repo : String} {index : ℕ} : classOf pool (repos.flatMap bins) row.taskId = (repo, index) ↔
      row.repoName = repo ∧ List.lookup row.taskId (repos.flatMap bins) = some index := by
  obtain ⟨bin, -, hbin⟩ := h.exists_bin hrow
  rw [classOf, (lookup_rowsById h.nodup_ids).mpr ⟨hrow, rfl⟩, Dict.getD, hbin, Prod.mk.injEq]
  exact and_congr_right fun _ => (Option.some.injEq _ _).symm ▸ Iff.rfl

/-- **The bins of the repositories are the strata** of the tasks by their repository and bin. -/
theorem stratified (h : Binned pool repos bins) :
    Stratified (classOf pool (repos.flatMap bins)) (fun k => stratum (bins k.1) k.2)
      (repos.toFinset ×ˢ Finset.range 4) where
  nodup := by
    rintro ⟨repo, index⟩ hk
    have hrepo := List.mem_toFinset.mp (Finset.mem_product.mp hk).1
    have hkeys : (bins repo).keys.Nodup := (h.keys_perm repo hrepo).nodup_iff.mpr
      (h.nodup_ids.sublist (List.Sublist.map _ List.filter_sublist))
    exact hkeys.sublist (List.Sublist.map _ List.filter_sublist)
  classOf_eq := by
    rintro ⟨repo, index⟩ hk uid huid
    have hrepo := List.mem_toFinset.mp (Finset.mem_product.mp hk).1
    have hitem := mem_stratum.mp huid
    obtain ⟨row, hrow, rfl, rfl⟩ := (h.mem_keys hrepo).mp (List.mem_map_of_mem hitem)
    exact (h.classOf_eq_iff hrow).mpr ⟨rfl, h.lookup_binById.mpr ⟨_, hrepo, hitem⟩⟩

end Binned

/-! ## Selected tasks -/

/-- The tasks that the loop selects under the quotas of a tier. -/
def selectedIds (repos : List String) (bins : String → Dict ℕ) (quotas : String → Dict ℤ) :
    Finset String :=
  (repos.flatMap fun repo => selected sha256 seed (bins repo) (quotas repo)).toFinset

theorem slice_of_nonneg {α : Type} (xs : List α) {stop : ℤ} (h : 0 ≤ stop) :
    slice xs stop = xs.take stop.toNat := by
  rw [slice, if_pos h]

variable {sha256 seed} {repos : List String} {bins : String → Dict ℕ} {quotas : String → Dict ℤ}
variable {repoQuotas : Dict ℤ}

/-- **The loop makes the stratified selection.** -/
theorem selectedIds_eq_select (hquotas : BinAllotment repos bins quotas repoQuotas) :
    selectedIds sha256 seed repos bins quotas =
      select (stableRank sha256 seed "r2e-task") (fun k => stratum (bins k.1) k.2)
        (fun k => (binQuota quotas k).toNat) (repos.toFinset ×ˢ Finset.range 4) := by
  ext uid
  rw [selectedIds, List.mem_toFinset, List.mem_flatMap, mem_select]
  simp only [selected, List.mem_flatMap, List.mem_range]
  constructor
  · rintro ⟨repo, hrepo, index, hindex, huid⟩
    have hnonneg : 0 ≤ (quotas repo).getD (toString index) 0 :=
      hquotas.nonneg repo hrepo index hindex
    rw [slice_of_nonneg _ hnonneg] at huid
    exact ⟨(repo, index), Finset.mem_product.mpr
      ⟨List.mem_toFinset.mpr hrepo, Finset.mem_range.mpr hindex⟩, huid⟩
  · rintro ⟨⟨repo, index⟩, hk, huid⟩
    have hrepo : repo ∈ repos := List.mem_toFinset.mp (Finset.mem_product.mp hk).1
    have hindex : index < 4 := Finset.mem_range.mp (Finset.mem_product.mp hk).2
    have hnonneg : 0 ≤ (quotas repo).getD (toString index) 0 :=
      hquotas.nonneg repo hrepo index hindex
    refine ⟨repo, hrepo, index, hindex, ?_⟩
    rw [slice_of_nonneg _ hnonneg]
    exact huid

section Counts

variable {pool : List (Row V)}

variable (sha256 seed) in
/-- The quotas of some bins add up to the number of selected tasks in them. -/
theorem card_filter_selectedIds (hbins : Binned pool repos bins)
    (hquotas : BinAllotment repos bins quotas repoQuotas) (P : String × ℕ → Prop)
    [DecidablePred P] :
    ((((selectedIds sha256 seed repos bins quotas).filter fun uid =>
      P (classOf pool (repos.flatMap bins) uid)).card : ℕ) : ℤ) =
      ∑ k ∈ repos.toFinset ×ˢ Finset.range 4 with P k, binQuota quotas k := by
  have hmem : ∀ k ∈ repos.toFinset ×ˢ Finset.range 4, k.1 ∈ repos ∧ k.2 < 4 := by
    intro k hk
    obtain ⟨hrepo, hindex⟩ := Finset.mem_product.mp hk
    exact ⟨List.mem_toFinset.mp hrepo, Finset.mem_range.mp hindex⟩
  rw [selectedIds_eq_select hquotas, card_filter_select hbins.stratified, Nat.cast_sum]
  · apply Finset.sum_congr rfl
    intro k hk
    obtain ⟨hrepo, hindex⟩ := hmem k (Finset.mem_of_mem_filter k hk)
    exact Int.toNat_of_nonneg (hquotas.nonneg k.1 hrepo k.2 hindex)
  · intro k hk
    obtain ⟨hrepo, hindex⟩ := hmem k hk
    have hle := hquotas.le_length k.1 hrepo k.2 hindex
    exact Int.toNat_le.mpr hle

variable (sha256 seed) in
/-- As many tasks of a repository are selected as its quota says. -/
theorem card_repo_selectedIds (hbins : Binned pool repos bins)
    (hquotas : BinAllotment repos bins quotas repoQuotas) {repo : String} (hrepo : repo ∈ repos) :
    ((((selectedIds sha256 seed repos bins quotas).filter fun uid =>
      (classOf pool (repos.flatMap bins) uid).1 = repo).card : ℕ) : ℤ) =
      repoQuotas.getD repo 0 := by
  rw [card_filter_selectedIds sha256 seed hbins hquotas fun k => k.1 = repo,
    ← hquotas.sum_eq repo hrepo, Finset.sum_filter, Finset.sum_product, Finset.sum_eq_single repo]
  · simp
  · intro other _ hne
    apply Finset.sum_eq_zero
    intro index _
    exact if_neg hne
  · exact fun h => absurd (List.mem_toFinset.mpr hrepo) h

variable (sha256 seed) in
/-- As many tasks of a bin are selected as its quota says. -/
theorem card_bin_selectedIds (hbins : Binned pool repos bins)
    (hquotas : BinAllotment repos bins quotas repoQuotas) {repo : String} (hrepo : repo ∈ repos)
    {index : ℕ} (hindex : index < 4) :
    ((((selectedIds sha256 seed repos bins quotas).filter fun uid =>
      classOf pool (repos.flatMap bins) uid = (repo, index)).card : ℕ) : ℤ) =
      binQuota quotas (repo, index) := by
  have hk : (repo, index) ∈ repos.toFinset ×ˢ Finset.range 4 :=
    Finset.mem_product.mpr ⟨List.mem_toFinset.mpr hrepo, Finset.mem_range.mpr hindex⟩
  rw [card_filter_selectedIds sha256 seed hbins hquotas fun k => k = (repo, index),
    Finset.sum_filter, Finset.sum_ite_eq', if_pos hk]

variable (sha256 seed) in
/-- The quotas of the repositories add up to the number of selected tasks. -/
theorem card_selectedIds (hbins : Binned pool repos bins)
    (hquotas : BinAllotment repos bins quotas repoQuotas) :
    (((selectedIds sha256 seed repos bins quotas).card : ℕ) : ℤ) =
      (repos.map fun repo => repoQuotas.getD repo 0).sum := by
  have hcard := card_filter_selectedIds sha256 seed hbins hquotas fun _ => True
  rw [Finset.filter_true, Finset.filter_true] at hcard
  rw [hcard, Finset.sum_product, ← List.sum_toFinset _ hbins.nodup_repos]
  apply Finset.sum_congr rfl
  intro repo hrepo
  exact hquotas.sum_eq repo (List.mem_toFinset.mp hrepo)

/-- Larger quotas select more tasks. -/
theorem selectedIds_mono {quotas' : String → Dict ℤ} {repoQuotas' : Dict ℤ}
    (hquotas : BinAllotment repos bins quotas repoQuotas)
    (hquotas' : BinAllotment repos bins quotas' repoQuotas')
    (hle : ∀ repo ∈ repos, ∀ index < 4,
      binQuota quotas (repo, index) ≤ binQuota quotas' (repo, index)) :
    selectedIds sha256 seed repos bins quotas ⊆ selectedIds sha256 seed repos bins quotas' := by
  rw [selectedIds_eq_select hquotas, selectedIds_eq_select hquotas']
  apply select_mono
  intro k hk
  obtain ⟨hrepo, hindex⟩ := Finset.mem_product.mp hk
  exact Int.toNat_le_toNat
    (hle k.1 (List.mem_toFinset.mp hrepo) k.2 (Finset.mem_range.mp hindex))

/-- Selected tasks are tasks of the pool. -/
theorem mem_of_mem_selectedIds (hbins : Binned pool repos bins)
    (hquotas : BinAllotment repos bins quotas repoQuotas) {uid : String}
    (h : uid ∈ selectedIds sha256 seed repos bins quotas) : uid ∈ pool.map Row.taskId := by
  rw [selectedIds_eq_select hquotas] at h
  obtain ⟨⟨repo, index⟩, hk, huid⟩ := mem_select.mp h
  have hrepo := List.mem_toFinset.mp (Finset.mem_product.mp hk).1
  have hkey : uid ∈ (bins repo).keys := List.mem_map_of_mem (mem_stratum.mp (mem_of_mem_top huid))
  obtain ⟨row, hrow, -, rfl⟩ := (hbins.mem_keys hrepo).mp hkey
  exact List.mem_map_of_mem hrow

end Counts

/-! ## The rows of a tier -/

section Rows

variable {pool : List (Row V)}

/-- Where every task is in the pool, its rows are collected in the order of the tasks. -/
theorem exists_mapM_lookup (hids : (pool.map Row.taskId).Nodup) {uids : List String}
    (huids : ∀ uid ∈ uids, uid ∈ pool.map Row.taskId) :
    ∃ rows, (uids.mapM fun uid => key uid ((rowsById pool).lookup uid)) = .ok rows ∧
      rows.map Row.taskId = uids ∧ rows ⊆ pool := by
  induction uids with
  | nil => exact ⟨[], rfl, rfl, List.nil_subset _⟩
  | cons uid uids ih =>
    obtain ⟨huid, hrest⟩ := List.forall_mem_cons.mp huids
    obtain ⟨row, hrow, rfl⟩ := List.mem_map.mp huid
    obtain ⟨rows, hrows, hmap, hsub⟩ := ih hrest
    refine ⟨row :: rows, ?_, congrArg (row.taskId :: ·) hmap, List.cons_subset.mpr ⟨hrow, hsub⟩⟩
    rw [List.mapM_cons, (lookup_rowsById hids).mpr ⟨hrow, rfl⟩, hrows]
    rfl

variable (sha256 seed) in
/-- **The rows of a set of tasks.** -/
theorem materialize_spec (hids : (pool.map Row.taskId).Nodup) (order : String → SetOrder)
    {ids : Finset String} (hmem : ∀ uid ∈ ids, uid ∈ pool.map Row.taskId) (label : String) :
    ∃ tier, materialize sha256 order seed (rowsById pool) ids label = .ok tier ∧
      (tier.map Row.taskId).Nodup ∧ (∀ uid, uid ∈ tier.map Row.taskId ↔ uid ∈ ids) ∧
      tier ⊆ pool := by
  have hpool : ∀ uid ∈ sortBy (stableRank sha256 seed (label ++ ":order")) ((order label).list ids),
      uid ∈ pool.map Row.taskId := fun uid huid =>
    hmem uid (((order label).mem ids uid).mp (mem_sortBy.mp huid))
  obtain ⟨tier, htier, hmap, hsub⟩ := exists_mapM_lookup hids hpool
  refine ⟨tier, htier, ?_, ?_, hsub⟩
  · rw [hmap]
    exact nodup_sortBy.mpr ((order label).nodup ids)
  · intro uid
    rw [hmap, mem_sortBy, (order label).mem]

/-- Rows are counted by their tasks. -/
theorem countP_eq_card_filter {tier : List (Row V)} {ids : Finset String}
    (hnodup : (tier.map Row.taskId).Nodup) (hmem : ∀ uid, uid ∈ tier.map Row.taskId ↔ uid ∈ ids)
    {p : Row V → Prop} [DecidablePred p] {P : String → Prop} [DecidablePred P]
    (hp : ∀ row ∈ tier, p row ↔ P row.taskId) :
    (tier.countP fun row => p row) = (ids.filter P).card := by
  have hids : ids = (tier.map Row.taskId).toFinset := by
    ext uid
    rw [List.mem_toFinset, hmem]
  have hcongr : (tier.countP fun row => p row) =
      (tier.map Row.taskId).countP fun uid => P uid := by
    rw [List.countP_map]
    apply List.countP_congr
    intro row hrow
    simp only [Function.comp_apply, decide_eq_true_eq]
    exact hp row hrow
  have hfilter : (tier.map Row.taskId).toFinset.filter P =
      ((tier.map Row.taskId).filter fun uid => P uid).toFinset := by
    ext uid
    simp
  rw [hids, hfilter, List.toFinset_card_of_nodup (hnodup.filter _), hcongr,
    List.countP_eq_length_filter]

/-- **The rows of a tier meet the quotas.** -/
theorem exactTier_of_materialize (hbins : Binned pool repos bins)
    (hquotas : BinAllotment repos bins quotas repoQuotas) {size : ℤ}
    (hsize : (repos.map fun repo => repoQuotas.getD repo 0).sum = size)
    (hkeys : ∀ repo ∈ repos, repoQuotas.lookup repo = some (repoQuotas.getD repo 0))
    {reported : Dict ℤ} (hreported : ∀ repo, reported.lookup repo = repoQuotas.lookup repo)
    {stratumQuotas : Dict (Dict ℤ)} {quotaName : ℕ → String}
    (hstrata : ∀ repo ∈ repos, ∀ index < 4, ∃ named, stratumQuotas.lookup repo = some named ∧
      named.lookup (quotaName index) = some (binQuota quotas (repo, index)))
    {tier : List (Row V)} (hnodup : (tier.map Row.taskId).Nodup)
    (hmem : ∀ uid, uid ∈ tier.map Row.taskId ↔ uid ∈ selectedIds sha256 seed repos bins quotas)
    (hsub : tier ⊆ pool) :
    ExactTier pool tier size reported stratumQuotas quotaName (repos.flatMap bins) where
  length_eq := by
    rw [← hsize, ← card_selectedIds sha256 seed hbins hquotas]
    have hcount := countP_eq_card_filter hnodup hmem (p := fun _ => True) (P := fun _ => True)
      fun _ _ => Iff.rfl
    rw [Finset.filter_true] at hcount
    rw [← hcount]
    simp
  nodup := hnodup
  subset := hsub
  repo_quota := by
    intro repo hrepo
    have hrepo := (hbins.mem_repos repo).mpr hrepo
    rw [hreported, hkeys repo hrepo, ← card_repo_selectedIds sha256 seed hbins hquotas hrepo]
    congr 2
    symm
    apply countP_eq_card_filter hnodup hmem
    intro row hrow
    obtain ⟨index, -, hindex⟩ := hbins.exists_bin (hsub hrow)
    rw [(hbins.classOf_eq_iff (hsub hrow)).mpr ⟨rfl, hindex⟩]
  bin_quota := by
    intro repo hrepo index hindex
    have hrepo := (hbins.mem_repos repo).mpr hrepo
    obtain ⟨named, hnamed, hquota⟩ := hstrata repo hrepo index hindex
    refine ⟨named, hnamed, ?_⟩
    rw [hquota, ← card_bin_selectedIds sha256 seed hbins hquotas hrepo hindex]
    congr 2
    symm
    -- a row is in one bin of one repository
    apply countP_eq_card_filter hnodup hmem
    intro row hrow
    exact (hbins.classOf_eq_iff (hsub hrow)).symm

end Rows

end Selection
