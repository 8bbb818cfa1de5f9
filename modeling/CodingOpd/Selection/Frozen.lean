import CodingOpd.Selection.Exact
import CodingOpd.Selection.Manifests

/-!
# Frozen panels

What is frozen into a manifest is read back from the source: a pool of R2E from any table that has
its rows, and a panel of Verified from the source in any order.

## Main results

* `exists_r2eManifest`: the manifest of a pool can be written
* `selectFrozenManifestRows_r2eManifest`: a pool is read back from its manifest
* `selectVerifiedManifestRows_verifiedManifest`: a panel is read back from its manifest
* `frozen_round_trip`: both, for the pools and panels that are selected
-/

open Python RankedSort

namespace Selection

variable {V K ρ : Type} [Field K] [LinearOrder K] [FloorRing K]
variable [LinearOrder ρ]
variable {arithmetic : Arithmetic K} {sha256 : String → ρ}

/-! ## The rows of a pool -/

section Pool

variable {pool : List (Row V)} {order : String → SetOrder} {seed : ℤ}

/-- The rows of a tier are rows of the pool, each of its own id. -/
theorem materialize_eq_ok (hids : (pool.map Row.taskId).Nodup) {ids : Finset String}
    {label : String} {tier : List (Row V)}
    (h : materialize sha256 order seed (rowsById pool) ids label = .ok tier) :
    tier ⊆ pool ∧ (tier.map Row.taskId).Nodup ∧ ∀ row ∈ tier, row.taskId ∈ ids := by
  have hrows := mapM_eq_ok.mp h
  have hlookup : List.Forall₂ (fun uid row => row ∈ pool ∧ row.taskId = uid)
      (sortBy (stableRank sha256 seed (label ++ ":order")) ((order label).list ids)) tier :=
    hrows.imp fun uid row hrow => (lookup_rowsById hids).mp (key_eq_ok.mp hrow)
  have huids : tier.map Row.taskId =
      sortBy (stableRank sha256 seed (label ++ ":order")) ((order label).list ids) := by
    rw [← List.forall₂_eq_eq_eq, List.forall₂_map_left_iff]
    exact (hlookup.imp fun _ _ hrow => hrow.2).flip
  refine ⟨fun row hrow => ?_, ?_, fun row hrow => ?_⟩
  · obtain ⟨uid, -, hmem, -⟩ := exists_of_forall₂_right hlookup row hrow
    exact hmem
  · rw [huids, nodup_sortBy]
    exact (order label).nodup ids
  · have hmem : row.taskId ∈ tier.map Row.taskId := List.mem_map_of_mem hrow
    rw [huids, mem_sortBy] at hmem
    exact ((order label).mem ids row.taskId).mp hmem

/-- A task of the pool with numeric fields. -/
def NumericTask (pool : List (Row V)) (uid : String) : Prop :=
  ∃ row ∈ pool, row.taskId = uid ∧ row.Numeric

/-- Every task that a tier has is numeric, and has its bin. -/
def Tiers.Recorded (pool : List (Row V)) (tiers : Tiers) : Prop :=
  ∀ uid ∈ tiers.smallIds ∪ tiers.largeIds, uid ∈ tiers.binById.keys ∧ NumericTask pool uid

/-- The tasks of the bins of a repository are numeric. -/
theorem numericTask_of_planRepo (hids : (pool.map Row.taskId).Nodup) {repo : String}
    {large small : ℤ} {plan : RepoPlan}
    (h : planRepo arithmetic sha256 ((groupsOf pool).getD repo []) large small seed = .ok plan) :
    ∀ uid ∈ plan.repoBins.keys, NumericTask pool uid := by
  obtain ⟨repoBins, hbins, h⟩ := bind_eq_ok.mp h
  obtain ⟨largeQuotas, -, h⟩ := bind_eq_ok.mp h
  obtain ⟨smallQuotas, -, h⟩ := bind_eq_ok.mp h
  cases h
  rw [groupsOf, getD_groupBy] at hbins
  have hnumeric := numeric_of_complexityBins hbins
  rw [complexityBins_eq hnumeric (hids.sublist (List.Sublist.map _ List.filter_sublist))] at hbins
  cases hbins
  intro uid huid
  rw [(keys_binsOf_ordered_perm seed _).mem_iff] at huid
  obtain ⟨row, hrow, rfl⟩ := List.mem_map.mp huid
  exact ⟨row, List.mem_of_mem_filter hrow, rfl, hnumeric row hrow⟩

theorem mem_keys_of_mem_selected {repoBins : Dict ℕ} {binQuotas : Dict ℤ} {uid : String}
    (h : uid ∈ selected sha256 seed repoBins binQuotas) : uid ∈ repoBins.keys := by
  obtain ⟨index, -, huid⟩ := List.mem_flatMap.mp h
  have hmem : uid ∈ stratum repoBins index := by
    unfold slice at huid
    split at huid
    · exact mem_sortBy.mp (List.mem_of_mem_take huid)
    · exact mem_sortBy.mp (List.mem_of_mem_take huid)
  exact List.mem_map_of_mem (mem_stratum.mp hmem)

/-- A round of the loop records the tasks that it selects. -/
theorem Tiers.Recorded.add {tiers : Tiers} (h : tiers.Recorded pool) (repo : String)
    {plan : RepoPlan} (hplan : ∀ uid ∈ plan.repoBins.keys, NumericTask pool uid) :
    (tiers.add sha256 seed repo plan).Recorded pool := by
  intro uid huid
  have hcases : uid ∈ tiers.smallIds ∪ tiers.largeIds ∨ uid ∈ plan.repoBins.keys := by
    simp only [Tiers.add, Finset.mem_union, List.mem_toFinset] at huid
    rcases huid with (hold | hnew) | (hold | hnew)
    · exact Or.inl (Finset.mem_union_left _ hold)
    · exact Or.inr (mem_keys_of_mem_selected hnew)
    · exact Or.inl (Finset.mem_union_right _ hold)
    · exact Or.inr (mem_keys_of_mem_selected hnew)
  show uid ∈ (tiers.binById.update plan.repoBins).keys ∧ _
  rw [Dict.mem_keys_update]
  rcases hcases with hold | hnew
  · exact ⟨Or.inl (h uid hold).1, (h uid hold).2⟩
  · exact ⟨Or.inr hnew, hplan uid hnew⟩

/-- **The loop records the tasks** of the tiers. -/
theorem recorded_of_foldlM (hids : (pool.map Row.taskId).Nodup) {large small : Dict ℤ}
    {repos : List String} {tiers : Tiers}
    (h : repos.foldlM (addRepo arithmetic sha256 (groupsOf pool) large small seed) Tiers.empty =
      .ok tiers) : tiers.Recorded pool := by
  refine foldlM_invariant (P := Tiers.Recorded pool) ?_ h ?_
  · intro uid huid
    cases huid
  · intro before repo after hbefore hround
    obtain ⟨plan, hplan, hround⟩ := bind_eq_ok.mp hround
    cases hround
    exact hbefore.add repo (numericTask_of_planRepo hids hplan)

/-- The rows of a tier have their bins and are numeric, where the loop has recorded its tasks. -/
theorem recorded_rows (hids : (pool.map Row.taskId).Nodup) {tiers : Tiers}
    (hrecorded : tiers.Recorded pool) {ids : Finset String}
    (hsub : ids ⊆ tiers.smallIds ∪ tiers.largeIds) {label : String} {tier : List (Row V)}
    (h : materialize sha256 order seed (rowsById pool) ids label = .ok tier) :
    ∀ row ∈ tier, row.taskId ∈ tiers.binById.keys ∧ row.Numeric := by
  obtain ⟨htier, -, hmem⟩ := materialize_eq_ok hids h
  intro row hrow
  obtain ⟨hbin, other, hother, heq, hnumeric⟩ := hrecorded _ (hsub (hmem row hrow))
  rw [List.inj_on_of_nodup_map hids hother (htier hrow) heq] at hnumeric
  exact ⟨hbin, hnumeric⟩

/-- A source with further rows is valid, where these are and no id repeats. -/
theorem validateSourceRows_append {rows further rows' : List (RawRow V)}
    (h : validateSourceRows rows = .ok pool)
    (hfurther : ∀ raw ∈ further, ∃ row, raw.complete? = some row ∧ row.NonBlank)
    (hids : (((rows ++ further).filterMap RawRow.complete?).map Row.taskId).Nodup)
    (hperm : rows'.Perm (rows ++ further)) :
    ∃ pool', validateSourceRows rows' = .ok pool' ∧ pool ⊆ pool' := by
  obtain ⟨hcomplete, rfl, -, hblank⟩ := validateSourceRows_eq_ok.mp h
  have hall : validateSourceRows (rows ++ further) =
      .ok ((rows ++ further).filterMap RawRow.complete?) := by
    refine validateSourceRows_eq_ok.mpr ⟨?_, rfl, hids, ?_⟩
    · intro raw hraw
      rcases List.mem_append.mp hraw with hraw | hraw
      · exact hcomplete raw hraw
      · obtain ⟨row, hrow, -⟩ := hfurther raw hraw
        rw [hrow]
        rfl
    · intro row hrow
      rw [List.filterMap_append] at hrow
      rcases List.mem_append.mp hrow with hrow | hrow
      · exact hblank row hrow
      · obtain ⟨raw, hraw, hcomplete⟩ := List.mem_filterMap.mp hrow
        obtain ⟨other, hother, hnonBlank⟩ := hfurther raw hraw
        rw [hother, Option.some.injEq] at hcomplete
        rwa [← hcomplete]
  obtain ⟨pool', hpool', hpools⟩ := validateSourceRows_perm hperm.symm hall
  refine ⟨pool', hpool', fun row hrow => hpools.mem_iff.mp ?_⟩
  rw [List.filterMap_append]
  exact List.mem_append_left _ hrow

end Pool

/-! ## The manifest of a pool -/

section Manifest

variable {hexdigest : String → String} {name : String} {seed : ℤ} {source selection : Dict Item}

/-- The record of a row, as a task of a manifest. -/
def IsRecord (row : Row V) (task : Item) : Prop :=
  ∃ complexityBin, r2eTaskRecord row complexityBin = .ok task

/-- A row with numeric fields has a record. -/
theorem exists_r2eTaskRecord {row : Row V} (hrow : row.Numeric) (complexityBin : ℕ) :
    ∃ task, r2eTaskRecord row complexityBin = .ok task := by
  have hproxy : ∃ proxy, (ComplexityField.all.mapM fun field => do
      let n ← numeric row field
      return (field.name, Item.int n)) = .ok proxy := by
    apply exists_mapM_eq_ok
    intro field _
    rw [hrow.eq_amount field]
    exact ⟨_, rfl⟩
  obtain ⟨proxy, hproxy⟩ := hproxy
  rw [r2eTaskRecord, hproxy]
  exact ⟨_, rfl⟩

/-- **The manifest of a pool can be written** where its rows are numeric and have their bins. -/
theorem exists_r2eManifest {tier : List (Row V)} {bins : Dict ℕ}
    (htier : ∀ row ∈ tier, row.taskId ∈ bins.keys ∧ row.Numeric) :
    ∃ manifest, r2eManifest hexdigest name seed source selection tier bins = .ok manifest := by
  have htask : ∀ row ∈ tier, ∃ task, (do
      let complexityBin ← key row.taskId (bins.lookup row.taskId)
      r2eTaskRecord row complexityBin) = .ok task := by
    intro row hrow
    obtain ⟨hkey, hnumeric⟩ := htier row hrow
    obtain ⟨bin, hbin⟩ := Dict.exists_lookup hkey
    rw [key_eq_ok.mpr hbin, ok_bind]
    exact exists_r2eTaskRecord hnumeric bin
  obtain ⟨tasks, htasks⟩ := exists_mapM_eq_ok htask
  rw [r2eManifest, htasks]
  exact ⟨_, rfl⟩

/-- What the reader looks up in the manifest of a pool. -/
theorem lookup_r2eManifest {tier : List (Row V)} {bins : Dict ℕ} {manifest : Dict Item}
    (h : r2eManifest hexdigest name seed source selection tier bins = .ok manifest) :
    ∃ tasks, List.Forall₂ IsRecord tier tasks ∧
      manifest.lookup "schema" = some (.str "coding_opd.dataset_manifest.v1") ∧
      manifest.lookup "count" = some (.int tasks.length) ∧
      manifest.lookup "tasks" = some (.list tasks) := by
  obtain ⟨tasks, htasks, h⟩ := bind_eq_ok.mp h
  refine ⟨tasks, (mapM_eq_ok.mp htasks).imp fun row task htask => ?_, ?_⟩
  · obtain ⟨bin, -, htask⟩ := bind_eq_ok.mp htask
    exact ⟨bin, htask⟩
  · cases h
    split
    · exact ⟨rfl, rfl, rfl⟩
    · exact ⟨rfl, rfl, rfl⟩

theorem taskId_ne_empty (row : Row V) : row.taskId ≠ "" := by
  intro h
  have hmem : ':' ∈ row.taskId.toList := by simp [Row.taskId]
  rw [h] at hmem
  cases hmem

/-- A task whose row is in the source is selected. -/
theorem selectTask_eq_ok {row : Row V} {task : Item} (htask : IsRecord row task)
    {sourceById selected : Dict (Row V)} (hsource : sourceById.lookup row.taskId = some row)
    (hnew : row.taskId ∉ selected.keys) :
    selectTask sourceById selected task = .ok (selected ++ [(row.taskId, row)]) := by
  obtain ⟨complexityBin, htask⟩ := htask
  obtain ⟨proxy, -, htask⟩ := bind_eq_ok.mp htask
  cases htask
  have hfields : (checkedFields row).forM (checkField (.dict [("task_id", .str row.taskId),
      ("repo_name", .str row.repoName), ("commit_hash", .str row.commitHash),
      ("docker_image", .str row.dockerImage), ("complexity_bin", .int complexityBin),
      ("complexity_proxy", .dict proxy)])) = .ok () := by
    simp [checkedFields, checkField, Item.get, Item.isStr, raiseUnless, Dict.lookup_cons]
  simp only [selectTask, Item.get, List.lookup_cons_self, ok_bind, raiseUnless_bind_eq_ok, hsource,
    hfields]
  exact ⟨taskId_ne_empty row, hnew, rfl⟩

/-- **The tasks of a manifest** are selected in their order, where their rows are in the source. -/
theorem foldlM_selectTask {sourceById : Dict (Row V)} {tier : List (Row V)} {tasks : List Item}
    (htasks : List.Forall₂ IsRecord tier tasks)
    (hsource : ∀ row ∈ tier, sourceById.lookup row.taskId = some row)
    {selected : Dict (Row V)} (hids : (selected.keys ++ tier.map Row.taskId).Nodup) :
    tasks.foldlM (selectTask sourceById) selected = .ok (selected ++ rowsById tier) := by
  induction htasks generalizing selected with
  | nil => exact congrArg Except.ok (List.append_nil selected).symm
  | @cons row task tier tasks htask htasks ih =>
    obtain ⟨hrow, hsource⟩ := List.forall_mem_cons.mp hsource
    have hnew : row.taskId ∉ selected.keys := fun hmem =>
      List.disjoint_of_nodup_append hids hmem List.mem_cons_self
    have hkeys : Dict.keys (selected ++ [(row.taskId, row)]) = selected.keys ++ [row.taskId] := by
      rw [Dict.keys, List.map_append]
      rfl
    rw [List.foldlM_cons, selectTask_eq_ok htask hrow hnew, ok_bind, ih hsource, List.append_assoc]
    · rfl
    · rw [hkeys, List.append_assoc]
      exact hids

/-- **A pool is read back from its manifest**, out of any source that is valid and has its rows. -/
theorem selectFrozenManifestRows_eq_ok {rows : List (RawRow V)} {pool tier : List (Row V)}
    {bins : Dict ℕ} {manifest : Dict Item} (hrows : validateSourceRows rows = .ok pool)
    (htier : tier ⊆ pool) (hids : (tier.map Row.taskId).Nodup)
    (h : r2eManifest hexdigest name seed source selection tier bins = .ok manifest) :
    selectFrozenManifestRows rows manifest = .ok tier := by
  obtain ⟨tasks, htasks, hschema, hcount, hlist⟩ := lookup_r2eManifest h
  obtain ⟨-, -, hpool, -⟩ := validateSourceRows_eq_ok.mp hrows
  have hselected : tasks.foldlM (selectTask (rowsById pool)) [] = .ok ([] ++ rowsById tier) :=
    foldlM_selectTask htasks (fun row hrow => (lookup_rowsById hpool).mpr ⟨htier hrow, rfl⟩) hids
  rw [selectFrozenManifestRows, hschema, hlist, hcount, raiseUnless_bind_eq_ok]
  refine ⟨rfl, ?_⟩
  rw [raiseUnless_bind_eq_ok]
  refine ⟨decide_eq_true rfl, ?_⟩
  dsimp only
  rw [hrows, ok_bind, update_rowsById hpool, hselected, ok_bind, List.nil_append, rowsById,
    List.map_map]
  exact congrArg Except.ok (List.map_id tier)

end Manifest

/-! ## The manifest of a panel -/

section Panel

variable {W : Type} {hexdigest : String → String} {shown : Item → String} {lower : Text → Text}
variable {rows rows' : List (RawVerifiedRow (Dict W))} {panel : List (VerifiedRow (Dict W))}
variable {quotas : Dict ℤ} {size seed : ℤ} {dataset revision : String}

/-- A row that has both columns, as it stands in the source. -/
def VerifiedRow.raw (row : VerifiedRow V) : RawVerifiedRow V :=
  ⟨some row.instanceId, some row.repo, row.other⟩

theorem complete?_eq_some {raw : RawVerifiedRow V} {row : VerifiedRow V} :
    raw.complete? = some row ↔ raw = row.raw := by
  obtain ⟨instanceId, repo, other⟩ := raw
  constructor
  · intro h
    obtain ⟨uid, rfl, h⟩ := Option.bind_eq_some_iff.mp h
    obtain ⟨repo, rfl, h⟩ := Option.bind_eq_some_iff.mp h
    cases h
    rfl
  · intro h
    cases h
    rfl

/-- The rows of a table by their ids, where they have one. -/
def rawById (rows : List (RawVerifiedRow V)) : Dict (RawVerifiedRow V) :=
  rows.filterMap fun raw => raw.instanceId.map fun uid => (uid, raw)

theorem keys_rawById (rows : List (RawVerifiedRow V)) :
    (rawById rows).keys = rows.filterMap RawVerifiedRow.instanceId := by
  rw [Dict.keys, rawById, List.map_filterMap]
  congr 1
  funext raw
  rw [Option.map_map]
  exact Option.map_id'

/-- **The rows are found by their ids**, where these are distinct. -/
theorem foldlM_indexVerifiedRow {byId : Dict (RawVerifiedRow (Dict W))}
    (hrows : ∀ raw ∈ rows, raw.instanceId.isSome)
    (hids : (byId.keys ++ rows.filterMap RawVerifiedRow.instanceId).Nodup) :
    rows.foldlM indexVerifiedRow byId = .ok (byId ++ rawById rows) := by
  induction rows generalizing byId with
  | nil => exact congrArg Except.ok (List.append_nil byId).symm
  | cons raw rows ih =>
    obtain ⟨hraw, hrows⟩ := List.forall_mem_cons.mp hrows
    obtain ⟨uid, huid⟩ := Option.isSome_iff_exists.mp hraw
    rw [List.filterMap_cons_some huid] at hids
    have hnew : uid ∉ byId.keys := fun hmem =>
      List.disjoint_of_nodup_append hids hmem List.mem_cons_self
    have hround : indexVerifiedRow byId raw = .ok (byId ++ [(uid, raw)]) := by
      rw [indexVerifiedRow, key_eq_ok.mpr huid, ok_bind, raiseUnless_bind_eq_ok,
        Dict.setItem_of_notMem hnew]
      exact ⟨hnew, rfl⟩
    have hkeys : Dict.keys (byId ++ [(uid, raw)]) = byId.keys ++ [uid] := by
      rw [Dict.keys, List.map_append]
      rfl
    have hfound : rawById (raw :: rows) = (uid, raw) :: rawById rows :=
      List.filterMap_cons_some (congrArg (Option.map fun uid => (uid, raw)) huid)
    rw [List.foldlM_cons, hround, ok_bind, ih hrows, hfound, List.append_assoc]
    · rfl
    · rw [hkeys, List.append_assoc]
      exact hids

/-- The rows of a panel are rows of the pool, which has at least one. -/
theorem subset_of_verifiedPanel {pool : List (VerifiedRow V)} {panel : List (VerifiedRow V)}
    (h : verifiedPanel arithmetic sha256 pool size seed = .ok (panel, quotas)) :
    panel ⊆ pool ∧ pool ≠ [] := by
  obtain ⟨hsize, h⟩ := raiseUnless_bind_eq_ok.mp h
  obtain ⟨-, h⟩ := raiseUnless_bind_eq_ok.mp h
  obtain ⟨extra, -, h⟩ := bind_eq_ok.mp h
  cases h
  constructor
  · intro row hrow
    exact takeRanked_subset (mem_sortBy.mp hrow)
  · rintro rfl
    exact absurd (hsize.1.trans_le hsize.2) (lt_irrefl _)

/-- The ids of complete rows. -/
theorem filterMap_instanceId (hrows : ∀ raw ∈ rows, raw.complete?.isSome) :
    rows.filterMap RawVerifiedRow.instanceId =
      (rows.filterMap RawVerifiedRow.complete?).map VerifiedRow.instanceId := by
  rw [List.map_filterMap]
  apply List.filterMap_congr
  intro raw hraw
  obtain ⟨row, hrow⟩ := Option.isSome_iff_exists.mp (hrows raw hraw)
  rw [hrow, complete?_eq_some.mp hrow]
  rfl

theorem taskIds_verifiedTask (panel : List (VerifiedRow V)) :
    (panel.map (verifiedTask lower)).mapM (taskIdOf shown) =
      .ok (panel.map VerifiedRow.instanceId) := by
  rw [List.mapM_map]
  exact mapM_eq_ok_map fun row _ => rfl

variable (hexdigest lower seed dataset revision quotas) in
/-- What the reader looks up in the manifest of a panel. -/
theorem lookup_verifiedManifest (fullCount : ℕ) (panel : List (VerifiedRow V)) :
    ∃ source, (verifiedManifest hexdigest lower seed dataset revision fullCount panel quotas).lookup
        "source" = some (.dict source) ∧ source.lookup "full_count" = some (.int fullCount) ∧
      (verifiedManifest hexdigest lower seed dataset revision fullCount panel quotas).lookup
        "tasks" = some (.list (panel.map (verifiedTask lower))) ∧
      (verifiedManifest hexdigest lower seed dataset revision fullCount panel quotas).lookup
        "task_id_sha256" = some (.str (idSha256 hexdigest (panel.map VerifiedRow.instanceId))) :=
  ⟨_, rfl, rfl, rfl, rfl⟩

/-- **A panel is read back from its manifest**, out of its source in any order. -/
theorem selectVerifiedManifestRows_verifiedManifest
    (hpanel : selectVerifiedQuick arithmetic sha256 rows size seed = .ok (panel, quotas))
    (hrequired : ∀ raw ∈ rows, raw.HasRequired) (hperm : rows.Perm rows') :
    selectVerifiedManifestRows hexdigest shown rows'
      (verifiedManifest hexdigest lower seed dataset revision rows.length panel quotas) =
        .ok (panel.map VerifiedRow.raw, rows') := by
  obtain ⟨pool, hpool, hpanel⟩ := bind_eq_ok.mp hpanel
  obtain ⟨hcomplete, rfl, hids, -⟩ := admits_readVerifiedRow.run_eq_ok.mp hpool
  obtain ⟨hsubset, hne⟩ := subset_of_verifiedPanel hpanel
  obtain ⟨source, hsource, hcount, htasks, hhash⟩ := lookup_verifiedManifest hexdigest lower
    quotas seed dataset revision rows.length panel
  have hids' : (rows'.filterMap RawVerifiedRow.instanceId).Nodup := by
    rw [← (hperm.filterMap _).nodup_iff, filterMap_instanceId hcomplete]
    exact hids
  have hsome : ∀ raw ∈ rows', raw.instanceId.isSome := by
    intro raw hraw
    obtain ⟨row, hrow⟩ := Option.isSome_iff_exists.mp (hcomplete raw (hperm.mem_iff.mpr hraw))
    rw [complete?_eq_some.mp hrow]
    rfl
  have hnodup : (rawById rows').keys.Nodup := keys_rawById rows' ▸ hids'
  have hbyId : rows'.foldlM indexVerifiedRow [] = .ok (rawById rows') :=
    foldlM_indexVerifiedRow hsome hids'
  have hlookup : ∀ row ∈ panel, (rawById rows').lookup row.instanceId = some row.raw := by
    intro row hrow
    obtain ⟨raw, hraw, hcomplete⟩ := List.mem_filterMap.mp (hsubset hrow)
    rw [complete?_eq_some.mp hcomplete, hperm.mem_iff] at hraw
    apply (Dict.lookup_eq_some_iff hnodup).mpr
    exact List.mem_filterMap.mpr ⟨row.raw, hraw, rfl⟩
  have hhead : ∃ raw ∈ rows'.head?, raw.HasRequired := by
    cases rows' with
    | nil =>
      rw [hperm.eq_nil] at hne
      exact absurd rfl hne
    | cons raw rows' => exact ⟨raw, rfl, hrequired raw (hperm.mem_iff.mpr List.mem_cons_self)⟩
  have hfound : (panel.map VerifiedRow.instanceId).mapM
      (fun taskId => key taskId ((rawById rows').lookup taskId)) =
        .ok (panel.map VerifiedRow.raw) := by
    rw [List.mapM_map]
    exact mapM_eq_ok_map fun row hrow => key_eq_ok.mpr (hlookup row hrow)
  have hmem : ∀ taskId ∈ panel.map VerifiedRow.instanceId, taskId ∈ (rawById rows').keys := by
    rintro _ htaskId
    obtain ⟨row, hrow, rfl⟩ := List.mem_map.mp htaskId
    exact List.mem_map_of_mem ((Dict.lookup_eq_some_iff hnodup).mp (hlookup row hrow))
  have hsubscript : Item.subscript "full_count" (.dict source) = .ok (.int rows.length) :=
    key_eq_ok.mpr hcount
  rw [selectVerifiedManifestRows, hsource, key_eq_ok.mpr rfl, ok_bind, hsubscript, ok_bind,
    Item.toInt, ok_bind, raiseUnless_bind_eq_ok]
  refine ⟨congrArg Nat.cast hperm.length_eq.symm, ?_⟩
  rw [raiseUnless_bind_eq_ok]
  refine ⟨hhead, ?_⟩
  rw [hbyId, ok_bind, htasks, key_eq_ok.mpr rfl, ok_bind, Item.elements, ok_bind,
    taskIds_verifiedTask, ok_bind, hhash, key_eq_ok.mpr rfl, ok_bind, raiseUnless_bind_eq_ok]
  refine ⟨decide_eq_true rfl, ?_⟩
  rw [raiseUnless_bind_eq_ok]
  refine ⟨hmem, ?_⟩
  rw [hfound]
  rfl

end Panel

/-! ## Round trips -/

/-- **What is frozen is read back.** The manifest of a pool can be written and gives the pool back,
in its order, out of every valid source that has the rows of the pool's; and so does the manifest of
a panel, out of its source in any order. -/
theorem frozen_round_trip (arithmetic : Arithmetic K) (sha256 : String → ρ)
    (hexdigest : String → String) (shown : Item → String) (lower : Text → Text) :
    (∀ (order : String → SetOrder) (rows further rows' : List (RawRow V))
        (smallSize largeSize seed : ℤ) (repoTemperature : K) subsets metadata,
      buildNestedR2eSubsets arithmetic sha256 order rows smallSize largeSize seed repoTemperature =
        .ok (subsets, metadata) →
      rows'.Perm (rows ++ further) →
      (∀ raw ∈ further, ∃ row, raw.complete? = some row ∧ row.NonBlank) →
      (((rows ++ further).filterMap RawRow.complete?).map Row.taskId).Nodup →
      ∀ name tier, (name, tier) ∈ [("r2e_train_128", subsets.r2eTrain128),
        ("r2e_train_512", subsets.r2eTrain512)] →
      ∀ source selection, ∃ manifest,
        r2eManifest hexdigest name seed source selection tier metadata.complexityBinByTaskId =
          .ok manifest ∧
        selectFrozenManifestRows rows' manifest = .ok tier) ∧
    ∀ {W : Type} (rows rows' : List (RawVerifiedRow (Dict W))) (size seed : ℤ) panel quotas,
      selectVerifiedQuick arithmetic sha256 rows size seed = .ok (panel, quotas) →
      (∀ raw ∈ rows, raw.HasRequired) → rows.Perm rows' →
      ∀ dataset revision, selectVerifiedManifestRows hexdigest shown rows'
        (verifiedManifest hexdigest lower seed dataset revision rows.length panel quotas) =
          .ok (panel.map VerifiedRow.raw, rows') := by
  constructor
  · intro order rows further rows' smallSize largeSize seed repoTemperature subsets metadata hbuild
      hperm hfurther hids name tier htier source selection
    obtain ⟨pool, large, small, tiers, hrun, rfl⟩ := buildNestedR2eSubsets_eq_ok.mp hbuild
    obtain ⟨pool', hpool', hpools⟩ := validateSourceRows_append hrun.pool_eq hfurther hids hperm
    obtain ⟨-, -, hnodup, -⟩ := validateSourceRows_eq_ok.mp hrun.pool_eq
    have hrecorded := recorded_of_foldlM hnodup hrun.tiers_eq
    -- what holds of a tier, whichever of the two it is
    have hread : ∀ {ids : Finset String} {label : String}, ids ⊆ tiers.smallIds ∪ tiers.largeIds →
        materialize sha256 order seed (rowsById pool) ids label = .ok tier →
        ∃ manifest, r2eManifest hexdigest name seed source selection tier tiers.binById =
            .ok manifest ∧
          selectFrozenManifestRows rows' manifest = .ok tier := by
      intro ids label hsub htier
      obtain ⟨manifest, hmanifest⟩ :=
        exists_r2eManifest (recorded_rows hnodup hrecorded hsub htier)
      obtain ⟨hmem, htierIds, -⟩ := materialize_eq_ok hnodup htier
      exact ⟨manifest, hmanifest,
        selectFrozenManifestRows_eq_ok hpool' (fun row hrow => hpools (hmem hrow)) htierIds
          hmanifest⟩
    have hsmall := hrun.small_rows
    have hlarge := hrun.large_rows
    rw [update_rowsById hnodup] at hsmall hlarge
    rcases List.mem_pair.mp htier with hname | hname
    · cases hname
      exact hread Finset.subset_union_left hsmall
    · cases hname
      exact hread Finset.subset_union_right hlarge
  · intro W rows rows' size seed panel quotas hpanel hrequired hperm dataset revision
    exact selectVerifiedManifestRows_verifiedManifest hpanel hrequired hperm

/-- A row with the required columns. -/
def requiredRow (instanceId repo : String) : RawVerifiedRow (Dict String) :=
  ⟨some instanceId, some repo, [("problem_statement", ""), ("base_commit", ""), ("patch", ""),
    ("test_patch", ""), ("version", "")]⟩

theorem frozen_round_trip_examples :
    (∃ subsets metadata, buildNestedR2eSubsets Arithmetic.real id (fun _ => SetOrder.sorted)
        exampleRows 1 2 42 (1 / 2) = .ok (subsets, metadata) ∧
      ∃ manifest, r2eManifest id "r2e_train_512" 42 [] [] subsets.r2eTrain512
          metadata.complexityBinByTaskId = .ok manifest ∧
        selectFrozenManifestRows (exampleRow "flask" "d4" 5 :: exampleRows) manifest =
          .ok subsets.r2eTrain512) ∧
    ∃ panel quotas, selectVerifiedQuick Arithmetic.real id
        [requiredRow "django-1" "django", requiredRow "flask-1" "flask"] 2 42 =
          .ok (panel, quotas) ∧
      selectVerifiedManifestRows id (fun _ => "")
        [requiredRow "flask-1" "flask", requiredRow "django-1" "django"]
        (verifiedManifest id id 42 "dataset" "revision" 2 panel quotas) =
          .ok (panel.map VerifiedRow.raw,
            [requiredRow "flask-1" "flask", requiredRow "django-1" "django"]) := by
  constructor
  · have hle : (1 : ℤ) ≤ 2 := by decide
    have hlength : (2 : ℤ) ≤ (exampleRows.filterMap RawRow.complete?).length := by decide
    have htemperature : (0 : ℝ) ≤ 1 / 2 ∧ (1 : ℝ) / 2 ≤ 1 := by norm_num
    obtain ⟨subsets, metadata, hbuild, -⟩ :=
      buildNestedR2eSubsets_exact Arithmetic.real id (fun _ => SetOrder.sorted)
        validateSourceRows_exampleRows numeric_exampleRows Int.one_pos hle hlength 42 htemperature
    have hfurther : ∀ raw ∈ [exampleRow "flask" "d4" 5], ∃ row,
        raw.complete? = some row ∧ row.NonBlank := by
      intro raw hraw
      rw [List.mem_singleton.mp hraw]
      exact ⟨_, rfl, by decide, by decide⟩
    exact ⟨subsets, metadata, hbuild,
      (frozen_round_trip Arithmetic.real id id (fun _ => "") id).1 _ exampleRows
        [exampleRow "flask" "d4" 5] _ 1 2 42 _ subsets metadata hbuild
        (List.perm_append_singleton _ _).symm hfurther (by decide) _ _ (by simp) [] []⟩
  · have hcover : (groupBy VerifiedRow.repo
        ([requiredRow "django-1" "django", requiredRow "flask-1" "flask"].filterMap
          RawVerifiedRow.complete?)).length ≤ (2 : ℤ) := by
      decide
    obtain ⟨panel, quotas, hpanel, -⟩ := selectVerifiedQuick_panel Arithmetic.real id
      [requiredRow "django-1" "django", requiredRow "flask-1" "flask"] (by decide) (by decide)
      (by decide) 42 hcover (by decide)
    exact ⟨panel, quotas, hpanel,
      (frozen_round_trip (V := String) Arithmetic.real id id (fun _ => "") id).2 _ _ 2 42 panel
        quotas hpanel (by decide) (List.Perm.swap _ _ []) "dataset" "revision"⟩

end Selection
