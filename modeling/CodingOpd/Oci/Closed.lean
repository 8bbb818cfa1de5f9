import CodingOpd.Oci.Sound

/-!
# A finished layout is closed

Where `build_layout` returns, the manifests it gathered are stored, every blob they name was
downloaded or was there with the right size, and so had the right digest; the normalized manifests
name the same blobs.

## Main definitions

* `Closed`: the index names stored manifests, and the manifests name stored blobs
* `Gathered`: what holds between two images
* `Holds`: a manifest is stored, with every blob that it names

## Main results

* `addImage_spec`, `downloadAll_spec`, `normalizeLayout_spec`: the stages of `build_layout`
* `Sound.history`: every history of runs keeps `Sound`
* `finished_layout_closed`: where `build_layout` returns, the layout is closed
-/

open Python Interruption

namespace Oci

variable {V : Type} (codec : Codec V) (served : Set Bytes)

/-- A config or a layer is stored with its digest and its declared size. -/
def Present (sha256 : Bytes → Digest) (cells : Digest → Cell) (descriptor : Descriptor V) : Prop :=
  ∃ digest size, descriptor.digest = some digest ∧ descriptor.size = some size ∧
    Stored sha256 digest size (cells digest)

/-- The index names stored manifests by digest and size, and every config and layer that such a
manifest names is stored, with its digest and its size. -/
def Closed (layout : Layout) : Prop :=
  ∃ manifests, layout.index = .stored manifests ∧ ∀ x ∈ manifests,
    Stored codec.sha256 x.digest x.size (layout.cells x.digest) ∧
      ∃ data manifest blobs, (layout.cells x.digest).target = some data ∧
        codec.loads data = .ok manifest ∧ manifest.blobs = .ok blobs ∧
        ∀ y ∈ blobs, Present codec.sha256 layout.cells y

/-- A manifest is stored under its digest, and every config and layer that it names is stored, under
a digest that is no manifest's. -/
def Holds (manifests : Set Bytes) (cells : Digest → Cell) (digest : Digest) : Prop :=
  ∃ data ∈ manifests, codec.sha256 data = digest ∧ (cells digest).target = some data ∧
    ∃ manifest blobs, codec.loads data = .ok manifest ∧ manifest.blobs = .ok blobs ∧
      ∀ y ∈ blobs, Present codec.sha256 cells y ∧
        ∀ name, y.digest = some name → ∀ other ∈ manifestBytes codec served,
          codec.sha256 other ≠ name

/-- What holds between two images: the manifests so far are stored, and their blobs are among the
downloads. -/
structure Gathered (pending : Pending V) (layout : Layout) : Prop where
  sound : Sound codec served layout
  stored : ∀ x ∈ pending.descriptors, ∃ data ∈ served, codec.sha256 data = x.digest ∧
    (layout.cells x.digest).target = some data ∧
    ∃ manifest blobs, codec.loads data = .ok manifest ∧ manifest.blobs = .ok blobs ∧
      ∀ y ∈ blobs, ∃ digest ∈ pending.downloads.map Prod.fst, y.digest = some digest
  listed : ∀ item ∈ pending.downloads, item.2.2.digest = some item.1 ∧
    Listed codec served item.2.2

variable {codec served}

/-! ## The images -/

theorem setdefault_keys {α : Type} {downloads : List (Digest × α)} {digest other : Digest}
    {value : α} : other ∈ (setdefault downloads digest value).map Prod.fst ↔
      other ∈ downloads.map Prod.fst ∨ other = digest := by
  unfold setdefault
  split
  · next hmem => exact ⟨Or.inl, fun h => h.elim id fun heq => heq ▸ hmem⟩
  · simp [or_comm]

theorem mem_setdefault {α : Type} {downloads : List (Digest × α)} {digest : Digest} {value : α}
    {item : Digest × α} (h : item ∈ setdefault downloads digest value) :
    item ∈ downloads ∨ item = (digest, value) := by
  unfold setdefault at h
  split at h
  · exact Or.inl h
  · simpa using h

/-- The downloads keep what they had, and gain the blobs of the manifest. -/
theorem addDownloads_spec {repo : String}
    {downloads downloads' : List (Digest × String × Descriptor V)} {blobs : List (Descriptor V)}
    (h : addDownloads repo downloads blobs = .ok downloads') :
    (∀ digest ∈ downloads.map Prod.fst, digest ∈ downloads'.map Prod.fst) ∧
      (∀ y ∈ blobs, ∃ digest ∈ downloads'.map Prod.fst, y.digest = some digest) ∧
      ∀ item ∈ downloads', item ∈ downloads ∨
        item.2.2 ∈ blobs ∧ item.2.2.digest = some item.1 := by
  induction blobs generalizing downloads with
  | nil =>
    cases h
    exact ⟨fun _ hd => hd, fun _ hy => absurd hy List.not_mem_nil, fun _ hi => Or.inl hi⟩
  | cons x blobs ih =>
    rw [addDownloads, List.foldlM_cons] at h
    obtain ⟨next, hnext, h⟩ := bind_eq_ok.mp h
    obtain ⟨digest, hdigest, hnext⟩ := bind_eq_ok.mp hnext
    cases hnext
    rw [key_eq_ok] at hdigest
    obtain ⟨hkeys, hblobs, hitems⟩ := ih h
    refine ⟨fun d hd => hkeys d (setdefault_keys.mpr (Or.inl hd)), ?_, fun item hitem => ?_⟩
    · rintro y (_ | ⟨_, hy⟩)
      · exact ⟨digest, hkeys digest (setdefault_keys.mpr (Or.inr rfl)), hdigest⟩
      · exact hblobs y hy
    · rcases hitems item hitem with hold | ⟨hmem, hd⟩
      · rcases mem_setdefault hold with hold | rfl
        · exact Or.inl hold
        · exact Or.inr ⟨List.mem_cons_self, hdigest⟩
      · exact Or.inr ⟨List.mem_cons_of_mem x hmem, hd⟩

/-- A manifest that was gathered stays stored when another one is written. -/
theorem Gathered.setTarget (hwf : WellFormed codec served) {pending : Pending V} {layout : Layout}
    (h : Gathered codec served pending layout) {data : Bytes} (hserved : data ∈ served)
    {manifest : Manifest V} (hloads : codec.loads data = .ok manifest) :
    Gathered codec served pending (layout.setTarget (codec.sha256 data) data) where
  sound := h.sound.setTarget (Or.inl ⟨hserved, manifest, hloads⟩) data
  stored := by
    intro x hx
    obtain ⟨other, hother, hdigest, htarget, known, blobs, hknown, hblobs⟩ := h.stored x hx
    rw [← hdigest] at htarget ⊢
    exact ⟨other, hother, rfl, hwf.target_setTarget (Or.inl ⟨hserved, manifest, hloads⟩)
      (Or.inl ⟨hother, known, hknown⟩) htarget, known, blobs, hknown, hblobs⟩
  listed := h.listed

/-- The gathered images with one more, whose manifest is stored. -/
theorem Gathered.add {pending : Pending V} {layout : Layout}
    (h : Gathered codec served pending layout) {data : Bytes} (hserved : data ∈ served)
    (htarget : (layout.cells (codec.sha256 data)).target = some data) {manifest : Manifest V}
    (hloads : codec.loads data = .ok manifest) {blobs : List (Descriptor V)}
    (hblobs : manifest.blobs = .ok blobs) {repo : String}
    {downloads : List (Digest × String × Descriptor V)}
    (hdownloads : addDownloads repo pending.downloads blobs = .ok downloads)
    (mediaType refName : String) :
    Gathered codec served
      { descriptors := pending.descriptors ++
          [{ mediaType, digest := codec.sha256 data, size := data.length, refName }]
        downloads } layout := by
  obtain ⟨hkeys, hnamed, hitems⟩ := addDownloads_spec hdownloads
  refine ⟨h.sound, fun x hx => ?_, fun item hitem => ?_⟩
  · rcases List.mem_append.mp hx with hx | hx
    · obtain ⟨other, hother, hdigest, hstored, known, names, hknown, hnames, hin⟩ := h.stored x hx
      refine ⟨other, hother, hdigest, hstored, known, names, hknown, hnames, fun y hy => ?_⟩
      obtain ⟨digest, hmem, hy⟩ := hin y hy
      exact ⟨digest, hkeys digest hmem, hy⟩
    · cases List.mem_singleton.mp hx
      exact ⟨data, hserved, rfl, htarget, manifest, blobs, hloads, hblobs, hnamed⟩
  · rcases hitems item hitem with hold | ⟨hmem, hdigest⟩
    · exact h.listed item hold
    · exact ⟨hdigest, data, hserved, manifest, blobs, hloads, hblobs, hmem⟩

theorem addManifest_spec (hwf : WellFormed codec served) {repo annotation mediaType : String}
    {pending : Pending V} {data : Bytes} (hserved : data ∈ served) :
    Triple (Gathered codec served pending)
      (addManifest codec repo annotation pending data mediaType)
      (Gathered codec served) (Sound codec served) := by
  refine (Triple.ofExcept (Q := fun manifest layout => codec.loads data = .ok manifest ∧
    Gathered codec served pending layout) (fun _ _ hloads h => ⟨hloads, h⟩)
    fun _ h => h.sound).bind fun manifest => Triple.of_fact fun hloads => ?_
  have hwrite : Triple (Gathered codec served pending)
      (writeVerified codec (codec.sha256 data) data)
      (fun _ layout => Gathered codec served pending layout ∧
        (layout.cells (codec.sha256 data)).target = some data) (Sound codec served) := by
    rw [writeVerified, if_neg (not_not.mpr rfl)]
    exact writeBlob_spec
      (fun layout h => ⟨h.setTarget hwf hserved hloads, layout.setTarget_target_self _ _⟩)
      (fun _ h => h.sound)
      fun _ written h => h.sound.setTarget (Or.inl ⟨hserved, manifest, hloads⟩) written
  refine hwrite.bind fun _ => ?_
  refine (Triple.ofExcept (Q := fun blobs layout => manifest.blobs = .ok blobs ∧
    Gathered codec served pending layout ∧
    (layout.cells (codec.sha256 data)).target = some data) (fun _ _ hblobs h => ⟨hblobs, h⟩)
    fun _ h => h.1.sound).bind fun blobs => Triple.of_fact fun hblobs => ?_
  refine (Triple.ofExcept (Q := fun downloads layout =>
    addDownloads repo pending.downloads blobs = .ok downloads ∧
    Gathered codec served pending layout ∧
    (layout.cells (codec.sha256 data)).target = some data) (fun _ _ hdown h => ⟨hdown, h⟩)
    fun _ h => h.1.sound).bind fun downloads => Triple.of_fact fun hdownloads => ?_
  exact Triple.pure
    (fun _ h => h.1.add hserved h.2 hloads hblobs hdownloads mediaType annotation)
    fun _ h => h.1.sound

/-- Resolving an image changes the cache only, so what was gathered before is still there. -/
theorem resolveOrSkip_spec {sources : List Source} {tag : String} {skipUnavailable : Bool}
    {pending : Pending V} {request : Request} (hrequest : request.From served) :
    Triple (Gathered codec served pending)
      (resolveOrSkip codec request sources tag skipUnavailable)
      (fun resolved layout => (∀ answer, resolved = some answer → answer.1 ∈ served) ∧
        Gathered codec served pending layout)
      (Gathered codec served pending) := by
  let F (cells : Digest → Cell) : Prop :=
    ∀ layout : Layout, layout.cells = cells → Sound codec served layout →
      Gathered codec served pending layout
  have hF : ∀ layout, Gathered codec served pending layout → F layout.cells := by
    intro layout h other hcells hsound
    exact ⟨hsound, hcells ▸ h.stored, h.listed⟩
  have hG : ∀ layout, Sound codec served layout ∧ F layout.cells →
      Gathered codec served pending layout := fun layout h => h.2 layout rfl h.1
  refine Triple.recover ?_ fun error => ?_
  · refine ((resolveImage_spec hrequest (F := F)).conseq (fun layout h => ⟨h.sound, hF _ h⟩)
      (fun _ _ h => h) hG).bind fun answer => ?_
    refine Triple.pure ?_ fun layout h => hG layout h.2
    rintro layout ⟨hserved, h⟩
    refine ⟨?_, hG layout h⟩
    rintro _ ⟨rfl⟩
    exact hserved
  · unfold skipOrRaise
    split
    · exact Triple.pure (fun _ h => ⟨fun _ hnone => (nomatch hnone), h⟩) fun _ h => h
    · exact Triple.raise fun _ h => h

/-- **One image.** -/
theorem addImage_spec (hwf : WellFormed codec served) {sources : List Source}
    {skipUnavailable : Bool} {pending : Pending V} {request : Request}
    (hrequest : request.From served) :
    Triple (Gathered codec served pending)
      (addImage codec sources skipUnavailable pending request) (Gathered codec served)
      (Sound codec served) := by
  unfold addImage
  obtain ⟨repo, tag, annotation⟩ := splitImageReference request.image
  refine ((resolveOrSkip_spec hrequest).conseq (fun _ h => h) (fun _ _ h => h)
    fun _ h => h.sound).bind fun resolved => Triple.of_fact fun hserved => ?_
  split
  · exact Triple.pure (fun _ h => h) fun _ h => h.sound
  · exact addManifest_spec hwf (hserved _ rfl)

/-! ## The blobs -/

/-- The task of a digest stores the blob with the size that its manifest declares. -/
theorem downloadTask_spec {sources : List Source} {answers : Digest → ℕ → ℕ → ℕ → BlobReply}
    {downloads : List (Digest × String × Descriptor V)} {digest : Digest} :
    Triple (Genuine codec.sha256 digest) (downloadTask codec sources answers downloads digest)
      (fun _ cell => ∃ item ∈ downloads, ∃ size, item.1 = digest ∧ item.2.2.size = some size ∧
        Stored codec.sha256 digest size cell)
      (Genuine codec.sha256 digest) := by
  refine (Triple.ofExcept (Q := fun value cell => (digest, value) ∈ downloads ∧
    Genuine codec.sha256 digest cell) (fun value _ hvalue h => ⟨?_, h⟩) fun _ h => h).bind
    fun value => Triple.of_fact fun hmem => ?_
  · obtain ⟨before, after, rfl, -⟩ := List.lookup_eq_some_iff.mp (key_eq_ok.mp hvalue)
    simp
  · obtain ⟨repo, descriptor⟩ := value
    refine (Triple.ofExcept (Q := fun size cell => descriptor.size = some size ∧
      Genuine codec.sha256 digest cell) (fun _ _ hsize h => ⟨key_eq_ok.mp hsize, h⟩)
      fun _ h => h).bind fun size => Triple.of_fact fun hsize => ?_
    exact (downloadBlob_spec sources (answers digest) 8).conseq (fun _ h => h)
      (fun _ _ h => ⟨_, hmem, size, rfl, hsize, h⟩) fun _ h => h

/-- Every manifest of the index is stored, with its blobs. -/
def Ready (codec : Codec V) (served : Set Bytes) (descriptors : List IndexDescriptor)
    (cells : Digest → Cell) : Prop :=
  ∀ x ∈ descriptors, Holds codec served (servedManifests codec served) cells x.digest

/-- **The downloads** store every blob that the gathered manifests name. -/
theorem downloadAll_spec (hwf : WellFormed codec served) {sources : List Source}
    {answers : Digest → ℕ → ℕ → ℕ → BlobReply} {pending : Pending V} :
    Triple (Gathered codec served pending) (downloadAll codec sources answers pending.downloads)
      (fun _ layout => Sound codec served layout ∧
        Ready codec served pending.descriptors layout.cells) (Sound codec served) := by
  refine Triple.zoom fun layout h => ?_
  -- the digest of a download is that of a config or a layer, so what is stored there is genuine
  have hseparate : ∀ digest ∈ pending.downloads.map Prod.fst,
      ∀ data ∈ manifestBytes codec served, codec.sha256 data ≠ digest := by
    rintro _ hmem
    obtain ⟨item, hitem, rfl⟩ := List.mem_map.mp hmem
    obtain ⟨hdigest, hlisted⟩ := h.listed item hitem
    exact hwf.separate _ _ hlisted hdigest
  have htasks := Triple.parallel (pending.downloads.map Prod.fst)
    (downloadTask codec sources answers pending.downloads)
    (P := fun digest cell => cell = layout.cells digest)
    (C := fun digest cell => (∀ data ∈ manifestBytes codec served, codec.sha256 data ≠ digest) →
      Genuine codec.sha256 digest cell)
    (fun digest hdigest => downloadTask_spec.conseq
      (fun cell hcell => hcell ▸ h.sound.genuine digest (hseparate digest hdigest))
      (fun _ _ hstored => hstored) fun _ hgenuine _ => hgenuine)
    (fun digest cell hcell => hcell ▸ h.sound.genuine digest)
  refine htasks.conseq (fun cells hcells digest => hcells ▸ rfl) ?_ ?_
  · rintro _ cells ⟨hstored, hsame⟩
    refine ⟨⟨fun digest hmanifest => ?_, h.sound.cached⟩, fun x hx => ?_⟩
    · show Genuine codec.sha256 digest (cells digest)
      by_cases hmem : digest ∈ pending.downloads.map Prod.fst
      · obtain ⟨_, _, _, size, _, _, hcell⟩ := hstored digest hmem
        exact hcell.genuine
      · rw [hsame digest hmem]
        exact h.sound.genuine digest hmanifest
    · obtain ⟨data, hserved, hdigest, htarget, manifest, blobs, hloads, hblobs, hin⟩ :=
        h.stored x hx
      have hkept : x.digest ∉ pending.downloads.map Prod.fst := fun hmem =>
        hseparate _ hmem data (Or.inl ⟨hserved, manifest, hloads⟩) hdigest
      refine ⟨data, ⟨hserved, manifest, hloads⟩, hdigest, ?_, manifest, blobs, hloads, hblobs,
        fun y hy => ?_⟩
      · show (cells x.digest).target = some data
        rw [hsame _ hkept, htarget]
      · obtain ⟨digest, hmem, hy'⟩ := hin y hy
        have hlisted : Listed codec served y := ⟨data, hserved, manifest, blobs, hloads, hblobs, hy⟩
        -- the download's descriptor may be that of another manifest, which declares the same size
        obtain ⟨_, item, hitem, size, rfl, hsize, hcell⟩ := hstored digest hmem
        obtain ⟨hitem', hlisted'⟩ := h.listed item hitem
        rw [← hwf.sizes_agree y item.2.2 item.1 hlisted hlisted' hy' hitem'] at hsize
        refine ⟨⟨item.1, size, hy', hsize, hcell⟩, fun name hname => ?_⟩
        exact hwf.separate y name hlisted hname
  · exact fun cells hcells => ⟨hcells, h.sound.cached⟩

/-! ## The index -/

theorem Ready.index {descriptors manifests : List IndexDescriptor} :
    Triple (fun layout => Sound codec served layout ∧
        Ready codec served descriptors layout.cells) (writeIndex manifests)
      (fun _ layout => layout.index = .stored manifests ∧ Sound codec served layout ∧
        Ready codec served descriptors layout.cells) (Sound codec served) := by
  refine Triple.write ?_ (fun _ h => h.1) ?_ ?_
  · exact fun layout h => ⟨rfl, ⟨h.1.genuine, h.1.cached⟩, h.2⟩
  · rintro layout _ h rfl
    exact ⟨h.1.genuine, h.1.cached⟩
  · exact fun layout h => ⟨h.1.genuine, h.1.cached⟩

/-- A stored manifest stays stored, with its blobs, when another manifest is written. -/
theorem Holds.setTarget (hwf : WellFormed codec served) {manifests : Set Bytes}
    (hmanifests : manifests ⊆ manifestBytes codec served) {layout : Layout} {digest : Digest}
    (h : Holds codec served manifests layout.cells digest) {data : Bytes}
    (hdata : data ∈ manifestBytes codec served) :
    Holds codec served manifests (layout.setTarget (codec.sha256 data) data).cells digest := by
  obtain ⟨other, hother, rfl, htarget, manifest, blobs, hloads, hblobs, hall⟩ := h
  refine ⟨other, hother, rfl, hwf.target_setTarget hdata (hmanifests hother) htarget, manifest,
    blobs, hloads, hblobs, fun y hy => ?_⟩
  obtain ⟨⟨name, size, hname, hsize, hcell⟩, hseparate⟩ := hall y hy
  refine ⟨⟨name, size, hname, hsize, ?_⟩, hseparate⟩
  rwa [layout.setTarget_cells_of_ne _ (hseparate name hname data hdata).symm]

/-- What holds between two turns of `normalize_layout`: the manifests of the index are stored as
they were, and the normalized ones are stored with the sizes that their descriptors give. -/
structure Rewriting (codec : Codec V) (served : Set Bytes) (descriptors : List IndexDescriptor)
    (normalized : List IndexDescriptor) (layout : Layout) : Prop where
  sound : Sound codec served layout
  ready : Ready codec served descriptors layout.cells
  holds : ∀ x ∈ normalized, Holds codec served (manifestBytes codec served) layout.cells x.digest
  size : ∀ x ∈ normalized, ∀ data, (layout.cells x.digest).target = some data →
    data.length = x.size

theorem Holds.mem_of_target {manifests : Set Bytes} {cells : Digest → Cell} {digest : Digest}
    (h : Holds codec served manifests cells digest) {data : Bytes}
    (htarget : (cells digest).target = some data) : data ∈ manifests := by
  obtain ⟨source, hsource, -, hstored, -⟩ := h
  exact Option.some_inj.mp (hstored.symm.trans htarget) ▸ hsource

theorem dumps_mem_manifestBytes {data : Bytes} (hserved : data ∈ servedManifests codec served)
    {manifest normalized : Manifest V} (hloads : codec.loads data = .ok manifest)
    (hnormalized : normalizeManifest manifest = .ok normalized) :
    codec.dumps normalized ∈ manifestBytes codec served :=
  Or.inr ⟨data, hserved.1, manifest, normalized, hloads, hnormalized, rfl⟩

/-- A normalized manifest holds what the manifest it is made of holds. -/
theorem Holds.normalize (hwf : WellFormed codec served) {layout : Layout} {digest : Digest}
    (h : Holds codec served (servedManifests codec served) layout.cells digest) {data : Bytes}
    (htarget : (layout.cells digest).target = some data) {manifest normalized : Manifest V}
    (hloads : codec.loads data = .ok manifest)
    (hnormalized : normalizeManifest manifest = .ok normalized) :
    Holds codec served (manifestBytes codec served)
      (layout.setTarget (codec.sha256 (codec.dumps normalized)) (codec.dumps normalized)).cells
      (codec.sha256 (codec.dumps normalized)) := by
  have hserved := h.mem_of_target htarget
  have hdumps := dumps_mem_manifestBytes hserved hloads hnormalized
  obtain ⟨source, -, rfl, hsource, known, blobs, hknown, hblobs, hall⟩ := h
  obtain rfl := Option.some_inj.mp (htarget.symm.trans hsource)
  cases hloads.symm.trans hknown
  refine ⟨codec.dumps normalized, hdumps, rfl, layout.setTarget_target_self _ _, normalized,
    blobs.map Descriptor.normalize, hwf.loads_dumps data hserved.1 manifest normalized hloads
    hnormalized, normalizeManifest_blobs hnormalized hblobs, fun y hy => ?_⟩
  obtain ⟨y, hmem, rfl⟩ := List.mem_map.mp hy
  obtain ⟨⟨name, size, hname, hsize, hcell⟩, hseparate⟩ := hall y hmem
  refine ⟨⟨name, size, hname, hsize, ?_⟩, hseparate⟩
  rwa [layout.setTarget_cells_of_ne _ (hseparate name hname _ hdumps).symm]

/-- One turn of the loop of `normalize_layout`. -/
theorem Rewriting.add (hwf : WellFormed codec served)
    {descriptors normalized : List IndexDescriptor} {layout : Layout}
    (h : Rewriting codec served descriptors normalized layout) {x : IndexDescriptor}
    (hx : x ∈ descriptors) {data : Bytes} (htarget : (layout.cells x.digest).target = some data)
    {manifest rewritten : Manifest V} (hloads : codec.loads data = .ok manifest)
    (hrewritten : normalizeManifest manifest = .ok rewritten) (y : IndexDescriptor)
    (hdigest : y.digest = codec.sha256 (codec.dumps rewritten))
    (hsize : y.size = (codec.dumps rewritten).length) :
    Rewriting codec served descriptors (normalized ++ [y])
      (layout.setTarget (codec.sha256 (codec.dumps rewritten)) (codec.dumps rewritten)) := by
  have hnew := (h.ready x hx).normalize hwf htarget hloads hrewritten
  have hdumps := dumps_mem_manifestBytes ((h.ready x hx).mem_of_target htarget) hloads hrewritten
  refine ⟨h.sound.setTarget hdumps _, fun z hz =>
    (h.ready z hz).setTarget hwf (fun _ => Or.inl) hdumps, fun z hz => ?_, fun z hz => ?_⟩
  · rcases List.mem_append.mp hz with hz | hz
    · exact (h.holds z hz).setTarget hwf subset_rfl hdumps
    · rw [List.mem_singleton.mp hz, hdigest]
      exact hnew
  · intro written hwritten
    rcases List.mem_append.mp hz with hz | hz
    · obtain ⟨other, hother, hsha, hstored, -⟩ := h.holds z hz
      have hkept := hwf.target_setTarget hdumps hother (hsha ▸ hstored)
      rw [← hsha, hkept] at hwritten
      exact h.size z hz written (hwritten ▸ hstored)
    · obtain rfl := List.mem_singleton.mp hz
      rw [hdigest, layout.setTarget_target_self] at hwritten
      rw [hsize, Option.some_inj.mp hwritten]

theorem normalizeEntry_spec (hwf : WellFormed codec served)
    {descriptors normalized : List IndexDescriptor} {x : IndexDescriptor} (hx : x ∈ descriptors) :
    Triple (Rewriting codec served descriptors normalized) (normalizeEntry codec x)
      (fun y => Rewriting codec served descriptors (normalized ++ [y])) (Sound codec served) := by
  refine (Triple.read fun _ h => h.sound).bind fun layout => ?_
  split
  · exact Triple.raise fun _ h => h.2.sound
  · next data htarget =>
    let P (layout : Layout) := (layout.cells x.digest).target = some data ∧
      Rewriting codec served descriptors normalized layout
    refine (Triple.ofExcept (Q := fun manifest layout => codec.loads data = .ok manifest ∧ P layout)
      ?_ fun _ h => h.2.sound).bind fun manifest => Triple.of_fact fun hloads => ?_
    · rintro manifest _ hloads ⟨rfl, h⟩
      exact ⟨hloads, htarget, h⟩
    refine (Triple.ofExcept (Q := fun rewritten layout =>
      normalizeManifest manifest = .ok rewritten ∧ P layout) (fun _ _ hrewritten h =>
      ⟨hrewritten, h⟩) fun _ h => h.2.sound).bind fun rewritten =>
      Triple.of_fact fun hrewritten => ?_
    have hwritten : ∀ layout written, P layout → Sound codec served
        (layout.setTarget (codec.sha256 (codec.dumps rewritten)) written) := by
      rintro layout written ⟨htarget, h⟩
      have hserved := (h.ready x hx).mem_of_target htarget
      exact h.sound.setTarget (dumps_mem_manifestBytes hserved hloads hrewritten) written
    refine (writeBlob_spec (Q := fun _ => Rewriting codec served descriptors (normalized ++
      [{ x with
        mediaType := ociManifest
        digest := codec.sha256 (codec.dumps rewritten)
        size := (codec.dumps rewritten).length }])) ?_ (fun _ h => h.2.sound) hwritten).bind
      fun _ => Triple.pure (fun _ h => h) fun _ h => h.sound
    rintro layout ⟨htarget, h⟩
    exact h.add hwf hx htarget hloads hrewritten _ rfl rfl

/-- The index of the normalized manifests closes the layout. -/
theorem Rewriting.closed {descriptors normalized : List IndexDescriptor} {layout : Layout}
    (h : Rewriting codec served descriptors normalized layout) :
    Closed codec { layout with index := .stored normalized } := by
  refine ⟨normalized, rfl, fun x hx => ?_⟩
  obtain ⟨data, -, hdigest, htarget, manifest, blobs, hloads, hblobs, hall⟩ := h.holds x hx
  exact ⟨⟨data, htarget, hdigest, congrArg Nat.cast (h.size x hx data htarget)⟩, data, manifest,
    blobs, htarget, hloads, hblobs, fun y hy => (hall y hy).1⟩

/-- **`normalize_layout`** leaves a closed layout. -/
theorem normalizeLayout_spec (hwf : WellFormed codec served)
    {descriptors : List IndexDescriptor} :
    Triple (fun layout => layout.index = .stored descriptors ∧ Sound codec served layout ∧
        Ready codec served descriptors layout.cells) (normalizeLayout codec)
      (fun _ layout => Closed codec layout ∧ Sound codec served layout) (Sound codec served) := by
  refine (Triple.read fun _ h => h.2.1).bind fun layout => ?_
  split
  · exact Triple.raise fun _ h => h.2.2.1
  · exact Triple.raise fun _ h => h.2.2.1
  · next manifests hindex =>
    have hloop := Triple.foldlM (I := Rewriting codec served manifests)
      (f := fun normalized descriptor => do
        let descriptor ← normalizeEntry codec descriptor
        return normalized ++ [descriptor])
      manifests (fun x hx normalized => (normalizeEntry_spec hwf hx).bind fun y =>
        Triple.pure (fun _ h => h) fun _ h => h.sound) (fun _ _ h => h.sound) []
    refine (hloop.conseq ?_ (fun _ _ h => h) fun _ h => h).bind fun normalized => ?_
    · rintro _ ⟨rfl, hstored, hsound, hready⟩
      cases hstored.symm.trans hindex
      exact ⟨hsound, hready, fun _ hz => absurd hz List.not_mem_nil,
        fun _ hz => absurd hz List.not_mem_nil⟩
    · have hwrite : Triple (Rewriting codec served manifests normalized) (writeIndex normalized)
          (fun _ layout => Closed codec layout ∧ Sound codec served layout)
          (Sound codec served) := by
        refine Triple.write ?_ (fun _ h => h.sound) ?_ ?_
        · exact fun layout h => ⟨h.closed, h.sound.genuine, h.sound.cached⟩
        · rintro layout _ h rfl
          exact ⟨h.sound.genuine, h.sound.cached⟩
        · exact fun layout h => ⟨h.sound.genuine, h.sound.cached⟩
      exact hwrite.bind fun _ => Triple.pure (fun _ h => h) fun _ h => h.2

/-! ## Runs -/

/-- **`build_layout`** keeps `Sound` wherever it is stopped, and leaves a closed layout where it
returns. -/
theorem buildLayout_spec (hwf : WellFormed codec served) {call : Call}
    (hcall : (Run.build call).From served) :
    Triple (Sound codec served) (buildLayout codec call)
      (fun _ layout => Closed codec layout ∧ Sound codec served layout) (Sound codec served) := by
  have himages := Triple.foldlM (I := Gathered codec served)
    (f := addImage codec call.manifestSources call.skipUnavailable) call.requests
    (fun request hrequest pending => addImage_spec hwf (hcall request hrequest))
    (fun _ _ h => h.sound) {}
  refine (himages.conseq ?_ (fun _ _ h => h) fun _ h => h).bind fun pending => ?_
  · exact fun layout h => ⟨h, fun _ hx => absurd hx List.not_mem_nil,
      fun _ hx => absurd hx List.not_mem_nil⟩
  refine (Triple.ofExcept (Q := fun _ => Gathered codec served pending) (fun _ _ _ h => h)
    fun _ h => h.sound).bind fun compressedBytes => ?_
  split
  · exact Triple.raise fun _ h => h.sound
  · refine (downloadAll_spec hwf).bind fun _ => ?_
    refine Ready.index.bind fun _ => ?_
    exact (normalizeLayout_spec hwf).bind fun _ => Triple.pure (fun _ h => h) fun _ h => h.2

theorem Run.program_spec (hwf : WellFormed codec served) {run : Run} (hrun : run.From served) :
    Triple (Sound codec served) (run.program codec) (fun _ _ => True) (Sound codec served) := by
  cases run with
  | build call =>
    exact (buildLayout_spec hwf hrun).bind fun _ => Triple.pure (fun _ _ => trivial) fun _ h => h.2
  | download sources answers retries digest expectedSize =>
    refine Triple.bind (R := fun _ => Sound codec served) (Triple.zoom fun layout h => ?_)
      fun _ => Triple.pure (fun _ _ => trivial) fun _ h => h
    have hset : ∀ cell, ((∀ data ∈ manifestBytes codec served, codec.sha256 data ≠ digest) →
        Genuine codec.sha256 digest cell) → Sound codec served
          { layout with cells := Function.update layout.cells digest cell } := by
      refine fun cell hcell => ⟨fun other hother => ?_, h.cached⟩
      show Genuine codec.sha256 other (Function.update layout.cells digest cell other)
      rcases eq_or_ne other digest with rfl | hne
      · rw [Function.update_self]
        exact hcell hother
      · rw [Function.update_of_ne hne]
        exact h.genuine other hother
    by_cases hseparate : ∀ data ∈ manifestBytes codec served, codec.sha256 data ≠ digest
    · exact (downloadBlob_spec sources answers retries).conseq
        (fun cell hcell => hcell ▸ h.genuine digest hseparate)
        (fun _ cell hstored => hset cell fun _ => hstored.genuine)
        fun cell hgenuine => hset cell fun _ => hgenuine
    · -- the file of a manifest, of which nothing is asked
      exact Triple.true.conseq (fun _ _ => hseparate)
        (fun _ cell _ => hset cell fun h => absurd h hseparate)
        fun cell _ => hset cell fun h => absurd h hseparate

/-- **Every history of runs keeps `Sound`**, wherever each of them was stopped. -/
theorem Sound.history (hwf : WellFormed codec served) {layout : Layout}
    (history : History (Run.From served) (Run.program codec) {} layout) :
    Sound codec served layout :=
  history.invariant (sound_empty codec served) fun _ hrun => Run.program_spec hwf hrun

/-- **A finished layout is closed.** After any runs on a directory, each returned, raised or
interrupted anywhere, a call of `build_layout` that returns leaves an index whose descriptors name
stored manifests by digest and size, and every config and layer that such a manifest names is stored
under its digest, with bytes of that digest and of the declared size. -/
theorem finished_layout_closed (codec : Codec V) {served : Set Bytes}
    (hwf : WellFormed codec served) {layout : Layout}
    (history : History (Run.From served) (Run.program codec) {} layout) {call : Call}
    (hcall : (Run.build call).From served) {summary : Summary}
    (hreturns : (buildLayout codec call layout).outcome = .ok summary) :
    Closed codec (buildLayout codec call layout).final :=
  ((buildLayout_spec hwf hcall).returns layout (Sound.history hwf history) summary hreturns).1

/-! ## A drill

The layer's download is killed after its first byte, then a mirror corrupts the config and
`build_layout` raises, then it returns. The layer is continued from its part in the second run, and
trusted for its size in the third. -/

def drillConfig : Digest := 0x44136fa355b3678a1146ad16f7e8649e94fb4fc21fe77e8310c060f61caaff8a

def drillLayer : Digest := 0xbaa89858c7e545390273530ba63c61b94c2e09d38c28b0a0311bfa7bde396181

def drillManifest : Manifest Unit where
  mediaType := .absent
  config := some ⟨.absent, some drillConfig, some 2, ()⟩
  layers := some [⟨.absent, some drillLayer, some 3, ()⟩]
  other := ()

def drillNormalized : Manifest Unit where
  mediaType := .text ociManifest
  config := some ⟨.null, some drillConfig, some 2, ()⟩
  layers := some [⟨.null, some drillLayer, some 3, ()⟩]
  other := ()

@[irreducible] def drillServed : Bytes :=
  encode "\x7b\"config\":\x7b\"digest\":\"sha256:" ++
    encode "44136fa355b3678a1146ad16f7e8649e94fb4fc21fe77e8310c060f61caaff8a" ++
    encode "\",\"size\":2\x7d,\"layers\":[\x7b\"digest\":\"sha256:" ++
    encode "baa89858c7e545390273530ba63c61b94c2e09d38c28b0a0311bfa7bde396181" ++
    encode "\",\"size\":3\x7d]\x7d"

@[irreducible] def drillStored : Bytes :=
  encode "\x7b\"config\":\x7b\"digest\":\"sha256:" ++
    encode "44136fa355b3678a1146ad16f7e8649e94fb4fc21fe77e8310c060f61caaff8a" ++
    encode "\",\"mediaType\":null,\"size\":2\x7d,\"layers\":[\x7b\"digest\":\"sha256:" ++
    encode "baa89858c7e545390273530ba63c61b94c2e09d38c28b0a0311bfa7bde396181" ++
    encode "\",\"mediaType\":null,\"size\":3\x7d]," ++
    encode "\"mediaType\":\"application/vnd.oci.image.manifest.v1+json\"\x7d"

/-- `sha256` and JSON on the texts of the drill; any other text is taken for the image's name. -/
def drillCodec : Codec Unit where
  sha256 data :=
    if data = encode "\x7b\x7d" then drillConfig
    else if data = [0x1f, 0x8b, 0x08] then drillLayer
    else if data = drillServed then
      0x3ed23d2dc00a968057be3b262b70efd0cd5e8289b665f0133432812d0b4cd393
    else if data = drillStored then
      0xb9b8e15e87e9324815fbcc90022ae08d2416c1be0cfbe20deb78cf77e099fe3e
    else if data = encode "\x7b\x7b" then
      0x9d0e8aa2892a9f23fa7f89051a4ae0a05c2c4858c25a86c4e9ebf9060b9a63b2
    else 0x5578bf39de2271224eae832746650f2ba3242c6cc1c30b9d1de7eb597767cf85
  loads data :=
    if data = drillServed then .ok drillManifest
    else if data = drillStored then .ok drillNormalized
    else .error (.valueError "Expecting value")
  dumps manifest := if manifest = drillNormalized then drillStored else []

/-- A call with one image, whose config a mirror answers with the given bytes. -/
def drillCall (config : Bytes) : Call where
  requests := [
    { image := "swe/x:v1"
      token := fun _ _ => none
      manifest := fun _ _ attempt =>
        if attempt = 0 then .error (.httpError 503)
        else .ok (drillServed, "application/vnd.docker.distribution.manifest.v2+json") }]
  workers := 6
  layerSources := [⟨"https://mirror", none⟩]
  manifestSources := [⟨"https://mirror", none⟩]
  skipUnavailable := false
  blobs := fun digest _ _ _ =>
    if digest = drillConfig then .response (some 200) config none
    else .response (some 206) [0x8b, 0x08] none

/-- The download of the layer alone. -/
def drillDownload : Run :=
  .download [⟨"https://mirror", none⟩] (fun _ _ _ => .response (some 200) [0x1f, 0x8b, 0x08] none)
    8 drillLayer 3

/-- The layout after the kill. -/
def drillKilled : Layout :=
  { cells := Function.update (fun _ => {}) drillLayer { temporary := some [0x1f] } }

/-- The layout after the exception. -/
def drillRaised : Layout :=
  (buildLayout drillCodec (drillCall (encode "\x7b\x7b")) drillKilled).final

theorem drillCall_from (config : Bytes) : (Run.build (drillCall config)).From {drillServed} := by
  rintro request (_ | ⟨_, ⟨⟩⟩) index reference attempt answer hanswer
  replace hanswer : (if attempt = 0 then Except.error (PyError.httpError 503)
    else .ok (drillServed, "application/vnd.docker.distribution.manifest.v2+json")) =
      .ok answer := hanswer
  split at hanswer
  · cases hanswer
  · rw [← Except.ok.inj hanswer]
    exact Set.mem_singleton _

theorem drillKilled_left : (drillDownload.program drillCodec {}).Leaves drillKilled :=
  Or.inl (Or.inl ⟨{ temporary := some [0x1f] },
    Or.inr (Or.inl (Or.inl (Or.inl (Or.inr (Or.inl (Or.inr ⟨1, rfl⟩)))))), rfl⟩)

theorem drill_history :
    History (Run.From {drillServed}) (Run.program drillCodec) {} drillRaised :=
  (Relation.ReflTransGen.refl.tail ⟨drillDownload, trivial, drillKilled_left⟩).tail
    ⟨.build (drillCall (encode "\x7b\x7b")), drillCall_from _,
      Or.inr (Program.final_bind_pure _ _ _).symm⟩

theorem drill_loads : drillCodec.loads drillServed = .ok drillManifest := if_pos rfl

theorem drill_normalize : normalizeManifest drillManifest = .ok drillNormalized := rfl

theorem drill_dumps : drillCodec.dumps drillNormalized = drillStored := by
  show (if drillNormalized = drillNormalized then drillStored else []) = drillStored
  rw [if_pos rfl]

theorem drill_loads_stored : drillCodec.loads drillStored = .ok drillNormalized := by
  have hne : drillStored ≠ drillServed := by decide +kernel
  show (if drillStored = drillServed then _ else _) = _
  rw [if_neg hne, if_pos rfl]

theorem drill_sha256 :
    drillCodec.sha256 drillServed =
        0x3ed23d2dc00a968057be3b262b70efd0cd5e8289b665f0133432812d0b4cd393 ∧
      drillCodec.sha256 drillStored =
        0xb9b8e15e87e9324815fbcc90022ae08d2416c1be0cfbe20deb78cf77e099fe3e := by
  decide +kernel

theorem drill_manifestBytes {data : Bytes} (h : data ∈ manifestBytes drillCodec {drillServed}) :
    data = drillServed ∨ data = drillStored := by
  rcases h with ⟨h, -⟩ | ⟨source, h, manifest, normalized, hloads, hnormalized, rfl⟩
  · exact Or.inl h
  · rw [Set.mem_singleton_iff.mp h, drill_loads] at hloads
    obtain rfl := Except.ok.inj hloads
    rw [drill_normalize] at hnormalized
    obtain rfl := Except.ok.inj hnormalized
    exact Or.inr drill_dumps

theorem drill_listed {x : Descriptor Unit} (h : Listed drillCodec {drillServed} x) :
    x.digest = some drillConfig ∧ x.size = some 2 ∨
      x.digest = some drillLayer ∧ x.size = some 3 := by
  obtain ⟨data, hdata, manifest, blobs, hloads, hblobs, hx⟩ := h
  rw [Set.mem_singleton_iff.mp hdata, drill_loads] at hloads
  obtain rfl := Except.ok.inj hloads
  obtain rfl := Except.ok.inj hblobs
  rcases hx with _ | ⟨_, _ | ⟨_, ⟨⟩⟩⟩
  · exact Or.inl ⟨rfl, rfl⟩
  · exact Or.inr ⟨rfl, rfl⟩

theorem drill_wellFormed : WellFormed drillCodec {drillServed} where
  loads_dumps := by
    intro data hdata manifest normalized hloads hnormalized
    rw [Set.mem_singleton_iff.mp hdata, drill_loads] at hloads
    obtain rfl := Except.ok.inj hloads
    rw [drill_normalize] at hnormalized
    obtain rfl := Except.ok.inj hnormalized
    rw [drill_dumps, drill_loads_stored]
  injOn := by
    have hne : drillCodec.sha256 drillServed ≠ drillCodec.sha256 drillStored := by
      rw [drill_sha256.1, drill_sha256.2]
      decide
    intro data hdata other hother heq
    rcases drill_manifestBytes hdata with rfl | rfl <;>
      rcases drill_manifestBytes hother with rfl | rfl
    · rfl
    · exact absurd heq hne
    · exact absurd heq.symm hne
    · rfl
  sizes_agree := by
    have hne : drillConfig ≠ drillLayer := by decide
    intro x y digest hx hy hxd hyd
    rcases drill_listed hx with ⟨hx, hxs⟩ | ⟨hx, hxs⟩ <;>
      rcases drill_listed hy with ⟨hy, hys⟩ | ⟨hy, hys⟩
    · rw [hxs, hys]
    · exact absurd (Option.some_inj.mp (hx.symm.trans (hxd.trans (hyd.symm.trans hy)))) hne
    · exact absurd (Option.some_inj.mp (hy.symm.trans (hyd.trans (hxd.symm.trans hx)))) hne
    · rw [hxs, hys]
  separate := by
    have hserved : drillCodec.sha256 drillServed ≠ drillConfig ∧
        drillCodec.sha256 drillServed ≠ drillLayer := by
      rw [drill_sha256.1]
      decide
    have hstored : drillCodec.sha256 drillStored ≠ drillConfig ∧
        drillCodec.sha256 drillStored ≠ drillLayer := by
      rw [drill_sha256.2]
      decide
    intro x digest hx hdigest data hdata
    rcases drill_listed hx with ⟨hx, -⟩ | ⟨hx, -⟩ <;>
      rcases drill_manifestBytes hdata with rfl | rfl <;>
      rw [Option.some_inj.mp (hdigest.symm.trans hx)]
    · exact hserved.1
    · exact hstored.1
    · exact hserved.2
    · exact hstored.2

theorem drill_closed :
    Closed drillCodec
      (buildLayout drillCodec (drillCall (encode "\x7b\x7d")) drillRaised).final := by
  have hreturns : (buildLayout drillCodec (drillCall (encode "\x7b\x7d")) drillRaised).outcome =
      .ok { images := 1, uniqueBlobs := 2, compressedBytes := 5 } := by decide +kernel
  exact finished_layout_closed drillCodec drill_wellFormed drill_history (drillCall_from _) hreturns

end Oci
