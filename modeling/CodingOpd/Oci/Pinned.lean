import CodingOpd.Oci.Closed

/-!
# Manifests resolved through an index

Where the tag of an image names a multi-platform index, `build_layout` fetches the manifest of the
entry for `linux/amd64` by the digest that the index gives. It never compares the answer with that
digest: `_write_verified` and the manifest cache check the bytes against a digest of the same bytes.
What the cache holds, what is stored and what `index.json` names are as pinned as the registries'
answers are.

## Main definitions

* `Request.Picks`: the tag of an image names an index that picks a digest
* `Request.Pins`: the registry answers to a picked digest with bytes of that digest
* `Request.Resolves`: bytes that the tag of an image names, pinned where it names an index
* `Remembers`: what every run keeps of the manifest cache
* `buildIndex`: `build_layout` up to the index before it is normalized

## Main results

* `buildLayout_eq`: after the index, `build_layout` only normalizes
* `manifests_pinned`: where the registries pin their manifests, so do all runs
-/

open Python Interruption

namespace Oci

variable {V : Type}

/-! ## Picked digests -/

/-- `_digest`, of the bytes with a digest: `"sha256:"` and 64 hexadecimal digits. -/
def digestText (digest : Digest) : String :=
  let digits := Nat.toDigits 16 digest.toNat
  "sha256:" ++ String.ofList (List.replicate (64 - digits.length) '0' ++ digits)

/-- The tag that is asked for. -/
def Request.tag (request : Request) : String := (splitImageReference request.image).2.1

section Picks

variable (codec : Codec V) (request : Request) (sources : List Source)

/-- The tag of the image names an index, and the entry that is picked has the digest. -/
def Request.Picks (reference : String) : Prop :=
  ∃ answer manifest items item rest, request.fetchManifest request.tag sources 0 none = .ok answer ∧
    codec.loads answer.1 = .ok manifest ∧ manifest.manifests = some items ∧
    candidates items = item :: rest ∧ item.digest = some reference

/-- The answer to a picked digest has that digest. -/
def Request.Pins : Prop :=
  ∀ reference answer, request.Picks codec sources reference →
    request.fetchManifest reference sources 0 none = .ok answer →
    digestText (codec.sha256 answer.1) = reference

/-- Bytes that the tag of the image names: its manifest, or bytes of the digest that its index
picks. -/
def Request.Resolves (data : Bytes) : Prop :=
  (∃ answer manifest, request.fetchManifest request.tag sources 0 none = .ok answer ∧
    codec.loads answer.1 = .ok manifest ∧ manifest.manifests = none ∧ answer.1 = data) ∨
  ∃ reference, request.Picks codec sources reference ∧ digestText (codec.sha256 data) = reference

variable {codec request sources}

/-- **What an image is resolved to is pinned**, where the answers are. -/
theorem Request.Pins.fetchImage (hpins : request.Pins codec sources) {answer : Bytes × String}
    (h : request.fetchImage codec sources request.tag = .ok answer) :
    request.Resolves codec sources answer.1 := by
  obtain ⟨first, hfetch, h⟩ := bind_eq_ok.mp h
  obtain ⟨manifest, hloads, h⟩ := bind_eq_ok.mp h
  split at h
  case h_1 hmanifest =>
    cases h
    exact Or.inl ⟨first, manifest, hfetch, hloads, hmanifest, rfl⟩
  case h_2 items hitems =>
    split at h
    case h_1 => cases h
    case h_2 item rest hcandidates =>
      obtain ⟨reference, hdigest, h⟩ := bind_eq_ok.mp h
      have hpicks : request.Picks codec sources reference :=
        ⟨first, manifest, items, item, rest, hfetch, hloads, hitems, hcandidates,
          key_eq_ok.mp hdigest⟩
      exact Or.inr ⟨reference, hpicks, hpins reference answer hpicks h⟩

end Picks

/-! ## What every run keeps -/

section Remembers

variable (codec : Codec V) (past : Set (Request × List Source))

/-- Bytes that one of the requests for an image resolved. -/
def Resolved (image : String) (data : Bytes) : Prop :=
  ∃ asked ∈ past, asked.1.image = image ∧ asked.1.Resolves codec asked.2 data

/-- The requests of a run are among the given ones, and their answers are pinned. -/
def Run.Pins : Run → Prop
  | .build call => ∀ request ∈ call.requests, (request, call.manifestSources) ∈ past ∧
      request.Pins codec call.manifestSources
  | .download _ _ _ _ _ => True

/-- The cache holds bytes that were resolved. -/
def Remembers (layout : Layout) : Prop :=
  ∀ name entry, layout.cache name = some entry → Resolved codec past entry.image entry.data

/-- What an image is resolved to on a layout: by an earlier request where the cache has it, by this
one otherwise. -/
def Pinned (request : Request) (sources : List Source) (layout : Layout) (data : Bytes) : Prop :=
  match loadManifestCache codec request.image layout with
  | some _ => Resolved codec past request.image data
  | none => request.Resolves codec sources data

variable {codec past}

theorem Remembers.loadManifestCache {layout : Layout} (h : Remembers codec past layout)
    {image : String} {answer : Bytes × String}
    (hcached : loadManifestCache codec image layout = some answer) :
    Resolved codec past image answer.1 := by
  unfold Oci.loadManifestCache at hcached
  split at hcached
  · cases hcached
  · next entry hentry =>
    split_ifs at hcached with himage
    cases hcached
    exact (not_not.mp himage) ▸ h _ entry hentry

/-- Resolved bytes may be added to the cache. -/
theorem Remembers.remember {layout : Layout} (h : Remembers codec past layout) (name : Digest)
    (entry : CacheEntry) (hentry : Resolved codec past entry.image entry.data) :
    Remembers codec past
      { layout with cache := Function.update layout.cache name (some entry) } := by
  intro other found hfound
  replace hfound : Function.update layout.cache name (some entry) other = some found := hfound
  rcases eq_or_ne other name with rfl | hne
  · rw [Function.update_self] at hfound
    exact Option.some_inj.mp hfound ▸ hentry
  · rw [Function.update_of_ne hne] at hfound
    exact h other found hfound

/-- **An image is resolved** to pinned bytes, and only the cache changes. -/
theorem resolveImage_pinned {request : Request} {sources : List Source}
    (hpast : (request, sources) ∈ past) (hpins : request.Pins codec sources)
    {F : (Digest → Cell) → Prop} (start : Layout) :
    Triple (fun layout => layout = start ∧ Remembers codec past layout ∧ F layout.cells)
      (resolveImage codec request sources request.tag)
      (fun answer layout => Pinned codec past request sources start answer.1 ∧
        Resolved codec past request.image answer.1 ∧ Remembers codec past layout ∧ F layout.cells)
      (fun layout => Remembers codec past layout ∧ F layout.cells) := by
  refine (Triple.read fun _ h => h.2).bind fun layout => ?_
  split
  · next answer hcached =>
    refine Triple.pure ?_ fun _ h => h.2.2
    rintro _ ⟨rfl, rfl, h⟩
    have hresolved := h.1.loadManifestCache hcached
    refine ⟨?_, hresolved, h⟩
    rw [Pinned, hcached]
    exact hresolved
  · next hmissing =>
    refine (Triple.ofExcept (Q := fun answer other => Pinned codec past request sources start
      answer.1 ∧ Resolved codec past request.image answer.1 ∧ Remembers codec past other ∧
      F other.cells) ?_ fun _ h => h.2.2).bind fun answer => ?_
    · rintro answer _ hfetch ⟨rfl, rfl, h⟩
      have hresolves := hpins.fetchImage hfetch
      refine ⟨?_, ⟨_, hpast, rfl, hresolves⟩, h⟩
      rw [Pinned, hmissing]
      exact hresolves
    · refine Triple.of_fact fun hpinned => Triple.of_fact fun hresolved => ?_
      have hwrite := fun layout (h : Remembers codec past layout ∧ F layout.cells) =>
        And.intro (h.1.remember (cacheKey codec request.image)
          ⟨request.image, answer.2, codec.sha256 answer.1, answer.1⟩ hresolved) h.2
      refine (Triple.modify (Q := fun _ layout => Remembers codec past layout ∧ F layout.cells)
        hwrite (fun _ h => h) hwrite).bind fun _ => ?_
      exact Triple.pure (fun _ h => ⟨hpinned, hresolved, h⟩) fun _ h => h

/-! ## The images -/

/-- A descriptor of bytes that were resolved for its image. -/
def IndexDescriptor.Pinned (codec : Codec V) (past : Set (Request × List Source))
    (descriptor : IndexDescriptor) : Prop :=
  ∃ image data, Resolved codec past image data ∧
    (splitImageReference image).2.2 = descriptor.refName ∧
    descriptor.digest = codec.sha256 data ∧ descriptor.size = data.length

/-- The file of a digest holds bytes of that digest. -/
def HasDigest (codec : Codec V) (cells : Digest → Cell) (digest : Digest) : Prop :=
  ∃ data, (cells digest).target = some data ∧ codec.sha256 data = digest

/-- What holds between two images: their manifests are pinned, and stored under their digests. -/
structure Collected (codec : Codec V) (past : Set (Request × List Source))
    (descriptors : List IndexDescriptor) (layout : Layout) : Prop where
  remembers : Remembers codec past layout
  pinned : ∀ x ∈ descriptors, x.Pinned codec past
  stored : ∀ x ∈ descriptors, HasDigest codec layout.cells x.digest

/-- Bytes that are written under their digest leave bytes of its digest under every other. -/
theorem HasDigest.setTarget {layout : Layout} {digest : Digest}
    (h : HasDigest codec layout.cells digest) (data : Bytes) :
    HasDigest codec (layout.setTarget (codec.sha256 data) data).cells digest := by
  rcases eq_or_ne digest (codec.sha256 data) with rfl | hne
  · exact ⟨data, layout.setTarget_target_self _ _, rfl⟩
  · rw [HasDigest, layout.setTarget_cells_of_ne data hne]
    exact h

theorem Collected.setTarget {descriptors : List IndexDescriptor} {layout : Layout}
    (h : Collected codec past descriptors layout) (data : Bytes) :
    Collected codec past descriptors (layout.setTarget (codec.sha256 data) data) where
  remembers := h.remembers
  pinned := h.pinned
  stored x hx := (h.stored x hx).setTarget data

/-- The images so far with one more, whose manifest is stored. -/
theorem Collected.add {descriptors : List IndexDescriptor} {layout : Layout}
    (h : Collected codec past descriptors layout) {x : IndexDescriptor}
    (hpinned : x.Pinned codec past) (hstored : HasDigest codec layout.cells x.digest) :
    Collected codec past (descriptors ++ [x]) layout where
  remembers := h.remembers
  pinned := by
    intro y hy
    rcases List.mem_append.mp hy with hy | hy
    · exact h.pinned y hy
    · exact List.mem_singleton.mp hy ▸ hpinned
  stored := by
    intro y hy
    rcases List.mem_append.mp hy with hy | hy
    · exact h.stored y hy
    · exact List.mem_singleton.mp hy ▸ hstored

theorem addManifest_pinned {image repo mediaType : String} {pending : Pending V} {data : Bytes}
    (hresolved : Resolved codec past image data) :
    Triple (Collected codec past pending.descriptors)
      (addManifest codec repo (splitImageReference image).2.2 pending data mediaType)
      (fun pending => Collected codec past pending.descriptors) (Remembers codec past) := by
  refine (Triple.ofExcept (Q := fun _ => Collected codec past pending.descriptors)
    (fun _ _ _ h => h) fun _ h => h.remembers).bind fun manifest => ?_
  have hwrite : Triple (Collected codec past pending.descriptors)
      (writeVerified codec (codec.sha256 data) data)
      (fun _ layout => Collected codec past pending.descriptors layout ∧
        HasDigest codec layout.cells (codec.sha256 data)) (Remembers codec past) := by
    rw [writeVerified, if_neg (not_not.mpr rfl)]
    exact writeBlob_spec
      (fun layout h => ⟨h.setTarget data, data, layout.setTarget_target_self _ _, rfl⟩)
      (fun _ h => h.remembers) fun _ _ h => h.remembers
  refine hwrite.bind fun _ => ?_
  refine (Triple.ofExcept (Q := fun _ layout => Collected codec past pending.descriptors layout ∧
    HasDigest codec layout.cells (codec.sha256 data)) (fun _ _ _ h => h)
    fun _ h => h.1.remembers).bind fun blobs => ?_
  refine (Triple.ofExcept (Q := fun _ layout => Collected codec past pending.descriptors layout ∧
    HasDigest codec layout.cells (codec.sha256 data)) (fun _ _ _ h => h)
    fun _ h => h.1.remembers).bind fun downloads => ?_
  refine Triple.pure ?_ fun _ h => h.1.remembers
  rintro layout ⟨h, hstored⟩
  exact h.add ⟨image, data, hresolved, rfl, rfl, rfl⟩ hstored

theorem resolveOrSkip_pinned {request : Request} {sources : List Source} {skipUnavailable : Bool}
    (hpast : (request, sources) ∈ past) (hpins : request.Pins codec sources)
    {descriptors : List IndexDescriptor} :
    Triple (Collected codec past descriptors)
      (resolveOrSkip codec request sources request.tag skipUnavailable)
      (fun resolved layout => (∀ answer, resolved = some answer →
        Resolved codec past request.image answer.1) ∧ Collected codec past descriptors layout)
      (Collected codec past descriptors) := by
  refine Triple.recover ?_ fun error => ?_
  · have hresolve : Triple (Collected codec past descriptors)
        (resolveImage codec request sources request.tag)
        (fun answer layout => Resolved codec past request.image answer.1 ∧
          Collected codec past descriptors layout) (Collected codec past descriptors) := by
      constructor
      · intro start h left hleft
        have hkept := (resolveImage_pinned (F := fun cells => cells = start.cells) hpast hpins
          start).leaves start ⟨rfl, h.remembers, rfl⟩ left hleft
        exact ⟨hkept.1, h.pinned, hkept.2 ▸ h.stored⟩
      · intro start h answer hanswer
        have hkept := (resolveImage_pinned (F := fun cells => cells = start.cells) hpast hpins
          start).returns start ⟨rfl, h.remembers, rfl⟩ answer hanswer
        exact ⟨hkept.2.1, hkept.2.2.1, h.pinned, hkept.2.2.2 ▸ h.stored⟩
    refine hresolve.bind fun answer => Triple.pure ?_ fun _ h => h.2
    rintro layout ⟨hresolved, h⟩
    refine ⟨?_, h⟩
    rintro _ ⟨rfl⟩
    exact hresolved
  · unfold skipOrRaise
    split
    · exact Triple.pure (fun _ h => ⟨fun _ hnone => (nomatch hnone), h⟩) fun _ h => h
    · exact Triple.raise fun _ h => h

/-- **One image.** -/
theorem addImage_pinned {request : Request} {sources : List Source} {skipUnavailable : Bool}
    (hpast : (request, sources) ∈ past) (hpins : request.Pins codec sources)
    {pending : Pending V} :
    Triple (Collected codec past pending.descriptors)
      (addImage codec sources skipUnavailable pending request)
      (fun pending => Collected codec past pending.descriptors) (Remembers codec past) := by
  rw [addImage_eq]
  refine ((resolveOrSkip_pinned hpast hpins).conseq (fun _ h => h) (fun _ _ h => h)
    fun _ h => h.remembers).bind fun resolved => Triple.of_fact fun hresolved => ?_
  cases resolved with
  | none => exact Triple.pure (fun _ h => h) fun _ h => h.remembers
  | some answer => exact addManifest_pinned (hresolved _ rfl)

/-! ## The index -/

/-- The downloads leave bytes of its digest under every digest that had such bytes. -/
theorem downloadAll_pinned {sources : List Source} {answers : Digest → ℕ → ℕ → ℕ → BlobReply}
    {descriptors : List IndexDescriptor} {downloads : List (Digest × String × Descriptor V)} :
    Triple (Collected codec past descriptors) (downloadAll codec sources answers downloads)
      (fun _ => Collected codec past descriptors) (Remembers codec past) := by
  refine Triple.zoom fun layout h => ?_
  have htasks := Triple.parallel (downloads.map Prod.fst)
    (downloadTask codec sources answers downloads)
    (P := fun digest cell => cell = layout.cells digest)
    (Q := fun digest _ cell => Genuine codec.sha256 digest (layout.cells digest) →
      ∃ data, cell.target = some data ∧ codec.sha256 data = digest)
    (C := fun _ _ => True) ?_ fun _ _ _ => trivial
  · refine htasks.conseq (fun cells hcells digest => hcells ▸ rfl) ?_ fun _ _ => h.remembers
    rintro _ cells ⟨hdone, hsame⟩
    refine ⟨h.remembers, h.pinned, fun x hx => ?_⟩
    obtain ⟨data, htarget, hdigest⟩ := h.stored x hx
    by_cases hmem : x.digest ∈ downloads.map Prod.fst
    · obtain ⟨_, hgenuine⟩ := hdone x.digest hmem
      apply hgenuine
      intro other hother
      rw [Option.some_inj.mp (hother.symm.trans htarget)]
      exact hdigest
    · exact ⟨data, by rw [← htarget, ← hsame x.digest hmem], hdigest⟩
  · intro digest _
    by_cases hgenuine : Genuine codec.sha256 digest (layout.cells digest)
    · refine downloadTask_spec.conseq ?_ ?_ fun _ _ => trivial
      · rintro _ rfl
        exact hgenuine
      · rintro _ cell ⟨_, _, size, _, _, data, htarget, hdigest, _⟩ _
        exact ⟨data, htarget, hdigest⟩
    · exact Triple.true.conseq (fun _ _ => trivial) (fun _ _ _ h => absurd h hgenuine)
        fun _ _ => trivial

end Remembers

/-- `build_layout` up to the index as it is before it is normalized: what was gathered, and the
number of compressed bytes. -/
def buildIndex (codec : Codec V) (call : Call) : Program PyError Layout (Pending V × ℤ) := do
  let pending ← call.requests.foldlM
    (addImage codec call.manifestSources call.skipUnavailable) {}
  let compressedBytes ← Program.ofExcept (totalBytes pending.downloads)
  if call.workers ≤ 0 then
    Program.raise (.valueError "max_workers must be greater than 0")
  else
    let _ ← downloadAll codec call.layerSources call.blobs pending.downloads
    writeIndex pending.descriptors
    return (pending, compressedBytes)

/-- **After the index, `build_layout` only normalizes.** -/
theorem buildLayout_eq (codec : Codec V) (call : Call) :
    buildLayout codec call = do
      let (pending, compressedBytes) ← buildIndex codec call
      let _ ← normalizeLayout codec
      return {
        images := call.requests.length
        uniqueBlobs := pending.downloads.length
        compressedBytes } := by
  unfold buildLayout buildIndex
  rw [Program.bind_assoc]
  congr 1
  funext pending
  rw [Program.bind_assoc]
  congr 1
  funext compressedBytes
  split
  · rfl
  · rw [Program.bind_assoc]
    congr 1
    funext _
    rw [Program.bind_assoc]
    congr 1
    funext _
    rw [Program.pure_bind]

section Runs

variable {codec : Codec V} {past : Set (Request × List Source)}

/-- The index that is written names the gathered manifests. -/
theorem buildIndex_pinned {call : Call} (hcall : (Run.build call).Pins codec past) :
    Triple (Remembers codec past) (buildIndex codec call)
      (fun result layout => layout.index = .stored result.1.descriptors ∧
        Collected codec past result.1.descriptors layout) (Remembers codec past) := by
  have himages := Triple.foldlM
    (I := fun (pending : Pending V) => Collected codec past pending.descriptors)
    (f := addImage codec call.manifestSources call.skipUnavailable) call.requests
    (fun request hrequest pending =>
      addImage_pinned (hcall request hrequest).1 (hcall request hrequest).2)
    (fun _ _ h => h.remembers) {}
  refine (himages.conseq ?_ (fun _ _ h => h) fun _ h => h).bind fun pending => ?_
  · exact fun layout h => ⟨h, fun _ hx => absurd hx List.not_mem_nil,
      fun _ hx => absurd hx List.not_mem_nil⟩
  refine (Triple.ofExcept (Q := fun _ => Collected codec past pending.descriptors)
    (fun _ _ _ h => h) fun _ h => h.remembers).bind fun compressedBytes => ?_
  split
  · exact Triple.raise fun _ h => h.remembers
  · refine downloadAll_pinned.bind fun _ => ?_
    have hwrite : Triple (Collected codec past pending.descriptors)
        (writeIndex pending.descriptors)
        (fun _ layout => layout.index = .stored pending.descriptors ∧
          Collected codec past pending.descriptors layout) (Remembers codec past) := by
      refine Triple.write ?_ (fun _ h => h.remembers) ?_ ?_
      · exact fun layout h => ⟨rfl, h.remembers, h.pinned, h.stored⟩
      · rintro layout _ h rfl
        exact h.remembers
      · exact fun layout h => h.remembers
    exact hwrite.bind fun _ => Triple.pure (fun _ h => h) fun _ h => h.2.remembers

/-- Normalizing a layout leaves the cache alone. -/
theorem normalizeLayout_remembers :
    Triple (Remembers codec past) (normalizeLayout codec) (fun _ => Remembers codec past)
      (Remembers codec past) := by
  have hindex : ∀ manifests, Triple (Remembers codec past) (writeIndex manifests)
      (fun _ => Remembers codec past) (Remembers codec past) := by
    intro manifests
    refine Triple.write (fun _ h => h) (fun _ h => h) ?_ fun _ h => h
    rintro layout _ h rfl
    exact h
  have hentry : ∀ x, Triple (Remembers codec past) (normalizeEntry codec x)
      (fun _ => Remembers codec past) (Remembers codec past) := by
    intro x
    refine (Triple.read fun _ h => h).bind fun layout => ?_
    split
    · exact Triple.raise fun _ h => h.2
    · refine (Triple.ofExcept (Q := fun _ => Remembers codec past) (fun _ _ _ h => h.2)
        fun _ h => h.2).bind fun manifest => ?_
      refine (Triple.ofExcept (Q := fun _ => Remembers codec past) (fun _ _ _ h => h)
        fun _ h => h).bind fun normalized => ?_
      exact (writeBlob_spec (Q := fun _ => Remembers codec past) (fun _ h => h) (fun _ h => h)
        fun _ _ h => h).bind fun _ => Triple.pure (fun _ h => h) fun _ h => h
  refine (Triple.read fun _ h => h).bind fun layout => ?_
  split
  · exact Triple.raise fun _ h => h.2
  · exact Triple.raise fun _ h => h.2
  · next manifests hmanifests =>
    refine ((Triple.foldlM (I := fun _ => Remembers codec past) manifests
      (fun x _ normalized => (hentry x).bind fun y => Triple.pure (fun _ h => h) fun _ h => h)
      (fun _ _ h => h) []).conseq (fun _ h => h.2) (fun _ _ h => h) fun _ h => h).bind
      fun normalized => ?_
    exact (hindex normalized).bind fun _ => Triple.pure (fun _ h => h) fun _ h => h

theorem buildLayout_remembers {call : Call} (hcall : (Run.build call).Pins codec past) :
    Triple (Remembers codec past) (buildLayout codec call) (fun _ => Remembers codec past)
      (Remembers codec past) := by
  rw [buildLayout_eq]
  refine (buildIndex_pinned hcall).bind fun result => ?_
  exact (normalizeLayout_remembers.conseq (fun _ h => h.2.remembers) (fun _ _ h => h)
    fun _ h => h).bind fun _ => Triple.pure (fun _ h => h) fun _ h => h

/-- **Every history of runs** whose answers are pinned leaves resolved bytes in the cache. -/
theorem Remembers.history {layout : Layout}
    (history : History (Run.Pins codec past) (Run.program codec) {} layout) :
    Remembers codec past layout := by
  have hempty : Remembers codec past {} := fun _ _ hentry => by cases hentry
  refine history.invariant hempty fun run hrun => ?_
  cases run with
  | build call =>
    exact (buildLayout_remembers hrun).bind fun _ =>
      Triple.pure (fun _ _ => trivial) fun _ h => h
  | download sources answers retries digest expectedSize =>
    refine Triple.bind (R := fun _ => Remembers codec past) (Triple.zoom fun layout h => ?_)
      fun _ => Triple.pure (fun _ _ => trivial) fun _ h => h
    exact Triple.true.conseq (fun _ h => h) (fun _ _ _ => h) fun _ _ => h

end Runs

/-- **Images resolved through an index stay pinned**, where every answer to a picked digest has that
digest. After any runs, each returned, raised or interrupted anywhere, and wherever a call of
`build_layout` stands: the cache holds bytes that were resolved; an image is resolved to bytes that
its tag names, of the digest that is picked where the tag names an index, or to such bytes of an
earlier run; and the index that is written, before it is normalized, names such bytes by their
digest and size, and they are stored under it. -/
theorem manifests_pinned (codec : Codec V) (past : Set (Request × List Source)) (layout : Layout)
    (history : History (Run.Pins codec past) (Run.program codec) {} layout) (call : Call)
    (hcall : (Run.build call).Pins codec past) :
    (∀ left, (buildLayout codec call layout).Leaves left →
      Remembers codec past left ∧ ∀ request ∈ call.requests, ∀ answer,
        (resolveImage codec request call.manifestSources request.tag left).outcome = .ok answer →
          Pinned codec past request call.manifestSources left answer.1) ∧
    ∀ result, (buildIndex codec call layout).outcome = .ok result →
      ∃ manifests, (buildIndex codec call layout).final.index = .stored manifests ∧
        ∀ x ∈ manifests, x.Pinned codec past ∧
          HasDigest codec (buildIndex codec call layout).final.cells x.digest := by
  have hremembers := Remembers.history history
  constructor
  · intro left hleft
    have hkept := (buildLayout_remembers hcall).leaves layout hremembers left hleft
    refine ⟨hkept, fun request hrequest answer hanswer => ?_⟩
    obtain ⟨hpast, hpins⟩ := hcall request hrequest
    exact ((resolveImage_pinned (F := fun _ => True) hpast hpins left).returns left
      ⟨rfl, hkept, trivial⟩ answer hanswer).1
  · intro result hresult
    obtain ⟨hindex, hcollected⟩ :=
      (buildIndex_pinned hcall).returns layout hremembers result hresult
    exact ⟨_, hindex, fun x hx => ⟨hcollected.pinned x hx, hcollected.stored x hx⟩⟩

/-! ## A drill

The tag names an index, and the registry answers to the digest of its entry with the manifest of the
earlier drill. -/

/-- An index with one entry. -/
@[irreducible] def drillIndex (reference : String) : Bytes :=
  encode "\x7b\"manifests\":[\x7b\"digest\":\"" ++ encode reference ++
    encode "\",\"platform\":\x7b\"architecture\":\"amd64\",\"os\":\"linux\"\x7d\x7d]\x7d"

/-- The codec of the drill, which reads the index as well. -/
def indexCodec (reference : String) : Codec Unit where
  sha256 := drillCodec.sha256
  loads data :=
    if data = drillIndex reference then
      .ok {
        manifests := some [⟨some "linux", some "amd64", some reference⟩]
        mediaType := .absent
        config := none
        layers := none
        other := () }
    else drillCodec.loads data
  dumps := drillCodec.dumps

/-- What the registry answers. -/
def indexRequest (reference : String) : Request where
  image := "swe/x:v1"
  token := fun _ _ => none
  manifest := fun _ asked =>
    if asked = "v1" then
      fun _ => .ok (drillIndex reference, "application/vnd.oci.image.index.v1+json")
    else fun _ => .ok (drillServed, "application/vnd.docker.distribution.manifest.v2+json")

/-- A call for the image. -/
def indexCall (reference : String) : Call where
  requests := [indexRequest reference]
  workers := 6
  layerSources := [⟨"https://mirror", none⟩]
  manifestSources := [⟨"https://mirror", none⟩]
  skipUnavailable := false
  blobs := fun digest _ _ _ =>
    if digest = drillConfig then .response (some 200) (encode "\x7b\x7d") none
    else .response (some 200) [0x1f, 0x8b, 0x08] none

/-- The digest of the manifest. -/
def servedReference : String :=
  "sha256:3ed23d2dc00a968057be3b262b70efd0cd5e8289b665f0133432812d0b4cd393"

/-- The digest of the config, which is not that of the manifest. -/
def otherReference : String :=
  "sha256:44136fa355b3678a1146ad16f7e8649e94fb4fc21fe77e8310c060f61caaff8a"

theorem fetchManifest_tag (reference : String) :
    (indexRequest reference).fetchManifest (indexRequest reference).tag
      [⟨"https://mirror", none⟩] 0 none =
      .ok (drillIndex reference, "application/vnd.oci.image.index.v1+json") := by
  have hsplit : splitImageReference "swe/x:v1" = ("swe/x", "v1", "swe/x:v1") := by decide +kernel
  have htag : (indexRequest reference).tag = "v1" := by
    rw [Request.tag, show (indexRequest reference).image = "swe/x:v1" from rfl, hsplit]
  have hmanifest : (indexRequest reference).manifest 0 "v1" =
      fun _ => .ok (drillIndex reference, "application/vnd.oci.image.index.v1+json") := by
    unfold indexRequest
    dsimp only
    rw [if_pos rfl]
  rw [htag, Request.fetchManifest, hmanifest]
  rfl

/-- The entry of the index is what is picked. -/
theorem indexRequest_picks {reference picked : String} :
    (indexRequest reference).Picks (indexCodec reference) [⟨"https://mirror", none⟩] picked ↔
      picked = reference := by
  have hloads : (indexCodec reference).loads (drillIndex reference) = .ok {
      manifests := some [⟨some "linux", some "amd64", some reference⟩]
      mediaType := .absent
      config := none
      layers := none
      other := () } := if_pos rfl
  constructor
  · rintro ⟨answer, manifest, items, item, rest, hfetch, hmanifest, hitems, hcandidates, hdigest⟩
    rw [fetchManifest_tag] at hfetch
    cases hfetch
    rw [hloads] at hmanifest
    cases hmanifest
    cases hitems
    cases hcandidates
    exact (Option.some_inj.mp hdigest).symm
  · rintro rfl
    exact ⟨_, _, _, _, [], fetchManifest_tag picked, hloads, rfl, rfl, rfl⟩

/-- Where the index names the manifest by its digest, the cache holds what the index picks. -/
theorem remembers_served : Remembers (indexCodec servedReference)
    {(indexRequest servedReference, [⟨"https://mirror", none⟩])}
    (buildLayout (indexCodec servedReference) (indexCall servedReference) {}).final := by
  refine ((manifests_pinned (indexCodec servedReference) _ {} Relation.ReflTransGen.refl
    (indexCall servedReference) ?_).1 _ (Or.inr rfl)).1
  rintro request (_ | ⟨_, ⟨⟩⟩)
  refine ⟨rfl, fun reference answer hpicks hanswer => ?_⟩
  obtain rfl := indexRequest_picks.mp hpicks
  have hserved : (indexRequest servedReference).fetchManifest servedReference
      [⟨"https://mirror", none⟩] 0 none =
      .ok (drillServed, "application/vnd.docker.distribution.manifest.v2+json") := by
    decide +kernel
  cases hserved.symm.trans hanswer
  decide +kernel

/-- Where it names other bytes, the image is not rejected: the manifest is cached and indexed under
its own digest, which is not the one that is picked. -/
theorem manifest_not_pinned :
    (indexRequest otherReference).Picks (indexCodec otherReference) [⟨"https://mirror", none⟩]
        otherReference ∧
      (buildLayout (indexCodec otherReference) (indexCall otherReference) {}).outcome =
        .ok { images := 1, uniqueBlobs := 2, compressedBytes := 5 } ∧
      ((buildLayout (indexCodec otherReference) (indexCall otherReference) {}).final.cache
          (cacheKey (indexCodec otherReference) "swe/x:v1")).map
        (fun entry => digestText ((indexCodec otherReference).sha256 entry.data)) =
        some servedReference ∧
      servedReference ≠ otherReference := by
  refine ⟨indexRequest_picks.mpr rfl, ?_, ?_, ?_⟩
  · decide +kernel
  · decide +kernel
  · decide

end Oci
