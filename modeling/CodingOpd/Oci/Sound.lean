import Mathlib.Data.Set.Function
import CodingOpd.Oci.Build

/-!
# What every run on a layout keeps

A blob is never hashed again once it is in place, so what a layout holds rests on every run
before: each leaves under the digest of a config or a layer either nothing or the right bytes,
wherever it was stopped. Manifests are written in place, so an interruption leaves half of one under
its digest.

## Main definitions

* `servedManifests`, `manifestBytes`: the manifests that runs store, as they are served and as they
  are normalized
* `WellFormed`: the assumptions on what the registries serve
* `Sound`: what every run keeps

## Main results

* `resolveImage_spec`: the manifest of an image is one that was served
* `writeBlob_spec`: an interrupted write leaves other contents under the one digest
* `Sound.setTarget`: writing a manifest keeps `Sound`, also where the write is interrupted
-/

open Python Interruption

namespace Oci

variable {V : Type} (codec : Codec V) (served : Set Bytes)

/-- The manifests among what is served. -/
def servedManifests : Set Bytes :=
  {data | data ∈ served ∧ ∃ manifest, codec.loads data = .ok manifest}

/-- The manifests that are stored in a layout: those that are served, and their normalized forms. -/
def manifestBytes : Set Bytes :=
  {data | data ∈ servedManifests codec served ∨ ∃ source ∈ served, ∃ manifest normalized,
    codec.loads source = .ok manifest ∧ normalizeManifest manifest = .ok normalized ∧
    data = codec.dumps normalized}

/-- A config or a layer of a manifest that is served. -/
def Listed (descriptor : Descriptor V) : Prop :=
  ∃ data ∈ served, ∃ manifest blobs, codec.loads data = .ok manifest ∧
    manifest.blobs = .ok blobs ∧ descriptor ∈ blobs

/-- The assumptions on the manifests that the registries serve. -/
structure WellFormed : Prop where
  /-- A normalized manifest is read back as it was written. -/
  loads_dumps : ∀ data ∈ served, ∀ manifest normalized, codec.loads data = .ok manifest →
    normalizeManifest manifest = .ok normalized →
    codec.loads (codec.dumps normalized) = .ok normalized
  /-- `sha256` does not collide on the stored manifests. -/
  injOn : Set.InjOn codec.sha256 (manifestBytes codec served)
  /-- Manifests agree on the size of a shared digest. -/
  sizes_agree : ∀ x y digest, Listed codec served x → Listed codec served y →
    x.digest = some digest → y.digest = some digest → x.size = y.size
  /-- The digest of a manifest is not that of a config or a layer. -/
  separate : ∀ x digest, Listed codec served x → x.digest = some digest →
    ∀ data ∈ manifestBytes codec served, codec.sha256 data ≠ digest

/-- The manifest sources answer with manifests that are served. -/
def Request.From (request : Request) : Prop :=
  ∀ index reference attempt answer, request.manifest index reference attempt = .ok answer →
    answer.1 ∈ served

/-- The registries of a run answer with manifests that are served. -/
def Run.From : Run → Prop
  | .build call => ∀ request ∈ call.requests, request.From served
  | .download _ _ _ _ _ => True

/-- What every run keeps: apart from the manifests, every stored blob has its digest, and the cache
holds manifests that were served. -/
structure Sound (layout : Layout) : Prop where
  genuine : ∀ digest, (∀ data ∈ manifestBytes codec served, codec.sha256 data ≠ digest) →
    Genuine codec.sha256 digest (layout.cells digest)
  cached : ∀ name entry, layout.cache name = some entry → entry.data ∈ served

/-- An empty directory. -/
theorem sound_empty : Sound codec served {} where
  genuine _ _ _ h := nomatch h
  cached _ _ h := nomatch h

variable {codec served}

/-! ## Fetching a manifest -/

theorem fetchFrom_mem {answers : ℕ → Except PyError (Bytes × String)} {retries remaining : ℕ}
    {answer : Bytes × String} (hanswers : ∀ n a, answers n = .ok a → a.1 ∈ served)
    (h : fetchFrom answers retries remaining = .ok answer) : answer.1 ∈ served := by
  induction remaining with
  | zero => cases h
  | succ remaining ih =>
    unfold fetchFrom at h
    split at h
    · next hanswer =>
      cases h
      exact hanswers _ _ hanswer
    · split at h
      · cases h
      · exact ih h
    · split at h
      · cases h
      · exact ih h
    · cases h

theorem Request.From.fetchManifest {request : Request} (hrequest : request.From served)
    {reference : String} {sources : List Source} {index : ℕ} {lastError : Option PyError}
    {answer : Bytes × String}
    (h : request.fetchManifest reference sources index lastError = .ok answer) :
    answer.1 ∈ served := by
  induction sources generalizing index lastError with
  | nil => cases h
  | cons source sources ih =>
    unfold Request.fetchManifest at h
    split at h
    · next hfetch =>
      cases h
      obtain ⟨_, -, hfetch⟩ := bind_eq_ok.mp hfetch
      exact fetchFrom_mem (fun n a => hrequest index reference n a) hfetch
    · split at h
      · exact ih h
      · cases h

theorem Request.From.fetchImage {request : Request} (hrequest : request.From served)
    {sources : List Source} {tag : String} {answer : Bytes × String}
    (h : request.fetchImage codec sources tag = .ok answer) : answer.1 ∈ served := by
  obtain ⟨⟨data, mediaType⟩, hfetch, h⟩ := bind_eq_ok.mp h
  obtain ⟨manifest, -, h⟩ := bind_eq_ok.mp h
  split at h
  · cases h
    exact hrequest.fetchManifest hfetch
  · split at h
    · cases h
    · obtain ⟨reference, -, h⟩ := bind_eq_ok.mp h
      exact hrequest.fetchManifest h

theorem Sound.loadManifestCache {layout : Layout} (h : Sound codec served layout) {image : String}
    {answer : Bytes × String} (hcached : loadManifestCache codec image layout = some answer) :
    answer.1 ∈ served := by
  unfold Oci.loadManifestCache at hcached
  split at hcached
  · cases hcached
  · next entry hentry =>
    split_ifs at hcached
    cases hcached
    exact h.cached _ entry hentry

/-- A served manifest may be added to the cache. -/
theorem Sound.remember {layout : Layout} (h : Sound codec served layout) (name : Digest)
    (entry : CacheEntry) (hentry : entry.data ∈ served) :
    Sound codec served
      { layout with cache := Function.update layout.cache name (some entry) } where
  genuine := h.genuine
  cached other found hfound := by
    replace hfound : Function.update layout.cache name (some entry) other = some found := hfound
    rcases eq_or_ne other name with rfl | hne
    · rw [Function.update_self] at hfound
      exact Option.some_inj.mp hfound ▸ hentry
    · rw [Function.update_of_ne hne] at hfound
      exact h.cached other found hfound

/-- The manifest of an image is a served one, and only the cache changes. -/
theorem resolveImage_spec {request : Request} (hrequest : request.From served)
    {sources : List Source} {tag : String} {F : (Digest → Cell) → Prop} :
    Triple (fun layout => Sound codec served layout ∧ F layout.cells)
      (resolveImage codec request sources tag)
      (fun answer layout => answer.1 ∈ served ∧ Sound codec served layout ∧ F layout.cells)
      (fun layout => Sound codec served layout ∧ F layout.cells) := by
  refine (Triple.read fun _ h => h).bind fun layout => ?_
  split
  · next answer hcached =>
    refine Triple.pure ?_ fun _ h => h.2
    rintro _ ⟨rfl, h⟩
    exact ⟨h.1.loadManifestCache hcached, h⟩
  · refine (Triple.ofExcept (Q := fun answer layout => answer.1 ∈ served ∧
      Sound codec served layout ∧ F layout.cells) ?_ fun _ h => h.2).bind fun answer => ?_
    · exact fun answer _ hfetch h => ⟨hrequest.fetchImage hfetch, h.2⟩
    · refine Triple.of_fact fun hanswer => ?_
      have hwrite := fun layout (h : Sound codec served layout ∧ F layout.cells) =>
        And.intro (h.1.remember (cacheKey codec request.image)
          ⟨request.image, answer.2, codec.sha256 answer.1, answer.1⟩ hanswer) h.2
      refine (Triple.modify (Q := fun _ layout => Sound codec served layout ∧ F layout.cells)
        hwrite (fun _ h => h) hwrite).bind fun _ => ?_
      exact Triple.pure (fun _ h => ⟨hanswer, h⟩) fun _ h => h

/-! ## Writing a manifest -/

/-- The layout with other contents of a blob. -/
def Layout.setTarget (layout : Layout) (digest : Digest) (data : Bytes) : Layout :=
  { layout with
    cells := Function.update layout.cells digest
      { layout.cells digest with target := some data } }

theorem Layout.setTarget_target_self (layout : Layout) (digest : Digest) (data : Bytes) :
    ((layout.setTarget digest data).cells digest).target = some data := by
  simp [Layout.setTarget]

theorem Layout.setTarget_cells_of_ne (layout : Layout) {digest other : Digest} (data : Bytes)
    (hne : other ≠ digest) : (layout.setTarget digest data).cells other = layout.cells other :=
  Function.update_of_ne hne _ _

theorem writeBlob_spec {P C : Layout → Prop} {Q : Unit → Layout → Prop} {digest : Digest}
    {data : Bytes} (hQ : ∀ layout, P layout → Q () (layout.setTarget digest data))
    (hstart : ∀ layout, P layout → C layout)
    (hwritten : ∀ layout written, P layout → C (layout.setTarget digest written)) :
    Triple P (writeBlob digest data) Q C := by
  refine Triple.zoom fun layout h => Triple.write ?_ ?_ ?_ ?_
  · rintro _ rfl
    exact hQ layout h
  · rintro _ rfl
    rw [Function.update_eq_self]
    exact hstart layout h
  · rintro _ _ rfl ⟨k, rfl⟩
    exact hwritten layout _ h
  · rintro _ rfl
    exact hwritten layout data h

/-- The bytes under a manifest's digest do not matter to the other blobs. -/
theorem Sound.setTarget {layout : Layout} (h : Sound codec served layout) {data : Bytes}
    (hdata : data ∈ manifestBytes codec served) (written : Bytes) :
    Sound codec served (layout.setTarget (codec.sha256 data) written) where
  genuine digest hseparate := by
    rw [layout.setTarget_cells_of_ne _ (hseparate data hdata).symm]
    exact h.genuine digest hseparate
  cached := h.cached

/-- A manifest that is stored stays stored when another one is written. -/
theorem WellFormed.target_setTarget (hwf : WellFormed codec served) {layout : Layout}
    {data other : Bytes} (hdata : data ∈ manifestBytes codec served)
    (hother : other ∈ manifestBytes codec served)
    (htarget : (layout.cells (codec.sha256 other)).target = some other) :
    ((layout.setTarget (codec.sha256 data) data).cells (codec.sha256 other)).target =
      some other := by
  by_cases hdigest : codec.sha256 other = codec.sha256 data
  · rw [hdigest, layout.setTarget_target_self, hwf.injOn hother hdata hdigest]
  · rw [layout.setTarget_cells_of_ne _ hdigest, htarget]

end Oci
