import CodingOpd.Python.Values

/-!
# OCI manifests

A manifest names a config blob and layer blobs by digest and size. `normalize_manifest` rewrites the
media types of Docker to those of OCI, and leaves the rest of the manifest alone.

## Main definitions

* `Manifest V`: what `json.loads` makes of a manifest; values that are not looked into are of `V`
* `Manifest.blobs`: the config and the layers
* `normalizeManifest`: `normalize_manifest`
* `Codec V`: the functions of the standard library that the downloads rest on

## Main results

* `normalizeManifest_blobs`: a normalized manifest names the same blobs, of the same sizes
-/

open Python

namespace Oci

/-- The bytes of a file. -/
abbrev Bytes := List UInt8

/-- A `sha256` digest, written as `sha256:` and 64 hexadecimal digits. -/
abbrev Digest := BitVec 256

/-- The field `mediaType` of a JSON object. -/
inductive MediaType (V : Type) where
  | absent
  | null
  | text (name : String)
  | other (value : V)
  deriving DecidableEq

/-- A descriptor of a config or a layer. -/
structure Descriptor (V : Type) where
  mediaType : MediaType V
  digest : Option Digest
  size : Option ℤ
  other : V
  deriving DecidableEq

/-- An entry of a multi-platform index. -/
structure PlatformItem where
  os : Option String
  architecture : Option String
  digest : Option String
  deriving DecidableEq

/-- A manifest, or the multi-platform index that a registry answers in its place. -/
structure Manifest (V : Type) where
  manifests : Option (List PlatformItem) := none
  mediaType : MediaType V
  config : Option (Descriptor V)
  layers : Option (List (Descriptor V))
  other : V
  deriving DecidableEq

/-- `sha256`, and JSON as manifests are read and written. -/
structure Codec (V : Type) where
  sha256 : Bytes → Digest
  loads : Bytes → Except PyError (Manifest V)
  dumps : Manifest V → Bytes

/-- `OCI_MANIFEST` -/
def ociManifest : String := "application/vnd.oci.image.manifest.v1+json"

/-- `OCI_CONFIG` -/
def ociConfig : String := "application/vnd.oci.image.config.v1+json"

/-- `MEDIA_TYPE_MAP` -/
def mediaTypeMap : List (String × String) :=
  [("application/vnd.docker.distribution.manifest.v2+json", ociManifest),
    ("application/vnd.docker.container.image.v1+json", ociConfig),
    ("application/vnd.docker.image.rootfs.diff.tar.gzip",
      "application/vnd.oci.image.layer.v1.tar+gzip"),
    ("application/vnd.docker.image.rootfs.foreign.diff.tar.gzip",
      "application/vnd.oci.image.layer.nondistributable.v1.tar+gzip")]

variable {V : Type}

/-- `MEDIA_TYPE_MAP.get(str(value.get("mediaType", "")))`: a value that is not a text is not a key
of the map. -/
def MediaType.mapped? : MediaType V → Option String
  | .text name => mediaTypeMap.lookup name
  | .absent | .null | .other _ => none

/-- The media type of a normalized descriptor: a field that was missing is `null`. -/
def MediaType.normalize (mediaType : MediaType V) : MediaType V :=
  match mediaType.mapped?, mediaType with
  | some name, _ => .text name
  | none, .absent => .null
  | none, mediaType => mediaType

/-- The copy of a config or a layer in a normalized manifest. -/
def Descriptor.normalize (descriptor : Descriptor V) : Descriptor V :=
  { descriptor with mediaType := descriptor.mediaType.normalize }

@[simp] theorem Descriptor.normalize_digest (descriptor : Descriptor V) :
    descriptor.normalize.digest = descriptor.digest := rfl

@[simp] theorem Descriptor.normalize_size (descriptor : Descriptor V) :
    descriptor.normalize.size = descriptor.size := rfl

/-- `normalize_manifest` -/
def normalizeManifest (manifest : Manifest V) : Except PyError (Manifest V) := do
  let config ← key "config" manifest.config
  let layers ← key "layers" manifest.layers
  return { manifest with
    mediaType := .text (manifest.mediaType.mapped?.getD ociManifest)
    config := some config.normalize
    layers := some (layers.map Descriptor.normalize) }

/-- `[manifest["config"], *manifest["layers"]]` -/
def Manifest.blobs (manifest : Manifest V) : Except PyError (List (Descriptor V)) := do
  let config ← key "config" manifest.config
  let layers ← key "layers" manifest.layers
  return config :: layers

/-- **A normalized manifest names the blobs of the manifest it is made of.** -/
theorem normalizeManifest_blobs {manifest normalized : Manifest V}
    {blobs : List (Descriptor V)} (h : normalizeManifest manifest = .ok normalized)
    (hblobs : manifest.blobs = .ok blobs) :
    normalized.blobs = .ok (blobs.map Descriptor.normalize) := by
  obtain ⟨config, hconfig, hblobs⟩ := bind_eq_ok.mp hblobs
  obtain ⟨layers, hlayers, hblobs⟩ := bind_eq_ok.mp hblobs
  cases hblobs
  have hn : normalizeManifest manifest = .ok { manifest with
      mediaType := .text (manifest.mediaType.mapped?.getD ociManifest)
      config := some config.normalize
      layers := some (layers.map Descriptor.normalize) } := by
    rw [normalizeManifest, hconfig, hlayers]
    rfl
  rw [hn] at h
  cases h
  rfl

end Oci
