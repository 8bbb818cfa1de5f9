import CodingOpd.Oci.Download

/-!
# Building a layout

`build_layout` stores the manifest of every image under its digest, downloads the config and the
layers that the manifests name, writes `index.json`, and has `normalize_layout` rewrite the
manifests and the index.

## Main definitions

* `Layout`: the files of a layout directory, and the manifest cache beside it
* `Request`: an image, and what the manifest sources answer for it
* `addImage`: the body of the loop over the images
* `normalizeLayout`: `normalize_layout`
* `buildLayout`: `build_layout`
* `Run`: a run on a layout, of `build_layout` or of `_download_blob` alone
-/

open Python Interruption

namespace Oci

/-- A descriptor of a manifest in `index.json`. -/
structure IndexDescriptor where
  mediaType : String
  digest : Digest
  size : ℕ
  refName : String
  architecture : String := "amd64"
  os : String := "linux"

/-- The file `index.json`. A write that was interrupted leaves a text that is not JSON. -/
inductive IndexFile where
  | missing
  | torn
  | stored (manifests : List IndexDescriptor)

/-- A file of the manifest cache. -/
structure CacheEntry where
  image : String
  mediaType : String
  digest : Digest
  data : Bytes

/-- A layout directory, with the manifest cache `<layout>.manifests`. -/
structure Layout where
  cells : Digest → Cell := fun _ => {}
  index : IndexFile := .missing
  cache : Digest → Option CacheEntry := fun _ => none

/-- The parts of a text before and after the first separator, or the whole text where there is
none. -/
def partition (separator : Char) (text : List Char) : List Char × Bool × List Char :=
  match text.span (· ≠ separator) with
  | (before, []) => (before, false, [])
  | (before, _ :: rest) => (before, true, rest)

/-- The parts before and after the last separator. Where there is none, the text is the part after
it. -/
def rpartition (separator : Char) (text : List Char) : List Char × Bool × List Char :=
  match partition separator text.reverse with
  | (_, false, _) => ([], false, text)
  | (rest, true, before) => (before.reverse, true, rest.reverse)

/-- `_split_image_reference` -/
def splitImageReference (image : String) : String × String × String :=
  let text := image.toList
  let annotation := if '/' ∈ text then image else "docker.io/" ++ image
  let (first, separator, remainder) := partition '/' text
  let isRegistry : Bool := separator &&
    (["docker.io", "ghcr.io", "public.ecr.aws"].contains (String.ofList first) ||
      '.' ∈ first || ':' ∈ first)
  let normalized := if isRegistry then remainder else text
  let (repo, separator, tag) := rpartition ':' normalized
  if !separator || '/' ∉ repo then
    (String.ofList normalized, "latest", annotation)
  else
    (String.ofList repo, String.ofList tag, annotation)

/-- `text.encode("utf-8")` -/
def encode (text : String) : Bytes := text.toUTF8.data.toList

/-! ## Manifests -/

/-- What the manifest source at an index answers for an image: the exception of its token request,
and the answers to the successive requests for a reference. -/
structure Request where
  image : String
  token : ℕ → String → Option PyError
  manifest : ℕ → String → ℕ → Except PyError (Bytes × String)

/-- `_manifest`, with the attempts that are left. -/
def fetchFrom (answers : ℕ → Except PyError (Bytes × String)) (retries : ℕ) :
    ℕ → Except PyError (Bytes × String)
  | 0 => .error (.assertionError "manifest retry loop exhausted")
  | remaining + 1 =>
    match answers (retries - (remaining + 1)) with
    | .ok answer => .ok answer
    | .error (.networkError message) =>
      if remaining = 0 then .error (.networkError message)
      else fetchFrom answers retries remaining
    | .error (.httpError code) =>
      if code ∉ [429, 500, 502, 503, 504] ∨ remaining = 0 then .error (.httpError code)
      else fetchFrom answers retries remaining
    | .error error => .error error

/-- `source_token`, which asks only a source that has a token endpoint. -/
def Request.sourceToken (request : Request) (source : Source) (index : ℕ) (reference : String) :
    Except PyError Unit :=
  match source.authUrl, request.token index reference with
  | none, _ | some "", _ | _, none => .ok ()
  | some _, some error => .error error

/-- `fetch_manifest`, with the sources that are left. -/
def Request.fetchManifest (request : Request) (reference : String) :
    List Source → ℕ → Option PyError → Except PyError (Bytes × String)
  | [], _, lastError =>
    .error (lastError.getD (.runtimeError "no manifest registries configured"))
  | source :: sources, index, _ =>
    match (do
      request.sourceToken source index reference
      fetchFrom (request.manifest index reference) 8 8) with
    | .ok answer => .ok answer
    | .error error =>
      if retryable error then request.fetchManifest reference sources (index + 1) (some error)
      else .error error

/-- `_MANIFEST_ERRORS` -/
def manifestError : PyError → Bool
  | .httpError _ | .networkError _ | .valueError _ | .keyError _ => true
  | _ => false

/-- The `linux/amd64` entries of a multi-platform index. -/
def candidates (items : List PlatformItem) : List PlatformItem :=
  items.filter fun item => item.os = some "linux" ∧ item.architecture = some "amd64"

section Codec

variable {V : Type} (codec : Codec V)

/-- The fetched manifest of an image: where the registry answers with a multi-platform index, the
manifest of the first entry for `linux/amd64`. -/
def Request.fetchImage (request : Request) (sources : List Source) (tag : String) :
    Except PyError (Bytes × String) := do
  let (data, mediaType) ← request.fetchManifest tag sources 0 none
  let manifest ← codec.loads data
  match manifest.manifests with
  | none => return (data, mediaType)
  | some items =>
    match candidates items with
    | [] => throw (.valueError "no linux/amd64 manifest")
    | item :: _ =>
      let reference ← key "digest" item.digest
      request.fetchManifest reference sources 0 none

/-- `_manifest_cache_path` -/
def cacheKey (image : String) : Digest := codec.sha256 (encode image)

/-- `_load_manifest_cache` -/
def loadManifestCache (image : String) (layout : Layout) : Option (Bytes × String) :=
  match layout.cache (cacheKey codec image) with
  | none => none
  | some entry =>
    if entry.image ≠ image then none
    else if codec.sha256 entry.data ≠ entry.digest then none
    else some (entry.data, entry.mediaType)

/-- `_write_manifest_cache`. The file is renamed into place, so no half of it is ever read. -/
def writeManifestCache (image : String) (data : Bytes) (mediaType : String) :
    Program PyError Layout Unit :=
  Program.modify fun layout =>
    { layout with
      cache := Function.update layout.cache (cacheKey codec image)
        (some { image, mediaType, digest := codec.sha256 data, data }) }

/-- The manifest of an image, from the cache or the registries. -/
def resolveImage (request : Request) (sources : List Source) (tag : String) :
    Program PyError Layout (Bytes × String) := do
  let layout ← Program.read
  match loadManifestCache codec request.image layout with
  | some cached => return cached
  | none => do
    let (data, mediaType) ← Program.ofExcept (request.fetchImage codec sources tag)
    writeManifestCache codec request.image data mediaType
    return (data, mediaType)

/-- The `except` clause of the loop over the images. -/
def skipOrRaise (skipUnavailable : Bool) (error : PyError) :
    Program PyError Layout (Option (Bytes × String)) :=
  if manifestError error ∧ skipUnavailable then return none else Program.raise error

/-- The `try` statement of the loop over the images: no manifest where the image is skipped. -/
def resolveOrSkip (request : Request) (sources : List Source) (tag : String)
    (skipUnavailable : Bool) : Program PyError Layout (Option (Bytes × String)) :=
  Program.recover
    (do
      let resolved ← resolveImage codec request sources tag
      return some resolved)
    (skipOrRaise skipUnavailable)

/-- `path.write_bytes(data)` on the blob of a digest, which an interruption leaves half written. -/
def writeBlob (digest : Digest) (data : Bytes) : Program PyError Layout Unit :=
  Program.zoom (fun layout => layout.cells digest)
    (fun cell layout => { layout with cells := Function.update layout.cells digest cell })
    (Program.write (fun cell cell' => ∃ k, cell' = { cell with target := some (data.take k) })
      (fun cell => { cell with target := some data }))

/-- `_write_verified` -/
def writeVerified (digest : Digest) (data : Bytes) : Program PyError Layout Unit :=
  if codec.sha256 data ≠ digest then Program.raise (.valueError "digest mismatch")
  else writeBlob digest data

/-- `index_descriptors`, and `downloads` in the order of its insertions. -/
structure Pending (V : Type) where
  descriptors : List IndexDescriptor := []
  downloads : List (Digest × String × Descriptor V) := []

/-- `downloads.setdefault(digest, value)` -/
def setdefault {α : Type} (downloads : List (Digest × α)) (digest : Digest) (value : α) :
    List (Digest × α) :=
  if digest ∈ downloads.map Prod.fst then downloads else downloads ++ [(digest, value)]

/-- The downloads with the config and the layers of a manifest. -/
def addDownloads (repo : String) (downloads : List (Digest × String × Descriptor V))
    (blobs : List (Descriptor V)) : Except PyError (List (Digest × String × Descriptor V)) :=
  blobs.foldlM (fun downloads descriptor => do
    let digest ← key "digest" descriptor.digest
    return setdefault downloads digest (repo, descriptor)) downloads

/-- The body of the loop over the images, once the manifest is there. -/
def addManifest (repo annotation : String) (pending : Pending V) (data : Bytes)
    (mediaType : String) : Program PyError Layout (Pending V) := do
  let manifest ← Program.ofExcept (codec.loads data)
  let digest := codec.sha256 data
  writeVerified codec digest data
  let blobs ← Program.ofExcept manifest.blobs
  let downloads ← Program.ofExcept (addDownloads repo pending.downloads blobs)
  return {
    descriptors := pending.descriptors ++
      [{ mediaType, digest, size := data.length, refName := annotation }]
    downloads }

/-- The body of the loop over the images. -/
def addImage (sources : List Source) (skipUnavailable : Bool) (pending : Pending V)
    (request : Request) : Program PyError Layout (Pending V) := do
  let (repo, tag, annotation) := splitImageReference request.image
  match ← resolveOrSkip codec request sources tag skipUnavailable with
  | none => return pending
  | some (data, mediaType) => addManifest codec repo annotation pending data mediaType

theorem addImage_eq (sources : List Source) (skipUnavailable : Bool) (pending : Pending V)
    (request : Request) : addImage codec sources skipUnavailable pending request =
      resolveOrSkip codec request sources (splitImageReference request.image).2.1
        skipUnavailable >>= fun resolved => resolved.elim (pure pending) fun answer =>
          addManifest codec (splitImageReference request.image).1
            (splitImageReference request.image).2.2 pending answer.1 answer.2 := by
  unfold addImage
  rcases splitImageReference request.image with ⟨repo, tag, annotation⟩
  dsimp only
  refine congrArg _ (funext fun resolved => ?_)
  cases resolved <;> rfl

/-! ## The blobs and the index -/

/-- `sum(int(item[1]["size"]) for item in downloads.values())` -/
def totalBytes (downloads : List (Digest × String × Descriptor V)) : Except PyError ℤ :=
  downloads.foldlM (fun total item => do
    let size ← key "size" item.2.2.size
    return total + size) 0

/-- The task that is submitted for a digest. -/
def downloadTask (sources : List Source) (answers : Digest → ℕ → ℕ → ℕ → BlobReply)
    (downloads : List (Digest × String × Descriptor V)) (digest : Digest) :
    Program PyError Cell (Digest × ℤ) := do
  let (_, descriptor) ← Program.ofExcept (key "digest" (downloads.lookup digest))
  let size ← Program.ofExcept (key "size" descriptor.size)
  downloadBlob codec.sha256 sources (answers digest) 8 digest size

/-- The thread pool: each task works on the files of its own digest. Where several tasks raise, the
source reports the one that is found first, the model that of the first digest. -/
def downloadAll (sources : List Source) (answers : Digest → ℕ → ℕ → ℕ → BlobReply)
    (downloads : List (Digest × String × Descriptor V)) :
    Program PyError Layout (List (Digest × ℤ)) :=
  Program.zoom Layout.cells (fun cells layout => { layout with cells })
    (Program.parallel (downloads.map Prod.fst) (downloadTask codec sources answers downloads))

/-- `index_path.write_text(...)` -/
def writeIndex (manifests : List IndexDescriptor) : Program PyError Layout Unit :=
  Program.write (fun layout layout' => layout' = { layout with index := .torn })
    (fun layout => { layout with index := .stored manifests })

/-- The body of the loop of `normalize_layout`. -/
def normalizeEntry (descriptor : IndexDescriptor) : Program PyError Layout IndexDescriptor := do
  let layout ← Program.read
  match (layout.cells descriptor.digest).target with
  | none => Program.raise (.fileNotFoundError "blob")
  | some bytes => do
    let manifest ← Program.ofExcept (codec.loads bytes)
    let normalized ← Program.ofExcept (normalizeManifest manifest)
    let data := codec.dumps normalized
    let digest := codec.sha256 data
    writeBlob digest data
    return { descriptor with mediaType := ociManifest, digest, size := data.length }

/-- `normalize_layout` -/
def normalizeLayout : Program PyError Layout ℕ := do
  let layout ← Program.read
  match layout.index with
  | .missing => Program.raise (.fileNotFoundError "index.json")
  | .torn => Program.raise (.valueError "index.json")
  | .stored manifests => do
    let normalized ← manifests.foldlM (fun normalized descriptor => do
      let descriptor ← normalizeEntry codec descriptor
      return normalized ++ [descriptor]) []
    writeIndex normalized
    return normalized.length

/-- The arguments of a call of `build_layout`, and what the registries answer to it. A blob source
answers by the digest, the source's index, the number of the attempt and the offset. -/
structure Call where
  requests : List Request
  workers : ℤ
  layerSources : List Source
  manifestSources : List Source
  skipUnavailable : Bool
  blobs : Digest → ℕ → ℕ → ℕ → BlobReply

/-- What `build_layout` returns. -/
structure Summary where
  images : ℕ
  uniqueBlobs : ℕ
  compressedBytes : ℤ
  deriving DecidableEq

/-- `build_layout` -/
def buildLayout (call : Call) : Program PyError Layout Summary := do
  let pending ← call.requests.foldlM
    (addImage codec call.manifestSources call.skipUnavailable) {}
  let compressedBytes ← Program.ofExcept (totalBytes pending.downloads)
  if call.workers ≤ 0 then
    Program.raise (.valueError "max_workers must be greater than 0")
  else
    let _ ← downloadAll codec call.layerSources call.blobs pending.downloads
    writeIndex pending.descriptors
    let _ ← normalizeLayout codec
    return {
      images := call.requests.length
      uniqueBlobs := pending.downloads.length
      compressedBytes }

/-- A run on a layout: a call of `build_layout`, or of `_download_blob` alone. -/
inductive Run where
  | build (call : Call)
  | download (sources : List Source) (answers : ℕ → ℕ → ℕ → BlobReply) (retries : ℕ)
      (digest : Digest) (expectedSize : ℤ)

/-- What a run does to the layout. -/
def Run.program : Run → Program PyError Layout Unit
  | .build call => do
    let _ ← buildLayout codec call
    return ()
  | .download sources answers retries digest expectedSize => do
    let _ ← Program.zoom (fun layout => layout.cells digest)
      (fun cell layout => { layout with cells := Function.update layout.cells digest cell })
      (downloadBlob codec.sha256 sources answers retries digest expectedSize)
    return ()

end Codec

end Oci
