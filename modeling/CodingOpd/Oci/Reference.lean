import Mathlib.Data.Finset.Sort
import Mathlib.Data.String.Basic
import CodingOpd.Library.RankedSort
import CodingOpd.Python.Text
import CodingOpd.Oci.Closed

/-!
# Image references

`_split_image_reference` takes a registry off a reference and splits the rest at its last colon;
`build_layout` writes the reference to `index.json`, and the importer compares these entries with
the image list of a dataset manifest.

## Main definitions

* `Reference`: a reference, by its registry, the components of its path, and its tag
* `importImages`: the comparison of `import_oci_manifest_images.sh`
* `Reference.Clear`: the references that are read as they are meant

## Main results

* `Reference.split_eq_iff`: the repository and the tag of a reference
* `buildLayout_refNames`: the entries of the index of a built layout
* `references_importable_iff`: a list of references is read right and imported when all are clear
-/

open Python Interruption

namespace Oci

/-- A reference `[registry/]path[:tag]`. -/
structure Reference where
  registry : Option Text
  first : Text
  rest : List Text
  tag : Option Text

namespace Reference

/-- A host with a dot or a port, or one of the known hosts. -/
def IsHost (text : Text) : Prop :=
  text ∈ ["docker.io".toList, "ghcr.io".toList, "public.ecr.aws".toList] ∨ '.' ∈ text ∨ ':' ∈ text

instance (text : Text) : Decidable (IsHost text) := inferInstanceAs (Decidable (_ ∨ _ ∨ _))

/-- The components of a path have no colon; no part has a slash. -/
structure WellFormed (reference : Reference) : Prop where
  registry : ∀ host ∈ reference.registry, IsHost host ∧ '/' ∉ host
  path : ∀ component ∈ reference.first :: reference.rest, '/' ∉ component ∧ ':' ∉ component
  tag : ∀ tag ∈ reference.tag, '/' ∉ tag ∧ ':' ∉ tag

/-- The path. -/
def path (reference : Reference) : Text := join ['/'] (reference.first :: reference.rest)

/-- The path with its tag. -/
def body (reference : Reference) : Text :=
  reference.path ++ reference.tag.elim [] fun tag => ':' :: tag

def text (reference : Reference) : Text :=
  reference.registry.elim reference.body fun host => host ++ '/' :: reference.body

/-- The reference as it stands in a manifest. -/
def image (reference : Reference) : String := String.ofList reference.text

/-- **A clear reference**: with a registry, a path of one component has no tag; without one, the
path has several components, and the first one does not look like a host. -/
def Clear (reference : Reference) : Prop :=
  match reference.registry with
  | some _ => reference.rest ≠ [] ∨ reference.tag = none
  | none => reference.rest ≠ [] ∧ ¬ IsHost reference.first

end Reference

/-! ## The importer -/

/-- What the importer reads of a dataset manifest. -/
structure DatasetManifest where
  agentImages : Option (List String) := none
  agentImageCount : Option ℤ := none
  /-- `docker_image` of each of the tasks -/
  tasks : Option (List (Option String)) := none
  count : Option ℤ := none

/-- `required` and `expected_count`. -/
def DatasetManifest.required (manifest : DatasetManifest) : Except PyError (List String × ℤ) :=
  match manifest.agentImages with
  | some images => do
    let expectedCount ← key "agent_image_count" manifest.agentImageCount
    return (images, expectedCount)
  | none => do
    let tasks ← key "tasks" manifest.tasks
    let images ← tasks.mapM (key "docker_image")
    let expectedCount ← key "count" manifest.count
    return (images, expectedCount)

/-- How the comparison ends without its list of images. -/
inductive ImportError where
  /-- `manifest image list contains duplicates` -/
  | duplicates
  /-- `OCI/manifest mismatch: required=… archive=… missing=… extra=…` -/
  | mismatch (required archive : ℕ) (missing extra : List String)
  | raised (error : PyError)
  deriving DecidableEq

/-- The comparison of `import_oci_manifest_images.sh`, which prints the images to import. -/
def importImages (index : List IndexDescriptor) (manifest : DatasetManifest) :
    Except ImportError (List String) :=
  match manifest.required with
  | .error error => .error (.raised error)
  | .ok (required, expectedCount) =>
    let archiveImages := (index.map IndexDescriptor.refName).toFinset
    let missing := (required.toFinset \ archiveImages).sort (· ≤ ·)
    let extra := (archiveImages \ required.toFinset).sort (· ≤ ·)
    if required.length ≠ required.toFinset.card then .error .duplicates
    else if missing ≠ [] ∨ extra ≠ [] ∨ (required.length : ℤ) ≠ expectedCount then
      .error (.mismatch required.length archiveImages.card (missing.take 3) (extra.take 3))
    else .ok required

/-- The importer accepts an index of exactly the images of a list without duplicates. -/
theorem importImages_eq_ok_iff {index : List IndexDescriptor} {manifest : DatasetManifest}
    {required : List String} {expectedCount : ℤ}
    (hrequired : manifest.required = .ok (required, expectedCount)) :
    importImages index manifest = .ok required ↔
      required.Nodup ∧ (∀ image, image ∈ index.map IndexDescriptor.refName ↔ image ∈ required) ∧
        required.length = expectedCount := by
  have hnodup : required.length ≠ required.toFinset.card ↔ ¬ required.Nodup := by
    rw [List.card_toFinset, ← List.dedup_eq_self, not_iff_not]
    constructor
    · exact fun hlength => (List.dedup_sublist required).eq_of_length hlength.symm
    · exact fun hdedup => by rw [hdedup]
  have hsort : ∀ names other : Finset String, (names \ other).sort (· ≤ ·) ≠ [] ↔ ¬ names ⊆ other :=
    fun names other => by
      rw [Ne, ← List.length_eq_zero_iff, Finset.length_sort, Finset.card_eq_zero,
        Finset.sdiff_eq_empty_iff_subset]
  rw [importImages, hrequired]
  dsimp only
  by_cases hduplicates : required.Nodup
  swap
  · rw [if_pos (hnodup.mpr hduplicates)]
    exact iff_of_false (fun h => nomatch h) fun h => hduplicates h.1
  rw [if_neg (mt hnodup.mp (not_not.mpr hduplicates))]
  by_cases hmissing : required.toFinset ⊆ (index.map IndexDescriptor.refName).toFinset
  swap
  · rw [if_pos (.inl ((hsort _ _).mpr hmissing))]
    refine iff_of_false (fun h => nomatch h) fun ⟨_, himages, _⟩ => hmissing fun image hmem => ?_
    exact List.mem_toFinset.mpr ((himages image).mpr (List.mem_toFinset.mp hmem))
  by_cases hextra : (index.map IndexDescriptor.refName).toFinset ⊆ required.toFinset
  swap
  · rw [if_pos (.inr (.inl ((hsort _ _).mpr hextra)))]
    refine iff_of_false (fun h => nomatch h) fun ⟨_, himages, _⟩ => hextra fun image hmem => ?_
    exact List.mem_toFinset.mpr ((himages image).mp (List.mem_toFinset.mp hmem))
  by_cases hcount : (required.length : ℤ) = expectedCount
  · have hequal : ¬ (_ ∨ _ ∨ (required.length : ℤ) ≠ expectedCount) :=
      not_or.mpr ⟨mt (hsort _ _).mp (not_not.mpr hmissing),
        not_or.mpr ⟨mt (hsort _ _).mp (not_not.mpr hextra), not_not.mpr hcount⟩⟩
    rw [if_neg hequal]
    refine iff_of_true rfl ⟨hduplicates, fun image => ⟨fun hmem => ?_, fun hmem => ?_⟩, hcount⟩
    · exact List.mem_toFinset.mp (hextra (List.mem_toFinset.mpr hmem))
    · exact List.mem_toFinset.mp (hmissing (List.mem_toFinset.mpr hmem))
  · rw [if_pos (.inr (.inr hcount))]
    exact iff_of_false (fun h => nomatch h) fun h => hcount h.2.2

section Partition

variable {separator : Char} {before after text : List Char}

theorem partition_append (h : separator ∉ before) :
    partition separator (before ++ separator :: after) = (before, true, after) := by
  have hbefore : ∀ c ∈ before, decide (c ≠ separator) = true := fun c hc =>
    decide_eq_true fun heq => h (heq ▸ hc)
  rw [partition, List.span_eq_takeWhile_dropWhile, List.takeWhile_append_of_pos hbefore,
    List.dropWhile_append_of_pos hbefore]
  simp

theorem partition_of_notMem (h : separator ∉ text) :
    partition separator text = (text, false, []) := by
  have htext : ∀ c ∈ text, decide (c ≠ separator) = true := fun c hc =>
    decide_eq_true fun heq => h (heq ▸ hc)
  rw [partition, List.span_eq_takeWhile_dropWhile, List.takeWhile_eq_self_iff.mpr htext,
    List.dropWhile_eq_nil_iff.mpr htext]

theorem rpartition_append (h : separator ∉ after) :
    rpartition separator (before ++ separator :: after) = (before, true, after) := by
  have hreverse : (before ++ separator :: after).reverse =
      after.reverse ++ separator :: before.reverse := by simp
  rw [rpartition, hreverse, partition_append (mt List.mem_reverse.mp h)]
  simp

theorem rpartition_of_notMem (h : separator ∉ text) :
    rpartition separator text = ([], false, text) := by
  rw [rpartition, partition_of_notMem (mt List.mem_reverse.mp h)]

end Partition

/-- The repository and the tag of a reference without its registry. -/
def repoAndTag (normalized : List Char) : String × String :=
  let (repo, separator, tag) := rpartition ':' normalized
  if !separator || '/' ∉ repo then (String.ofList normalized, "latest")
  else (String.ofList repo, String.ofList tag)

theorem splitImageReference_slash {first rest : Text} (hslash : '/' ∉ first) :
    splitImageReference (String.ofList (first ++ '/' :: rest)) =
      let normalized := if Reference.IsHost first then rest else first ++ '/' :: rest
      ((repoAndTag normalized).1, (repoAndTag normalized).2,
        String.ofList (first ++ '/' :: rest)) := by
  have hmem : '/' ∈ first ++ '/' :: rest := by simp
  have hhost : (["docker.io", "ghcr.io", "public.ecr.aws"].contains (String.ofList first) ||
      decide ('.' ∈ first) || decide (':' ∈ first)) = true ↔ Reference.IsHost first := by
    have hknown : String.ofList first ∈ ["docker.io", "ghcr.io", "public.ecr.aws"] ↔
        first ∈ ["docker.io", "ghcr.io", "public.ecr.aws"].map String.toList := by
      rw [List.mem_map]
      constructor
      · exact fun hmem => ⟨_, hmem, String.toList_ofList⟩
      · rintro ⟨name, hmem, rfl⟩
        rwa [String.ofList_toList]
    rw [Reference.IsHost, Bool.or_eq_true, Bool.or_eq_true, List.contains_iff_mem, or_assoc,
      decide_eq_true_iff, decide_eq_true_iff, hknown]
    rfl
  rw [splitImageReference, String.toList_ofList]
  dsimp only
  rw [partition_append hslash, if_pos hmem]
  dsimp only
  rw [Bool.true_and]
  by_cases h : Reference.IsHost first
  · rw [if_pos (hhost.mpr h), if_pos h, repoAndTag]
    dsimp only
    split_ifs <;> rfl
  · rw [if_neg (mt hhost.mp h), if_neg h, repoAndTag]
    dsimp only
    split_ifs <;> rfl

theorem splitImageReference_name {name : Text} (hslash : '/' ∉ name) :
    (splitImageReference (String.ofList name)).2.2 = "docker.io/" ++ String.ofList name := by
  rw [splitImageReference, String.toList_ofList]
  dsimp only
  rw [if_neg hslash]
  split_ifs <;> rfl

/-- A character of a joined text is one of the separator or of a piece. -/
theorem mem_join {separator : Text} {pieces : List Text} {c : Char}
    (h : c ∈ join separator pieces) : c ∈ separator ∨ ∃ piece ∈ pieces, c ∈ piece := by
  induction pieces with
  | nil => exact absurd h List.not_mem_nil
  | cons piece pieces ih =>
    rcases eq_or_ne pieces [] with rfl | hne
    · rw [join, List.intercalate_singleton] at h
      exact .inr ⟨piece, List.mem_cons_self, h⟩
    · rw [join, List.intercalate_cons_of_ne_nil hne, List.mem_append, List.mem_append] at h
      rcases h with (h | h) | h
      · exact .inr ⟨piece, List.mem_cons_self, h⟩
      · exact .inl h
      · rcases ih h with h | ⟨piece', hmem, h⟩
        · exact .inl h
        · exact .inr ⟨piece', List.mem_cons_of_mem _ hmem, h⟩

namespace Reference

variable {reference : Reference}

/-- `tag`, or `latest`. -/
def tagName (reference : Reference) : String := reference.tag.elim "latest" String.ofList

theorem path_cons (registry tag : Option Text) (first second : Text) (rest : List Text) :
    path ⟨registry, first, second :: rest, tag⟩ =
      first ++ '/' :: path ⟨none, second, rest, tag⟩ := by
  rw [path, join, List.intercalate_cons_of_ne_nil (List.cons_ne_nil _ _), List.append_assoc]
  rfl

theorem body_cons (registry tag : Option Text) (first second : Text) (rest : List Text) :
    body ⟨registry, first, second :: rest, tag⟩ =
      first ++ '/' :: body ⟨none, second, rest, tag⟩ := by
  rw [body, path_cons, List.append_assoc]
  rfl

theorem WellFormed.colon_notMem_path (h : reference.WellFormed) : ':' ∉ reference.path := by
  intro hmem
  rcases mem_join hmem with hmem | ⟨component, hcomponent, hmem⟩
  · exact absurd hmem (by decide)
  · exact (h.path component hcomponent).2 hmem

/-- The path has a slash where it has several components. -/
theorem WellFormed.slash_mem_path_iff (h : reference.WellFormed) :
    '/' ∈ reference.path ↔ reference.rest ≠ [] := by
  obtain ⟨registry, first, _ | ⟨second, rest⟩, tag⟩ := reference
  · rw [Reference.path, join, List.intercalate_singleton]
    exact iff_of_false (h.path first List.mem_cons_self).1 (by simp)
  · rw [path_cons]
    simp

/-- The reference behind the first component of its path. -/
theorem WellFormed.tail {registry tag : Option Text} {first second : Text} {rest : List Text}
    (h : WellFormed ⟨registry, first, second :: rest, tag⟩) :
    WellFormed ⟨none, second, rest, tag⟩ where
  registry := fun _ hmem => nomatch hmem
  path := fun component hmem => h.path component (List.mem_cons_of_mem _ hmem)
  tag := h.tag

/-- A path of one component keeps its tag, and any other one is split from it. -/
theorem WellFormed.repoAndTag_body (h : reference.WellFormed) :
    repoAndTag reference.body =
      if reference.rest = [] ∧ reference.tag ≠ none then (String.ofList reference.body, "latest")
      else (String.ofList reference.path, reference.tagName) := by
  cases htag : reference.tag with
  | none =>
    have hbody : reference.body = reference.path := by
      rw [body, htag]
      exact List.append_nil _
    rw [repoAndTag, hbody, rpartition_of_notMem h.colon_notMem_path, tagName, htag]
    simp
  | some tag =>
    have hbody : reference.body = reference.path ++ ':' :: tag := by
      rw [body, htag]
      rfl
    rw [repoAndTag, hbody, rpartition_append (h.tag tag htag).2, tagName, htag]
    dsimp only
    by_cases hrest : reference.rest = []
    · rw [if_pos (by simp [h.slash_mem_path_iff, hrest]), if_pos ⟨hrest, Option.some_ne_none tag⟩]
    · rw [if_neg (by simp [h.slash_mem_path_iff, hrest]), if_neg (fun hand => hrest hand.1)]
      rfl

/-- What is left of a path and its tag is no path. -/
theorem WellFormed.repoAndTag_body_eq_iff (h : reference.WellFormed) :
    repoAndTag reference.body = (String.ofList reference.path, reference.tagName) ↔
      reference.rest ≠ [] ∨ reference.tag = none := by
  rw [h.repoAndTag_body]
  split_ifs with hcase
  · obtain ⟨hrest, htag⟩ := hcase
    refine iff_of_false (fun heq => ?_) (by simp [hrest, htag])
    obtain ⟨tag, htag⟩ := Option.ne_none_iff_exists'.mp htag
    have hbody := String.ofList_injective (Prod.mk.inj heq).1
    rw [body, htag] at hbody
    simp at hbody
  · exact iff_of_true rfl (by tauto)

/-- Behind a first component that is taken for a host, nothing is left that is the path. -/
theorem WellFormed.repoAndTag_tail_ne {registry tag : Option Text} {first second : Text}
    {rest : List Text} (h : WellFormed ⟨registry, first, second :: rest, tag⟩) :
    (repoAndTag (body ⟨none, second, rest, tag⟩)).1 ≠
      String.ofList (Reference.path ⟨registry, first, second :: rest, tag⟩) := by
  rw [h.tail.repoAndTag_body]
  intro heq
  split_ifs at heq with hcase
  · -- the tag is left, and the path has no colon
    obtain ⟨name, htag⟩ := Option.ne_none_iff_exists'.mp hcase.2
    have hcolon : ':' ∈ body ⟨none, second, rest, tag⟩ := by
      rw [body, htag]
      simp
    rw [String.ofList_injective heq] at hcolon
    exact h.colon_notMem_path hcolon
  · have hlength := congrArg List.length (String.ofList_injective heq)
    rw [path_cons, List.length_append, List.length_cons] at hlength
    omega

/-- A name without a slash is annotated with `docker.io/` before it. -/
theorem WellFormed.split_name_ne (h : reference.WellFormed) (hregistry : reference.registry = none)
    (hrest : reference.rest = []) :
    (splitImageReference reference.image).2.2 ≠ reference.image := by
  have htext : reference.text = reference.body := by
    rw [text, hregistry]
    rfl
  have hslash : '/' ∉ reference.body := by
    rw [body, List.mem_append, not_or]
    refine ⟨mt h.slash_mem_path_iff.mp (not_not.mpr hrest), ?_⟩
    cases htag : reference.tag with
    | none => exact List.not_mem_nil
    | some tag => exact List.not_mem_cons_of_ne_of_not_mem (by decide) (h.tag tag htag).1
  rw [image, htext, splitImageReference_name hslash]
  intro heq
  have hlength := congrArg (fun name => name.toList.length) heq
  simp at hlength
  omega

/-- **A reference is read** as it is meant, and annotated as it stands, where it is clear. -/
theorem WellFormed.split_eq_iff (h : reference.WellFormed) :
    splitImageReference reference.image =
        (String.ofList reference.path, reference.tagName, reference.image) ↔ reference.Clear := by
  have hprod : ∀ (parts : String × String) (image : String),
      (parts.1, parts.2, image) = (String.ofList reference.path, reference.tagName, image) ↔
        parts = (String.ofList reference.path, reference.tagName) := by
    rintro ⟨repo, tag⟩ image
    simp
  cases hregistry : reference.registry with
  | some host =>
    obtain ⟨hhost, hslash⟩ := h.registry host hregistry
    rw [image, text, hregistry, Option.elim_some, splitImageReference_slash hslash]
    dsimp only
    rw [if_pos hhost, hprod, h.repoAndTag_body_eq_iff, Clear, hregistry]
  | none =>
    rw [Clear, hregistry]
    obtain ⟨registry, first, rest, tag⟩ := reference
    rcases rest with _ | ⟨second, rest⟩
    · exact iff_of_false (fun heq => h.split_name_ne hregistry rfl (by rw [heq])) (by simp)
    · have hslash := (h.path first List.mem_cons_self).1
      have himage : image ⟨registry, first, second :: rest, tag⟩ =
          String.ofList (first ++ '/' :: body ⟨none, second, rest, tag⟩) := by
        rw [← body_cons registry, image, text, hregistry]
        rfl
      rw [himage, splitImageReference_slash hslash]
      dsimp only
      by_cases hhost : IsHost first
      · rw [if_pos hhost]
        exact iff_of_false (fun heq => h.repoAndTag_tail_ne (Prod.mk.inj heq).1) (by simp [hhost])
      · rw [if_neg hhost, hprod, ← body_cons registry, h.repoAndTag_body_eq_iff]
        exact iff_of_true (.inl (List.cons_ne_nil _ _)) ⟨List.cons_ne_nil _ _, hhost⟩

end Reference

/-! ## The entries of the index -/

section Index

variable {V : Type} {codec : Codec V}

/-- The annotation of an image. -/
def Request.annotation (request : Request) : String := (splitImageReference request.image).2.2

/-- An image adds its entry, or is skipped. -/
theorem addImage_refNames {sources : List Source} {skipUnavailable : Bool}
    {pending pending' : Pending V} {request : Request} {layout layout' : Layout}
    (h : Returns (addImage codec sources skipUnavailable pending request) layout pending' layout') :
    pending' = pending ∨ pending'.descriptors.map IndexDescriptor.refName =
      pending.descriptors.map IndexDescriptor.refName ++ [request.annotation] := by
  rw [addImage_eq] at h
  obtain ⟨resolved, between, -, h⟩ := Returns.bind_iff.mp h
  cases resolved with
  | none => exact .inl (Returns.pure_iff.mp h).1
  | some answer =>
    right
    rw [Option.elim_some, addManifest] at h
    obtain ⟨manifest, _, -, h⟩ := Returns.bind_iff.mp h
    obtain ⟨_, _, -, h⟩ := Returns.bind_iff.mp h
    obtain ⟨blobs, _, -, h⟩ := Returns.bind_iff.mp h
    obtain ⟨downloads, _, -, h⟩ := Returns.bind_iff.mp h
    obtain ⟨rfl, -⟩ := Returns.pure_iff.mp h
    exact List.map_append

/-- The loop over the images adds an entry for each that is not skipped. -/
theorem addImages_refNames {sources : List Source} {skipUnavailable : Bool}
    {requests : List Request} {pending pending' : Pending V} {layout layout' : Layout}
    (h : Returns (requests.foldlM (addImage codec sources skipUnavailable) pending) layout pending'
      layout') :
    ∃ added : List Request, added.Sublist requests ∧
      pending'.descriptors.map IndexDescriptor.refName =
        pending.descriptors.map IndexDescriptor.refName ++ added.map Request.annotation := by
  induction requests generalizing pending layout with
  | nil =>
    obtain ⟨rfl, -⟩ := Returns.pure_iff.mp h
    exact ⟨[], .slnil, by simp⟩
  | cons request requests ih =>
    rw [List.foldlM_cons] at h
    obtain ⟨next, between, hadd, h⟩ := Returns.bind_iff.mp h
    obtain ⟨added, hadded, hnames⟩ := ih h
    rcases addImage_refNames hadd with rfl | hnext
    · exact ⟨added, hadded.cons request, hnames⟩
    · refine ⟨request :: added, hadded.cons_cons request, ?_⟩
      rw [hnames, hnext]
      simp

theorem normalizeEntry_refName {descriptor descriptor' : IndexDescriptor} {layout layout' : Layout}
    (h : Returns (normalizeEntry codec descriptor) layout descriptor' layout') :
    descriptor'.refName = descriptor.refName := by
  rw [normalizeEntry] at h
  obtain ⟨start, _, -, h⟩ := Returns.bind_iff.mp h
  split at h
  · exact absurd h Returns.not_raise
  obtain ⟨manifest, _, -, h⟩ := Returns.bind_iff.mp h
  obtain ⟨normalized, _, -, h⟩ := Returns.bind_iff.mp h
  obtain ⟨_, _, -, h⟩ := Returns.bind_iff.mp h
  obtain ⟨rfl, -⟩ := Returns.pure_iff.mp h
  rfl

/-- The normalized index keeps its annotations. -/
theorem normalizeLayout_refNames {layout layout' : Layout} {count : ℕ}
    {manifests : List IndexDescriptor} (hindex : layout.index = .stored manifests)
    (h : Returns (normalizeLayout codec) layout count layout') :
    ∃ normalized, layout'.index = .stored normalized ∧
      normalized.map IndexDescriptor.refName = manifests.map IndexDescriptor.refName := by
  rw [normalizeLayout] at h
  obtain ⟨start, between, hread, hbody⟩ := Returns.bind_iff.mp h
  obtain ⟨rfl, rfl⟩ := Returns.read_iff.mp hread
  rw [hindex] at hbody
  obtain ⟨normalized, rewritten, hloop, h⟩ := Returns.bind_iff.mp hbody
  obtain ⟨_, written, hwrite, h⟩ := Returns.bind_iff.mp h
  obtain ⟨-, rfl⟩ := Returns.pure_iff.mp h
  obtain rfl := Returns.write_iff.mp hwrite
  refine ⟨normalized, rfl, ?_⟩
  obtain ⟨collected, rfl, hcollected⟩ := Returns.exists_of_collect hloop
  have hentries : List.Forall₂ (· = ·) (normalized.map IndexDescriptor.refName)
      (manifests.map IndexDescriptor.refName) := by
    rw [List.forall₂_map_left_iff, List.forall₂_map_right_iff]
    exact List.Forall₂.flip (hcollected.imp fun x y ⟨_, _, hentry⟩ => normalizeEntry_refName hentry)
  rwa [List.forall₂_eq_eq_eq] at hentries

/-- **The entries of the index** of a layout that was built are annotated with the images. -/
theorem buildLayout_refNames {call : Call} {layout layout' : Layout} {summary : Summary}
    (h : Returns (buildLayout codec call) layout summary layout') :
    ∃ (manifests : List IndexDescriptor) (added : List Request),
      layout'.index = .stored manifests ∧ added.Sublist call.requests ∧
      manifests.map IndexDescriptor.refName = added.map Request.annotation := by
  rw [buildLayout] at h
  obtain ⟨pending, gathered, himages, h⟩ := Returns.bind_iff.mp h
  obtain ⟨compressedBytes, _, hbytes, h⟩ := Returns.bind_iff.mp h
  split at h
  · exact absurd h Returns.not_raise
  obtain ⟨_, downloaded, hdownloads, h⟩ := Returns.bind_iff.mp h
  obtain ⟨_, written, hwrite, h⟩ := Returns.bind_iff.mp h
  obtain ⟨count, final, hnormalize, h⟩ := Returns.bind_iff.mp h
  obtain ⟨-, rfl⟩ := Returns.pure_iff.mp h
  obtain ⟨added, hadded, hnames⟩ := addImages_refNames himages
  obtain rfl := Returns.write_iff.mp hwrite
  obtain ⟨normalized, hnormalized, hkept⟩ := normalizeLayout_refNames rfl hnormalize
  exact ⟨normalized, added, hnormalized, hadded, hkept.trans hnames⟩

/-- **A list of references** is read as it is meant, annotated as it stands and imported, where all
of it is clear, no reference is there twice, and the manifest counts them. -/
theorem references_importable_iff (codec : Codec V) {references : List Reference}
    (hwf : ∀ reference ∈ references, reference.WellFormed) {call : Call}
    (hcall : call.requests.map Request.image = references.map Reference.image) {layout : Layout}
    {summary : Summary} (hreturns : (buildLayout codec call layout).outcome = .ok summary)
    {manifests : List IndexDescriptor}
    (hindex : (buildLayout codec call layout).final.index = .stored manifests)
    (hcomplete : manifests.length = references.length) {manifest : DatasetManifest}
    {expectedCount : ℤ}
    (hmanifest : manifest.required = .ok (references.map Reference.image, expectedCount)) :
    (∀ reference ∈ references,
        (splitImageReference reference.image).1 = String.ofList reference.path ∧
          (splitImageReference reference.image).2.1 = reference.tagName) ∧
      manifests.map IndexDescriptor.refName = references.map Reference.image ∧
      importImages manifests manifest = .ok (references.map Reference.image) ↔
    (∀ reference ∈ references, reference.Clear) ∧ (references.map Reference.image).Nodup ∧
      references.length = expectedCount := by
  have hrefNames : manifests.map IndexDescriptor.refName =
      references.map fun reference => (splitImageReference reference.image).2.2 := by
    obtain ⟨manifests', added, hindex', hadded, hnames⟩ :=
      buildLayout_refNames (Returns.of_outcome hreturns)
    obtain rfl : manifests = manifests' := IndexFile.stored.inj (hindex.symm.trans hindex')
    have hlength := congrArg List.length hnames
    have hrequests := congrArg List.length hcall
    rw [List.length_map, List.length_map] at hlength hrequests
    obtain rfl := hadded.eq_of_length (by omega)
    rw [hnames]
    show call.requests.map ((fun image => (splitImageReference image).2.2) ∘ Request.image) = _
    rw [← List.map_map, hcall, List.map_map]
    rfl
  have hsame : manifests.map IndexDescriptor.refName = references.map Reference.image ↔
      ∀ reference ∈ references, (splitImageReference reference.image).2.2 = reference.image := by
    rw [hrefNames, List.map_inj_left]
  have hclear : ∀ reference ∈ references, (((splitImageReference reference.image).1 =
      String.ofList reference.path ∧
        (splitImageReference reference.image).2.1 = reference.tagName) ∧
          (splitImageReference reference.image).2.2 = reference.image ↔ reference.Clear) := by
    intro reference hmem
    rw [← (hwf reference hmem).split_eq_iff, Prod.ext_iff, Prod.ext_iff, and_assoc]
  rw [importImages_eq_ok_iff hmanifest, List.length_map]
  constructor
  · rintro ⟨hsplit, hnames, hnodup, -, hcount⟩
    exact ⟨fun reference hmem => (hclear reference hmem).mp
      ⟨hsplit reference hmem, hsame.mp hnames reference hmem⟩, hnodup, hcount⟩
  · rintro ⟨hall, hnodup, hcount⟩
    have hnames := hsame.mpr fun reference hmem => ((hclear reference hmem).mpr (hall _ hmem)).2
    refine ⟨fun reference hmem => ((hclear reference hmem).mpr (hall _ hmem)).1, hnames, hnodup, ?_,
      hcount⟩
    rw [hnames]
    exact fun image => Iff.rfl

end Index

/-! ### Two images -/

/-- `swe/x:v1`. -/
def taggedPath : Reference where
  registry := none
  first := ['s', 'w', 'e']
  rest := [['x']]
  tag := some ['v', '1']

/-- `ubuntu:22.04`. -/
def taggedName : Reference where
  registry := none
  first := ['u', 'b', 'u', 'n', 't', 'u']
  rest := []
  tag := some ['2', '2', '.', '0', '4']

/-- The manifest of a dataset with one task. -/
def oneTask (reference : Reference) : DatasetManifest where
  tasks := some [some reference.image]
  count := some 1

theorem taggedPath_wellFormed : taggedPath.WellFormed where
  registry := by
    intro host hmem
    cases hmem
  path := by decide
  tag := by decide

deriving instance DecidableEq for IndexDescriptor, IndexFile

/-- The index of a layout built of `swe/x:v1`. -/
def builtIndex : List IndexDescriptor :=
  [{  mediaType := ociManifest
      digest := drillCodec.sha256 drillStored
      size := drillStored.length
      refName := "swe/x:v1" }]

theorem taggedPath_importable :
    (∀ reference ∈ [taggedPath],
        (splitImageReference reference.image).1 = String.ofList reference.path ∧
          (splitImageReference reference.image).2.1 = reference.tagName) ∧
      builtIndex.map IndexDescriptor.refName = [taggedPath].map Reference.image ∧
      importImages builtIndex (oneTask taggedPath) = .ok ([taggedPath].map Reference.image) := by
  have hreturns : (buildLayout drillCodec (drillCall (encode "\x7b\x7d")) drillRaised).outcome =
      .ok { images := 1, uniqueBlobs := 2, compressedBytes := 5 } := by decide +kernel
  have hindex : (buildLayout drillCodec (drillCall (encode "\x7b\x7d")) drillRaised).final.index =
      .stored builtIndex := by decide +kernel
  have hmanifest : (oneTask taggedPath).required = .ok ([taggedPath].map Reference.image, 1) := rfl
  refine (references_importable_iff drillCodec (List.forall_mem_singleton.mpr taggedPath_wellFormed)
    (by decide +kernel) hreturns hindex rfl hmanifest).mpr ⟨?_, ?_, rfl⟩
  · exact List.forall_mem_singleton.mpr ⟨List.cons_ne_nil _ _, by decide⟩
  · exact List.nodup_singleton _

theorem taggedName_wellFormed : taggedName.WellFormed where
  registry := by
    intro host hmem
    cases hmem
  path := by decide
  tag := by decide

/-- A name of one component loses its tag, and is annotated as another one. -/
theorem taggedName_not_split :
    taggedName.WellFormed ∧ taggedName.image = "ubuntu:22.04" ∧
      String.ofList taggedName.path = "ubuntu" ∧ taggedName.tagName = "22.04" ∧
      splitImageReference taggedName.image =
        ("ubuntu:22.04", "latest", "docker.io/ubuntu:22.04") := by
  refine ⟨taggedName_wellFormed, ?_⟩
  decide +kernel

end Oci
