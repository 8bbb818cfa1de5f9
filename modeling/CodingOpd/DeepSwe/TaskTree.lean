import Mathlib.Data.List.Lex
import Mathlib.Data.String.Basic
import CodingOpd.Library.RankedSort
import CodingOpd.Library.SelfDelimiting
import CodingOpd.Python.Utf8

/-!
# The hash of a task tree

`sha256_tree` hashes the files below a directory in the order of their paths: the length of the
path's name, the name, the length of the content and the content. What is hashed tells the files.

## Main definitions

* `RelativePath`, `Tree`: the path of a file below the root, and the files by their paths
* `hashInput`, `sha256Tree`: what `sha256_tree` hashes, and the function
* `Accepted`: a tree that the script materialises with a manifest

## Main results

* `hashInput_inj`: trees with one hash input are the same
* `Accepted.unique`: a manifest stands for one tree, or SHA-256 collides
-/

open Python RankedSort

namespace DeepSwe

/-- The path of a file below the root. -/
structure RelativePath where
  parts : List String
  parts_ne : parts ≠ []
  noSlash : ∀ part ∈ parts, '/' ∉ part.toList

namespace RelativePath

/-- `path.as_posix()` -/
def asPosix (path : RelativePath) : Text := join ['/'] (path.parts.map String.toList)

theorem parts_injective : Function.Injective parts := by
  rintro ⟨parts, _, _⟩ ⟨_, _, _⟩ rfl
  rfl

/-- Paths are compared part by part. -/
instance : LinearOrder RelativePath := LinearOrder.lift' parts parts_injective

/-- The parts are those between the slashes. -/
theorem split_asPosix (path : RelativePath) :
    split ['/'] path.asPosix = path.parts.map String.toList := by
  have hparts : ∀ part ∈ path.parts.map String.toList, '/' ∉ part := by
    intro part hpart
    obtain ⟨part, hmem, rfl⟩ := List.mem_map.mp hpart
    exact path.noSlash part hmem
  have hne : path.parts.map String.toList ≠ [] := mt List.map_eq_nil_iff.mp path.parts_ne
  rw [asPosix, ← List.dropLast_append_getLast hne]
  refine split_join (List.cons_ne_nil _ _) (fun part hpart hwithin => ?_) fun hwithin => ?_
  · rw [List.dropLast_singleton, List.append_nil] at hwithin
    exact hparts part (List.mem_of_mem_dropLast hpart) (hwithin.subset List.mem_cons_self)
  · exact hparts _ (List.getLast_mem hne) (hwithin.subset List.mem_cons_self)

theorem asPosix_injective : Function.Injective asPosix := by
  intro path path' heq
  apply parts_injective
  apply List.map_injective_iff.mpr fun _ _ => String.toList_inj.mp
  rw [← split_asPosix, heq, split_asPosix]

end RelativePath

/-- The files below a directory. -/
abbrev Tree := Finmap fun _ : RelativePath => Bytes

/-- `n.to_bytes(8, "big")`, when `n` is below `2 ** 64`. -/
def toBytes (n : ℕ) : Option Bytes := if n < 2 ^ 64 then some (bigEndian 8 n) else none

/-- What `digest` is updated with for a file. -/
def fileInput (file : RelativePath × Bytes) : Option Bytes := do
  let relative := Utf8.encode file.1.asPosix
  let content := file.2
  return (← toBytes relative.length) ++ relative ++ (← toBytes content.length) ++ content

/-- What `sha256_tree` hashes. -/
def hashInput (root : Tree) : Option Bytes :=
  ((sortedItems (Equiv.refl _) root).mapM fileInput).map List.flatten

/-- `sha256_tree`. -/
def sha256Tree (sha256 : Bytes → Text) (root : Tree) : Option Text := (hashInput root).map sha256

/-- The script goes on with the tree, when this is the manifest's `task_tree_sha256`. -/
def Accepted (sha256 : Bytes → Text) (expected : Text) (root : Tree) : Prop :=
  sha256Tree sha256 root = some expected

/-! ## Files -/

/-- The lengths of the name and of the content have eight bytes. -/
def Fits (file : RelativePath × Bytes) : Prop :=
  (Utf8.encode file.1.asPosix).length < 2 ^ 64 ∧ file.2.length < 2 ^ 64

/-- A text behind its length. -/
def sized (bytes : Bytes) : Bytes := bigEndian 8 bytes.length ++ bytes

/-- The name and the content of a file, in bytes. -/
def named (file : RelativePath × Bytes) : Bytes × Bytes := (Utf8.encode file.1.asPosix, file.2)

theorem named_injective : Function.Injective named := by
  intro file file' heq
  obtain ⟨hname, hcontent⟩ := Prod.mk.inj heq
  exact Prod.ext (RelativePath.asPosix_injective (Utf8.encode_injective hname)) hcontent

/-- What is hashed of a file that fits. -/
def fileCode (file : RelativePath × Bytes) : Bytes :=
  sized (named file).1 ++ sized (named file).2

theorem fileInput_eq {file : RelativePath × Bytes} {input : Bytes} :
    fileInput file = some input ↔ Fits file ∧ fileCode file = input := by
  have hlength : ∀ {n : ℕ} {bytes : Bytes},
      toBytes n = some bytes ↔ n < 2 ^ 64 ∧ bigEndian 8 n = bytes := by
    intro n bytes
    unfold toBytes
    split_ifs with hlt
    · simp only [hlt, true_and, Option.some.injEq]
    · simp only [hlt, false_and]
  simp only [fileInput, bind, pure, Option.bind_eq_some_iff, hlength, Option.some.injEq, Fits,
    fileCode, named, sized]
  constructor
  · rintro ⟨_, ⟨hname, rfl⟩, _, ⟨hcontent, rfl⟩, rfl⟩
    exact ⟨⟨hname, hcontent⟩, by simp only [List.append_assoc]⟩
  · rintro ⟨⟨hname, hcontent⟩, rfl⟩
    exact ⟨_, ⟨hname, rfl⟩, _, ⟨hcontent, rfl⟩, by simp only [List.append_assoc]⟩

theorem selfDelimiting_fileCode : SelfDelimiting fileCode {file | Fits file} := by
  have hsized : SelfDelimiting sized {bytes | bytes.length ∈ Set.Iio (256 ^ 8)} :=
    (selfDelimiting_bigEndian 8).lengthPrefixed
  have hpow : 256 ^ 8 = 2 ^ 64 := by decide
  rw [hpow] at hsized
  exact (hsized.prod hsized).comp named_injective.injOn fun file hfits => ⟨hfits.1, hfits.2⟩

theorem fileCode_ne_nil (file : RelativePath × Bytes) : fileCode file ≠ [] := by
  intro hnil
  have hlength := congrArg List.length hnil
  rw [fileCode, sized, List.length_append, List.length_append, length_bigEndian,
    List.length_nil] at hlength
  omega

theorem mapM_fileInput {files : List (RelativePath × Bytes)} {inputs : List Bytes} :
    files.mapM fileInput = some inputs ↔
      (∀ file ∈ files, Fits file) ∧ files.map fileCode = inputs := by
  induction files generalizing inputs with
  | nil => simp only [List.mapM_nil, List.map_nil, List.not_mem_nil, false_implies, implies_true,
      true_and, pure, Option.some.injEq]
  | cons file files ih =>
    simp only [List.mapM_cons, bind, pure, Option.bind_eq_some_iff, fileInput_eq, ih,
      Option.some.injEq, List.forall_mem_cons, List.map_cons]
    constructor
    · rintro ⟨_, ⟨hfile, rfl⟩, _, ⟨hfiles, rfl⟩, rfl⟩
      exact ⟨⟨hfile, hfiles⟩, rfl⟩
    · rintro ⟨⟨hfile, hfiles⟩, rfl⟩
      exact ⟨_, ⟨hfile, rfl⟩, _, ⟨hfiles, rfl⟩, rfl⟩

/-! ## Trees -/

/-- The lengths of the names and of the contents of all the files have eight bytes. -/
def Tree.Fits (root : Tree) : Prop :=
  ∀ path content, root.lookup path = some content → DeepSwe.Fits (path, content)

theorem Tree.Fits.file {root : Tree} (h : root.Fits) {file : RelativePath × Bytes}
    (hfile : file ∈ sortedItems (Equiv.refl _) root) : DeepSwe.Fits file :=
  h file.1 file.2 (mem_sortedItems.mp hfile)

/-- What is hashed of a tree, and which trees are. -/
theorem hashInput_eq_some {root : Tree} {input : Bytes} :
    hashInput root = some input ↔
      root.Fits ∧ (sortedItems (Equiv.refl _) root).flatMap fileCode = input := by
  simp only [hashInput, Option.map_eq_some_iff, mapM_fileInput]
  constructor
  · rintro ⟨_, ⟨hfits, rfl⟩, rfl⟩
    exact ⟨fun path content hfile => hfits (path, content) (mem_sortedItems.mpr hfile), rfl⟩
  · rintro ⟨hfits, rfl⟩
    exact ⟨_, ⟨fun _ => hfits.file, rfl⟩, rfl⟩

theorem eq_of_hashInput_eq_some {root root' : Tree} {input : Bytes}
    (h : hashInput root = some input) (h' : hashInput root' = some input) : root = root' := by
  obtain ⟨hfits, hinput⟩ := hashInput_eq_some.mp h
  obtain ⟨hfits', hinput'⟩ := hashInput_eq_some.mp h'
  apply sortedItems_injective (Equiv.refl _)
  exact selfDelimiting_fileCode.flatMap_inj (fun file _ => fileCode_ne_nil file)
    (fun _ => hfits.file) (fun _ => hfits'.file) (hinput.trans hinput'.symm)

/-- **A manifest stands for one tree**, or SHA-256 collides. -/
theorem Accepted.unique {sha256 : Bytes → Text} {expected : Text} {root root' : Tree}
    (h : Accepted sha256 expected root) (h' : Accepted sha256 expected root') :
    root = root' ∨ ∃ input input', input ≠ input' ∧ sha256 input = sha256 input' := by
  obtain ⟨input, hinput, hhash⟩ := Option.map_eq_some_iff.mp h
  obtain ⟨input', hinput', hhash'⟩ := Option.map_eq_some_iff.mp h'
  rcases eq_or_ne input input' with rfl | hne
  · exact .inl (eq_of_hashInput_eq_some hinput hinput')
  · exact .inr ⟨input, input', hne, hhash.trans hhash'.symm⟩

/-- **The hash input tells the tree**: no other tree has it. -/
theorem hashInput_inj {root root' : Tree} (h : root.Fits) (h' : root'.Fits) :
    (∃ input, hashInput root = some input) ∧ (hashInput root = hashInput root' ↔ root = root') := by
  have hinput := hashInput_eq_some.mpr ⟨h, rfl⟩
  have hinput' := hashInput_eq_some.mpr ⟨h', rfl⟩
  refine ⟨⟨_, hinput⟩, fun heq => ?_, fun heq => heq ▸ rfl⟩
  exact eq_of_hashInput_eq_some (heq.trans hinput') hinput'

/-- A file `ab` with the byte `c`, and one `a` with `bc`. -/
def abFile : RelativePath × Bytes := (⟨["ab"], by decide, by decide⟩, [99])

def aFile : RelativePath × Bytes := (⟨["a"], by decide, by decide⟩, [98, 99])

theorem hashInput_inj_moved :
    (∃ input, hashInput (Finmap.singleton abFile.1 abFile.2) = some input) ∧
      (hashInput (Finmap.singleton abFile.1 abFile.2) =
          hashInput (Finmap.singleton aFile.1 aFile.2) ↔
        (Finmap.singleton abFile.1 abFile.2 : Tree) = Finmap.singleton aFile.1 aFile.2) := by
  have hfits : ∀ file : RelativePath × Bytes, DeepSwe.Fits file →
      Tree.Fits (Finmap.singleton file.1 file.2) := by
    intro file hfile path content hlookup
    obtain rfl := (Finmap.mem_singleton _ _ _).mp (Finmap.mem_of_lookup_eq_some hlookup)
    rw [Finmap.lookup_singleton_eq] at hlookup
    exact Option.some.inj hlookup ▸ hfile
  exact hashInput_inj (hfits abFile ⟨by decide, by decide⟩) (hfits aFile ⟨by decide, by decide⟩)

end DeepSwe
