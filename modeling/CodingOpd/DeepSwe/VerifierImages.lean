import Mathlib.Data.List.Nodup
import Mathlib.Logic.Function.Basic
import CodingOpd.DeepSwe.Tasks

/-!
# Verifier images

`prepare_deepswe_verifier_images.py` builds an image from the `tests` directory of every task, under
the name that the ID of the task gives, unless there is an image of that name. A task is graded by
the image that its row names.

## Main definitions

* `portableDockerfile`, `prepareImage`, `prepare`: the Dockerfile of a task, and the script
* `OwnVerifiers`: no task is left with the verifier of another one
* `Apart`: the task IDs that their tags tell apart

## Main results

* `OwnVerifiers.prepare`: where the IDs are apart, the script keeps the verifiers apart
* `verifiers_apart_iff`: the rows have images of their own exactly when the IDs are apart
-/

open Python

namespace DeepSwe

/-- `portable_deepswe_verifier_dockerfile` -/
def portableDockerfile (context : Context) : Except PyError Text := do
  let dockerfile ← context.dockerfile
  let lines := (splitlines dockerfile).rdropWhile fun line => strip line = []
  raiseUnless (lines.getLast?.map strip = some "RUN chmod +x /tests/test.sh".toList)
    (.valueError "unexpected final verifier Dockerfile instruction")
  raiseUnless context.testScript (.valueError "verifier test.sh must already be executable")
  return join ['\n'] lines.dropLast ++ ['\n']

/-- The images of the store, each with the task whose tests it was built from. -/
abbrev Images := Text → Option Text

section

variable (lower : Text → Text)

/-- A task of the loop of the script. `podman build` may fail for an image and a Dockerfile. -/
def prepareImage (contexts : Text → Option Context) (builds : Text → Text → Bool)
    (checkOnly : Bool) (images : Images) (taskId : Text) : Images × Except PyError Text :=
  match deepsweVerifierImage lower taskId, contexts taskId with
  | .error error, _ => (images, .error error)
  | .ok _, none => (images, .error (.valueError "missing verifier build context"))
  | .ok image, some context =>
    if (images image).isSome then (images, .ok image)
    else if checkOnly then
      (images, .error (.runtimeError "missing DeepSWE verifier image"))
    else
      match portableDockerfile context with
      | .error error => (images, .error error)
      | .ok dockerfile =>
        if builds image dockerfile then (Function.update images image (some taskId), .ok image)
        else (images, .error (.runtimeError "podman build returned non-zero exit status"))

/-- The loop of the script, up to the task that raises. -/
def prepare (contexts : Text → Option Context) (builds : Text → Text → Bool) (checkOnly : Bool) :
    Images → List Text → Images × Except PyError (List Text)
  | images, [] => (images, .ok [])
  | images, taskId :: taskIds =>
    match prepareImage lower contexts builds checkOnly images taskId with
    | (images, .error error) => (images, .error error)
    | (images, .ok image) =>
      let (images, results) := prepare contexts builds checkOnly images taskIds
      (images, results.map (image :: ·))

/-- The image that a row names was built from the tests of its task, if there is one. -/
def OwnVerifiers (rows : List EvalRow) (images : Images) : Prop :=
  ∀ row ∈ rows, ∀ taskId, images row.metadata.verifierImage = some taskId → taskId = row.taskId

/-- No ID, and no name of its directory, is alike to the name of another task's directory. -/
def Apart (rootName : Text) (taskIds : List Text) : Prop :=
  ∀ taskId ∈ taskIds, ∀ other ∈ taskIds, taskId ≠ other →
    ¬ AlikeIds lower (nameOf rootName taskId) (nameOf rootName other) ∧
    ¬ AlikeIds lower (nameOf rootName taskId) other

end

variable {lower : Text → Text} {contexts : Text → Option Context} {builds : Text → Text → Bool}
  {checkOnly : Bool} {images : Images} {rows : List EvalRow} {rootName : Text}
  {taskIds : List Text}

/-- All that a task does to the store: it adds an image of the name that its ID gives. -/
theorem images_of_prepareImage (taskId : Text) :
    (prepareImage lower contexts builds checkOnly images taskId).1 = images ∨
      ∃ image, deepsweVerifierImage lower taskId = .ok image ∧
        (prepareImage lower contexts builds checkOnly images taskId).1 =
          Function.update images image (some taskId) := by
  unfold prepareImage
  split
  · exact Or.inl rfl
  · exact Or.inl rfl
  · rename_i image context himage _
    split_ifs
    · exact Or.inl rfl
    · exact Or.inl rfl
    · split
      · exact Or.inl rfl
      · split_ifs
        · exact Or.inr ⟨image, himage, rfl⟩
        · exact Or.inl rfl

/-- A task whose image no other row names keeps the verifiers apart. -/
theorem OwnVerifiers.prepareImage {taskId : Text} (h : OwnVerifiers rows images)
    (hnamed : ∀ row ∈ rows, deepsweVerifierImage lower taskId = .ok row.metadata.verifierImage →
      taskId = row.taskId) :
    OwnVerifiers rows (prepareImage lower contexts builds checkOnly images taskId).1 := by
  rcases images_of_prepareImage taskId with hsame | ⟨image, himage, hadded⟩
  · rwa [hsame]
  · rw [hadded]
    intro row hrow builder hbuilder
    rw [Function.update_apply] at hbuilder
    split_ifs at hbuilder with heq
    · cases hbuilder
      exact hnamed row hrow (heq ▸ himage)
    · exact h row hrow builder hbuilder

/-- **The script keeps the verifiers apart** where no row names the image of another task. -/
theorem OwnVerifiers.prepare (h : OwnVerifiers rows images)
    (hnamed : ∀ taskId ∈ taskIds, ∀ row ∈ rows,
      deepsweVerifierImage lower taskId = .ok row.metadata.verifierImage → taskId = row.taskId) :
    OwnVerifiers rows (prepare lower contexts builds checkOnly images taskIds).1 := by
  induction taskIds generalizing images with
  | nil => exact h
  | cons taskId taskIds ih =>
    obtain ⟨htask, hrest⟩ := List.forall_mem_cons.mp hnamed
    have hnext : OwnVerifiers rows
        (DeepSwe.prepareImage lower contexts builds checkOnly images taskId).1 :=
      h.prepareImage htask
    unfold DeepSwe.prepare
    split
    · rename_i images' error hraised
      rwa [hraised] at hnext
    · rename_i images' image hprepared
      rw [hprepared] at hnext
      exact ih hnext hrest

/-! ## Tags that collide -/

/-- A `tests` directory that the script can build an image from. -/
def plainContext : Context := ⟨.ok "RUN chmod +x /tests/test.sh".toList, true⟩

theorem portableDockerfile_plainContext : portableDockerfile plainContext = .ok ['\n'] := by
  decide

/-- The script builds the image of the first task, where the store is empty. -/
theorem prepare_singleton {other image : Text}
    (himage : deepsweVerifierImage lower other = .ok image) :
    (prepare lower (fun _ => some plainContext) (fun _ _ => true) false (fun _ => none) [other]).1
      image = some other := by
  simp [prepare, prepareImage, himage, portableDockerfile_plainContext]

/-- Task IDs that are alike get one image. -/
theorem verifierImage_of_alike {taskId other image : Text} (h : AlikeIds lower taskId other)
    (himage : deepsweVerifierImage lower taskId = .ok image) :
    deepsweVerifierImage lower other = .ok image := by
  rw [deepsweVerifierImage_eq_ok, ← safe_eq_iff.mpr h]
  exact deepsweVerifierImage_eq_ok.mp himage

/-- **Verifier images**: the rows of distinct tasks have images of their own, and the script, over
any of the tasks, keeps the verifiers apart, exactly when no two of the tasks are alike. -/
theorem verifiers_apart_iff {dirs : Text → TaskDir} {split : String} (hnodup : taskIds.Nodup)
    (hrows : materializeDeepsweRows lower rootName dirs taskIds split = .ok rows) :
    ((rows.map (·.metadata.verifierImage)).Nodup ∧
      ∀ contexts builds checkOnly images ids, ids ⊆ taskIds → OwnVerifiers rows images →
        OwnVerifiers rows (prepare lower contexts builds checkOnly images ids).1) ↔
      Apart lower rootName taskIds := by
  obtain ⟨hids, himages⟩ := verifierImage_of_materialize hrows
  have hrowsNodup : rows.Nodup := List.Nodup.of_map _ (hids ▸ hnodup)
  have hmem : ∀ row ∈ rows, row.taskId ∈ taskIds := fun row hrow =>
    hids ▸ List.mem_map_of_mem hrow
  rw [List.nodup_map_iff_inj_on hrowsNodup]
  constructor
  · rintro ⟨hdistinct, hprepare⟩ taskId htaskId other hother hne
    rw [← hids, List.mem_map] at htaskId hother
    obtain ⟨row, hrow, rfl⟩ := htaskId
    obtain ⟨row', hrow', rfl⟩ := hother
    constructor
    · intro halike
      have heq := (verifierImage_eq_iff (himages row hrow) (himages row' hrow')).mpr halike
      exact hne (congrArg (·.taskId) (hdistinct row hrow row' hrow' heq))
    -- The script, on the other task alone, builds the image that the row of this one names.
    · intro halike
      have hbuilt := prepare_singleton (verifierImage_of_alike halike (himages row hrow))
      have hown := hprepare (fun _ => some plainContext) (fun _ _ => true) false (fun _ => none)
        [row'.taskId] (by simpa using hmem row' hrow') fun _ _ _ h => nomatch h
      exact hne (hown row hrow _ hbuilt).symm
  · intro hapart
    constructor
    · intro row hrow row' hrow' heq
      by_contra hne
      have hne : row.taskId ≠ row'.taskId := fun h =>
        hne (List.inj_on_of_nodup_map (hids ▸ hnodup) hrow hrow' h)
      exact (hapart _ (hmem row hrow) _ (hmem row' hrow') hne).1
        ((verifierImage_eq_iff (himages row hrow) (himages row' hrow')).mp heq)
    · intro contexts builds checkOnly images ids hsub hown
      refine hown.prepare fun taskId htask row hrow himage => ?_
      by_contra hne
      exact (hapart _ (hmem row hrow) _ (hsub htask) (Ne.symm hne)).2
        ((verifierImage_eq_iff (himages row hrow) himage).mp rfl)

/-- A complete directory, with an agent's image of its own. -/
def plainDir (taskId : Text) : TaskDir where
  config := some <| .ok [
    ("metadata".toList, .table [("base_commit_hash".toList, .str "0123abc".toList)] []),
    ("environment".toList, .table [("docker_image".toList, .str taskId)] []),
    ("verifier".toList, .table [("environment_mode".toList, .str "separate".toList)] [])]
  instruction := some (.ok [])
  tests := some plainContext

/-- The row of a task whose directory is plain. -/
def plainRow (taskId image : String) : EvalRow where
  dataSource := "DataCurve/DeepSWE-v1.1"
  prompt := []
  taskId := taskId.toList
  split := "quick"
  taskName := "deep_swe"
  image := taskId.toList
  metadata := ⟨taskId.toList, "0123abc".toList, [], [], [], image.toList⟩

/-- The rows of IDs whose images differ. -/
def hyphenRows : List EvalRow :=
  [plainRow "fix-bug" "coding-opd/deepswe-verifier:v1.1-fix-bug",
    plainRow "fix_bug" "coding-opd/deepswe-verifier:v1.1-fix_bug"]

theorem verifiers_apart_hyphen_underscore :
    (hyphenRows.map (·.metadata.verifierImage)).Nodup ∧
      ∀ contexts builds checkOnly images ids, ids ⊆ ["fix-bug".toList, "fix_bug".toList] →
        OwnVerifiers hyphenRows images →
        OwnVerifiers hyphenRows
          (prepare (·.map Char.toLower) contexts builds checkOnly images ids).1 := by
  have hrows : materializeDeepsweRows (·.map Char.toLower) [] plainDir
      ["fix-bug".toList, "fix_bug".toList] "quick" = .ok hyphenRows := by
    rfl
  refine (verifiers_apart_iff (by decide) hrows).mpr ?_
  intro taskId htaskId other hother hne
  rw [List.mem_pair] at htaskId hother
  rw [← safe_eq_iff, ← safe_eq_iff]
  rcases htaskId with rfl | rfl <;> rcases hother with rfl | rfl
  · exact absurd rfl hne
  · decide
  · decide
  · exact absurd rfl hne

/-- The rows of IDs that differ in case. -/
def caseRows : List EvalRow :=
  [plainRow "fix-bug" "coding-opd/deepswe-verifier:v1.1-fix-bug",
    plainRow "Fix-Bug" "coding-opd/deepswe-verifier:v1.1-fix-bug"]

/-- IDs that differ in case have one verifier image, which the script builds for the first. -/
theorem not_verifiers_apart_case :
    ["fix-bug".toList, "Fix-Bug".toList].Nodup ∧
      materializeDeepsweRows (·.map Char.toLower) [] plainDir
        ["fix-bug".toList, "Fix-Bug".toList] "quick" = .ok caseRows ∧
      ¬ (caseRows.map (·.metadata.verifierImage)).Nodup ∧
      ¬ OwnVerifiers caseRows (prepare (·.map Char.toLower) (fun _ => some plainContext)
        (fun _ _ => true) false (fun _ => none) ["fix-bug".toList, "Fix-Bug".toList]).1 := by
  refine ⟨by decide, rfl, by decide, fun hown => ?_⟩
  have hbuilder : "fix-bug".toList = "Fix-Bug".toList :=
    hown (plainRow "Fix-Bug" "coding-opd/deepswe-verifier:v1.1-fix-bug") (by decide) _ (by rfl)
  exact absurd hbuilder (by decide)

end DeepSwe
