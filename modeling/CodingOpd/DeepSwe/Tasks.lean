import CodingOpd.Library.Slug
import CodingOpd.Python.Text
import CodingOpd.Python.Values

/-!
# DeepSWE tasks

`materialize_deepswe_rows` reads the directory of every task and writes a row for it, which names
the image that the task is worked on in and the image that grades it. The name of the second one is
derived from the name of the directory.

## Main definitions

* `Toml`, `TaskDir`: a value of `task.toml`, and the directory of a task
* `safe`, `deepsweVerifierImage`: the tag of a task, and `deepswe_verifier_image`
* `nameOf`: the name of the directory that a task ID leads to
* `loadDeepsweTask`, `materializeDeepsweRows`: the functions of these names

## Main results

* `safe_eq_iff`: names that have one tag
* `verifierImage_of_materialize`: the images of the rows
-/

open Python Slug

namespace DeepSwe

/-- A value of a TOML document. Of a value that is no string, `str` is known, and of one that is no
table either, its truth. -/
inductive Toml where
  | str (text : Text)
  | table (items : List (Text × Toml)) (shown : Text)
  | other (truth : Bool) (shown : Text)

namespace Toml

/-- `bool(value)` -/
def isTrue : Toml → Bool
  | str text => text ≠ []
  | table items _ => !items.isEmpty
  | other truth _ => truth

/-- `str(value)` -/
def shown : Toml → Text
  | str text => text
  | table _ shown => shown
  | other _ shown => shown

/-- `value.get(name)` -/
def get (value : Toml) (name : String) : Except PyError (Option Toml) :=
  match value with
  | table items _ => .ok (items.lookup name.toList)
  | _ => .error (.attributeError "object has no attribute 'get'")

end Toml

/-- `str(value or default)` -/
def shownOr (value : Option Toml) (default : Text) : Text :=
  match value with
  | some value => if value.isTrue then value.shown else default
  | none => default

/-- The `tests` directory of a task. -/
structure Context where
  dockerfile : Except PyError Text
  /-- `test.sh` is a file that can be executed. -/
  testScript : Bool

/-- The directory of a task: what is read of its files, where they are there. -/
structure TaskDir where
  /-- `task.toml`, decoded. -/
  config : Option (Except PyError (List (Text × Toml)))
  /-- `instruction.md` -/
  instruction : Option (Except PyError Text)
  tests : Option Context

/-- `[a-z0-9_.-]` -/
def isTagChar (c : Char) : Bool :=
  ('a' ≤ c && c ≤ 'z') || ('0' ≤ c && c ≤ '9') || c ∈ ['_', '.', '-']

/-- A character that `strip("-.")` removes. -/
def isEdge (c : Char) : Bool := c ∈ ['-', '.']

section

variable (lower : Text → Text)

/-- `safe`, for the lower-case form that `str.lower` has. -/
def safe (taskId : Text) : Text := slug isTagChar isEdge '-' (lower taskId)

/-- `deepswe_verifier_image` -/
def deepsweVerifierImage (taskId : Text) : Except PyError Text :=
  if safe lower taskId = [] then
    .error (.valueError "cannot derive verifier image tag from task ID")
  else .ok ("coding-opd/deepswe-verifier:v1.1-".toList ++ safe lower taskId)

/-- `(task_root / task_id).name`, for the name of the root. -/
def nameOf (rootName taskId : Text) : Text :=
  match ((split ['/'] taskId).filter fun part => part ≠ [] ∧ part ≠ ['.']).getLast? with
  | some name => name
  | none => if taskId.head? = some '/' then [] else rootName

/-- `re.fullmatch(r"[0-9a-f]{7,40}", base_commit)` -/
def isCommit (text : Text) : Bool :=
  7 ≤ text.length && text.length ≤ 40 &&
    text.all fun c => ('0' ≤ c && c ≤ '9') || ('a' ≤ c && c ≤ 'f')

/-- `mode == "separate"` -/
def isSeparate : Option Toml → Bool
  | some (.str text) => text = "separate".toList
  | _ => false

/-- The metadata of a row: the entries of a task but that of the agent's image. -/
structure Metadata where
  taskId : Text
  baseCommitHash : Text
  language : Text
  repository : Text
  instruction : Text
  verifierImage : Text
deriving DecidableEq

/-- What `load_deepswe_task` returns. -/
structure Task extends Metadata where
  agentImage : Text
deriving DecidableEq

/-- `load_deepswe_task`, of a directory with a name. -/
def loadDeepsweTask (name : Text) (dir : TaskDir) : Except PyError Task :=
  match dir.config, dir.instruction, dir.tests with
  | some config, some instruction, some _ => do
    let config ← config
    let metadata := (config.lookup "metadata".toList).getD (.table [] [])
    let environment := (config.lookup "environment".toList).getD (.table [] [])
    let verifier := (config.lookup "verifier".toList).getD (.table [] [])
    let taskId := shownOr (← metadata.get "task_id") name
    let baseCommit := shownOr (← metadata.get "base_commit_hash") []
    raiseUnless (taskId = name) (.valueError "DeepSWE task directory/name mismatch")
    raiseUnless (isCommit baseCommit) (.valueError "invalid DeepSWE base commit")
    let mode ← verifier.get "environment_mode"
    raiseUnless (isSeparate mode)
      (.valueError "DeepSWE task must use a separate verifier environment")
    let image := shownOr (← environment.get "docker_image") []
    raiseUnless (image ≠ []) (.valueError "DeepSWE task has no agent image")
    let language := shownOr (← metadata.get "language") []
    let repository := shownOr (← metadata.get "repository_url") []
    let instruction ← instruction
    let verifierImage ← deepsweVerifierImage lower taskId
    return { taskId, baseCommitHash := baseCommit, language, repository, instruction,
             agentImage := image, verifierImage }
  | _, _, _ => .error (.valueError "incomplete DeepSWE task directory")

/-- A row of the evaluation. -/
structure EvalRow where
  dataSource : String
  prompt : Text
  taskId : Text
  split : String
  taskName : String
  image : Text
  metadata : Metadata
deriving DecidableEq

/-- The row of a task. -/
def evalRow (split : String) (taskId : Text) (task : Task) : EvalRow where
  dataSource := "DataCurve/DeepSWE-v1.1"
  prompt := task.instruction
  taskId
  split
  taskName := "deep_swe"
  image := task.agentImage
  metadata := task.toMetadata

/-- `materialize_deepswe_rows`, for what the task root holds under a task ID. -/
def materializeDeepsweRows (rootName : Text) (dirs : Text → TaskDir) (taskIds : List Text)
    (split : String) : Except PyError (List EvalRow) :=
  taskIds.mapM fun taskId => do
    let task ← loadDeepsweTask lower (nameOf rootName taskId) (dirs taskId)
    return evalRow split taskId task

end

/-! ## Tags -/

variable {lower : Text → Text}

/-- Task IDs that a tag cannot tell apart: one becomes the other when a hyphen is written for a run
of foreign characters or the run for the hyphen, and hyphens and dots are added or dropped at the
ends. -/
def AlikeIds (lower : Text → Text) (taskId other : Text) : Prop :=
  Alike isTagChar isEdge '-' (lower taskId) (lower other)

/-- **Names have one tag** exactly when they are alike. -/
theorem safe_eq_iff {taskId other : Text} :
    safe lower taskId = safe lower other ↔ AlikeIds lower taskId other := by
  refine (alike_iff (by decide) fun c hc => ?_).symm
  have hmem : c ∈ ['-', '.'] := of_decide_eq_true hc
  rcases List.mem_cons.mp hmem with rfl | hmem
  · decide
  · rw [List.mem_singleton.mp hmem]
    decide

theorem deepsweVerifierImage_eq_ok {taskId image : Text} :
    deepsweVerifierImage lower taskId = .ok image ↔
      safe lower taskId ≠ [] ∧
        image = "coding-opd/deepswe-verifier:v1.1-".toList ++ safe lower taskId := by
  unfold deepsweVerifierImage
  split
  case isTrue hempty => exact iff_of_false (fun h => nomatch h) fun h => h.1 hempty
  case isFalse hne =>
    rw [Except.ok.injEq, eq_comm]
    exact (and_iff_right hne).symm

/-- **Task IDs have one image** exactly when they are alike. -/
theorem verifierImage_eq_iff {taskId other image image' : Text}
    (h : deepsweVerifierImage lower taskId = .ok image)
    (h' : deepsweVerifierImage lower other = .ok image') :
    image = image' ↔ AlikeIds lower taskId other := by
  rw [(deepsweVerifierImage_eq_ok.mp h).2, (deepsweVerifierImage_eq_ok.mp h').2,
    List.append_cancel_left_eq, safe_eq_iff]

/-! ## Rows -/

/-- The task of a directory has its name, and the image of the name. -/
theorem loadDeepsweTask_eq_ok {name : Text} {dir : TaskDir} {task : Task}
    (h : loadDeepsweTask lower name dir = .ok task) :
    deepsweVerifierImage lower name = .ok task.verifierImage := by
  unfold loadDeepsweTask at h
  split at h
  · obtain ⟨config, -, h⟩ := bind_eq_ok.mp h
    dsimp only at h
    obtain ⟨taskId, -, h⟩ := bind_eq_ok.mp h
    obtain ⟨baseCommit, -, h⟩ := bind_eq_ok.mp h
    obtain ⟨hname, h⟩ := raiseUnless_bind_eq_ok.mp h
    obtain ⟨-, h⟩ := raiseUnless_bind_eq_ok.mp h
    obtain ⟨mode, -, h⟩ := bind_eq_ok.mp h
    obtain ⟨-, h⟩ := raiseUnless_bind_eq_ok.mp h
    obtain ⟨image, -, h⟩ := bind_eq_ok.mp h
    obtain ⟨-, h⟩ := raiseUnless_bind_eq_ok.mp h
    obtain ⟨language, -, h⟩ := bind_eq_ok.mp h
    obtain ⟨repository, -, h⟩ := bind_eq_ok.mp h
    obtain ⟨instruction, -, h⟩ := bind_eq_ok.mp h
    obtain ⟨verifierImage, hverifier, h⟩ := bind_eq_ok.mp h
    cases h
    rwa [hname] at hverifier
  · cases h

/-- **The rows** are those of the task IDs, with the images of their directories' names. -/
theorem verifierImage_of_materialize {rootName : Text} {dirs : Text → TaskDir}
    {taskIds : List Text} {split : String} {rows : List EvalRow}
    (h : materializeDeepsweRows lower rootName dirs taskIds split = .ok rows) :
    rows.map (·.taskId) = taskIds ∧ ∀ row ∈ rows,
      deepsweVerifierImage lower (nameOf rootName row.taskId) =
        .ok row.metadata.verifierImage := by
  induction mapM_eq_ok.mp h with
  | nil => exact ⟨rfl, fun row hrow => nomatch hrow⟩
  | @cons taskId row taskIds rows hrow hrows ih =>
    obtain ⟨task, htask, hrow⟩ := bind_eq_ok.mp hrow
    cases hrow
    obtain ⟨hids, himages⟩ := ih (mapM_eq_ok.mpr hrows)
    exact ⟨congrArg (taskId :: ·) hids,
      List.forall_mem_cons.mpr ⟨loadDeepsweTask_eq_ok htask, himages⟩⟩

end DeepSwe
