import Mathlib.Data.Rat.Floor
import CodingOpd.Python.Integers
import CodingOpd.Selection.Nested
import CodingOpd.Selection.Verified

/-!
# Manifests

`freeze_dataset_manifests.py` writes the tasks of a selection into a manifest, and a materializer
looks the tasks of a manifest up in a source.

## Main definitions

* `Item`: a value of a manifest
* `r2eManifest`, `verifiedManifest`: the manifests that `main` writes
* `selectFrozenManifestRows`, `selectVerifiedManifestRows`: the functions of these names
-/

open Python RankedSort

namespace Selection

/-- A value of a manifest. A float is known by its value, unless it is infinite or no number. -/
inductive Item where
  | null
  | bool (value : Bool)
  | int (n : ℤ)
  | float (value : Option ℚ)
  | str (text : String)
  | list (items : List Item)
  | dict (items : List (String × Item))

namespace Item

/-- `value == text` -/
def isStr (text : String) : Item → Bool
  | str value => value = text
  | _ => false

/-- `value == n` -/
def equalsInt (n : ℤ) : Item → Bool
  | bool value => n = if value then 1 else 0
  | int m => m = n
  | float (some value) => value = n
  | _ => false

/-- `int(value)` -/
def toInt : Item → Except PyError ℤ
  | bool value => .ok (if value then 1 else 0)
  | int n => .ok n
  | float (some value) => .ok (value.num.tdiv value.den)
  | float none => .error (.valueError "cannot convert float to integer")
  | str text =>
    match parseInt text.toList with
    | some n => .ok n
    | none => .error (.valueError "invalid literal for int()")
  | _ => .error (.typeError "int() argument must be a string or a real number")

/-- `value.get(name)` -/
def get (name : String) : Item → Except PyError (Option Item)
  | dict items => .ok (items.lookup name)
  | _ => .error (.attributeError "object has no attribute 'get'")

/-- `value[name]` -/
def subscript (name : String) : Item → Except PyError Item
  | dict items => key name (items.lookup name)
  | _ => .error (.typeError "indices must be integers")

/-- The values of `for item in value`. -/
def elements : Item → Except PyError (List Item)
  | list items => .ok items
  | dict items => .ok ((Dict.keys items).map str)
  | str text => .ok (text.toList.map fun c => str (String.singleton c))
  | _ => .error (.typeError "object is not iterable")

end Item

/-- The column of a complexity field. -/
def ComplexityField.name : ComplexityField → String
  | numNonTestFiles => "num_non_test_files"
  | numNonTestFuncMethods => "num_non_test_func_methods"
  | numNonTestLines => "num_non_test_lines"

/-! ## The manifests that are written -/

/-- `split_counts`, of the values of the field. -/
def splitCounts (values : List String) : Dict Item :=
  (groupSizes (groupBy id values)).sortItems.mapValues .int

/-- The number of different images: `len({task["docker_image"] for task in tasks})`. -/
def imageCount (images : List String) : ℤ := images.toFinset.card

section

variable (hexdigest : String → String)

/-- `id_sha256`, for the hexadecimal digest of an encoded text. -/
def idSha256 (taskIds : List String) : String :=
  hexdigest (String.join (taskIds.map fun taskId => taskId ++ "\n"))

/-- `_base_manifest` -/
def baseManifest (name : String) (count : ℤ) (taskIds : List String) : Dict Item :=
  [("schema", .str "coding_opd.dataset_manifest.v1"), ("name", .str name),
    ("frozen_date", .str "2026-09-02"), ("count", .int count),
    ("task_id_sha256", .str (idSha256 hexdigest taskIds))]

variable {V : Type}

/-- `r2e_task_record` -/
def r2eTaskRecord (row : Row V) (complexityBin : ℕ) : Except PyError Item := do
  let complexityProxy ← ComplexityField.all.mapM fun field => do
    let n ← numeric row field
    return (field.name, Item.int n)
  return .dict [("task_id", .str row.taskId), ("repo_name", .str row.repoName),
    ("commit_hash", .str row.commitHash), ("docker_image", .str row.dockerImage),
    ("complexity_bin", .int complexityBin), ("complexity_proxy", .dict complexityProxy)]

/-- The manifest of a pool, for what `main` tells about the source and the selection. -/
def r2eManifest (name : String) (seed : ℤ) (source selection : Dict Item) (rows : List (Row V))
    (complexityBins : Dict ℕ) : Except PyError (Dict Item) := do
  let tasks ← rows.mapM fun row => do
    let complexityBin ← key row.taskId (complexityBins.lookup row.taskId)
    r2eTaskRecord row complexityBin
  let manifest := (baseManifest hexdigest name tasks.length (rows.map Row.taskId)).update
    [("purpose", .str "training"), ("seed", .int seed), ("source", .dict source),
      ("selection", .dict selection),
      ("repo_counts", .dict (splitCounts (rows.map Row.repoName))),
      ("image_count", .int (imageCount (rows.map Row.dockerImage))), ("tasks", .list tasks)]
  return if name = "r2e_train_128" then manifest.setItem "nested_in" (.str "r2e_train_512")
    else manifest

/-- `text.replace("__", "_1776_")` -/
def replaceUnderscores : Text → Text
  | '_' :: '_' :: rest => "_1776_".toList ++ replaceUnderscores rest
  | c :: rest => c :: replaceUnderscores rest
  | [] => []

/-- `_verified_image`, for the lower-case form that `str.lower` has. -/
def verifiedImage (lower : Text → Text) (instanceId : String) : String :=
  "swebench/sweb.eval.x86_64." ++ String.ofList (replaceUnderscores (lower instanceId.toList))

/-- A task of the manifest of a panel. -/
def verifiedTask (lower : Text → Text) (row : VerifiedRow V) : Item :=
  .dict [("task_id", .str row.instanceId), ("repo", .str row.repo),
    ("docker_image", .str (verifiedImage lower row.instanceId))]

/-- The manifest of a panel of `fullCount` rows, for what `main` tells about their dataset. -/
def verifiedManifest (lower : Text → Text) (seed : ℤ) (dataset revision : String) (fullCount : ℕ)
    (panel : List (VerifiedRow V)) (quotas : Dict ℤ) : Dict Item :=
  (baseManifest hexdigest "swebench_verified_50" panel.length
      (panel.map VerifiedRow.instanceId)).update
    [("purpose", .str "quick_evaluation"),
      ("nested_in", .str "official SWE-bench Verified test split (500 tasks)"),
      ("seed", .int seed),
      ("source", .dict [("dataset", .str dataset), ("revision", .str revision),
        ("split", .str "test"), ("full_count", .int fullCount)]),
      ("selection", .dict [
        ("repository_allocation", .str "one per repository, then largest_remainder(N_repo)"),
        ("within_repository_order", .str "sha256(seed, verified-task, instance_id)"),
        ("repo_quotas", .dict (quotas.mapValues .int))]),
      ("repo_counts", .dict (splitCounts (panel.map VerifiedRow.repo))),
      ("image_count",
        .int (imageCount (panel.map fun row => verifiedImage lower row.instanceId))),
      ("tasks", .list (panel.map (verifiedTask lower)))]

end

/-! ## The tasks of a manifest -/

section Frozen

variable {V : Type}

/-- The fields in which the source has to agree with the task of the manifest. -/
def checkedFields (row : Row V) : List (String × String) :=
  [("repo_name", row.repoName), ("commit_hash", row.commitHash), ("docker_image", row.dockerImage)]

/-- One field of the inner loop of `select_frozen_manifest_rows`. -/
def checkField (item : Item) (field : String × String) : Except PyError Unit := do
  let expected ← item.get field.1
  raiseUnless (expected.any (·.isStr field.2)) (.valueError "manifest/source mismatch")

/-- One task of the loop of `select_frozen_manifest_rows`. The set `seen` holds the ids of the rows
that were selected. -/
def selectTask (sourceById selected : Dict (Row V)) (item : Item) :
    Except PyError (Dict (Row V)) := do
  match ← item.get "task_id" with
  | some (.str uid) =>
    raiseUnless (uid ≠ "") (.valueError "manifest task is missing task_id")
    raiseUnless (uid ∉ selected.keys) (.valueError "duplicate task id in manifest")
    match sourceById.lookup uid with
    | none => .error (.valueError "manifest task is missing from source")
    | some row =>
      (checkedFields row).forM (checkField item)
      return selected ++ [(uid, row)]
  | _ => .error (.valueError "manifest task is missing task_id")

/-- `select_frozen_manifest_rows` -/
def selectFrozenManifestRows (rows : List (RawRow V)) (manifest : Dict Item) :
    Except PyError (List (Row V)) := do
  raiseUnless ((manifest.lookup "schema").any (·.isStr "coding_opd.dataset_manifest.v1"))
    (.valueError "unsupported dataset manifest schema")
  match manifest.lookup "tasks" with
  | some (.list tasks) =>
    raiseUnless ((manifest.lookup "count").any (·.equalsInt tasks.length))
      (.valueError "manifest count does not match its task list")
    let source ← validateSourceRows rows
    let sourceById := Dict.update [] (source.map fun row => (row.taskId, row))
    let selected ← tasks.foldlM (selectTask sourceById) []
    return selected.map Prod.snd
  | _ => .error (.valueError "manifest count does not match its task list")

end Frozen

section Verified

variable {W : Type}

/-- `VERIFIED_REQUIRED_FIELDS` -/
def verifiedRequiredFields : List String :=
  ["instance_id", "repo", "problem_statement", "base_commit", "patch", "test_patch", "version"]

/-- The columns of a row. The others stand in a dictionary. -/
def RawVerifiedRow.columns (raw : RawVerifiedRow (Dict W)) : List String :=
  (raw.instanceId.map fun _ => "instance_id").toList ++ (raw.repo.map fun _ => "repo").toList ++
    raw.other.keys

/-- The row has the required columns. -/
def RawVerifiedRow.HasRequired (raw : RawVerifiedRow (Dict W)) : Prop :=
  ∀ field ∈ verifiedRequiredFields, field ∈ raw.columns

instance RawVerifiedRow.decidableHasRequired (raw : RawVerifiedRow (Dict W)) :
    Decidable raw.HasRequired :=
  inferInstanceAs (Decidable (∀ field ∈ verifiedRequiredFields, _))

/-- One row of the loop of `select_verified_manifest_rows`. -/
def indexVerifiedRow (byId : Dict (RawVerifiedRow (Dict W))) (raw : RawVerifiedRow (Dict W)) :
    Except PyError (Dict (RawVerifiedRow (Dict W))) := do
  let taskId ← key "instance_id" raw.instanceId
  raiseUnless (taskId ∉ byId.keys) (.valueError "duplicate Verified instance_id")
  return byId.setItem taskId raw

/-- `str(task["task_id"])`, for what `str` shows of a value that is no string. -/
def taskIdOf (shown : Item → String) (task : Item) : Except PyError String := do
  match ← task.subscript "task_id" with
  | .str text => return text
  | value => return shown value

/-- `select_verified_manifest_rows` -/
def selectVerifiedManifestRows (hexdigest : String → String) (shown : Item → String)
    (rows : List (RawVerifiedRow (Dict W))) (manifest : Dict Item) :
    Except PyError (List (RawVerifiedRow (Dict W)) × List (RawVerifiedRow (Dict W))) := do
  let source ← key "source" (manifest.lookup "source")
  let fullCount ← source.subscript "full_count"
  let fullCount ← fullCount.toInt
  raiseUnless (rows.length = fullCount) (.valueError "unexpected number of Verified rows")
  raiseUnless (∃ raw ∈ rows.head?, raw.HasRequired)
    (.valueError "Verified rows are missing required columns")
  let byId ← rows.foldlM indexVerifiedRow []
  let tasks ← key "tasks" (manifest.lookup "tasks")
  let tasks ← tasks.elements
  let quickIds ← tasks.mapM (taskIdOf shown)
  let expected ← key "task_id_sha256" (manifest.lookup "task_id_sha256")
  raiseUnless (expected.isStr (idSha256 hexdigest quickIds))
    (.valueError "Verified manifest task ID hash does not match its ordered tasks")
  raiseUnless (∀ taskId ∈ quickIds, taskId ∈ byId.keys)
    (.valueError "Verified source is missing manifest tasks")
  let quick ← quickIds.mapM fun taskId => key taskId (byId.lookup taskId)
  return (quick, rows)

end Verified

end Selection
