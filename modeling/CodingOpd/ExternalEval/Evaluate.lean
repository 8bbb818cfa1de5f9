import CodingOpd.Library.Transition
import CodingOpd.ExternalEval.TransferQueue

/-!
# The external evaluation and its restarts

`_evaluate` loads the finished tasks of the `result.json` it finds, rewrites the file, and goes
over the stages: a stage submits its unfinished tasks for generation and polls the transfer queue
until the generation is done, rewriting the file whenever a session has come in. A process can be
killed at any point, and the next one starts from the file under fresh uids.

## Main definitions

* `Evaluation`: the settings, the samples and the quick panel
* `Process`, `State`, `Event`, `step`: the live process, the files and the queue, and what can
  happen to them
-/

open Python Transition

namespace ExternalEval

/-- What the runs of an evaluation share: distinct samples, and a quick panel of distinct IDs
among them. -/
structure Evaluation (α : Type) where
  settings : Settings
  samples : List (Sample α)
  samples_nodup : (samples.map (·.taskId)).Nodup
  /-- `runtime_manifest["splits"]["quick"]["task_ids"]`. -/
  quickIds : List String
  quickIds_nodup : quickIds.Nodup
  quickIds_subset : quickIds ⊆ samples.map (·.taskId)

/-- `quick_ids`. -/
def Evaluation.panel {α : Type} (evaluation : Evaluation α) : List String :=
  if evaluation.settings.quickFirst then evaluation.quickIds else []

/-- Where `_evaluate` stands. -/
inductive Phase (α : Type) where
  /-- Before a stage, or after the last. -/
  | between
  /-- In the loop of a stage, with its pending samples submitted. -/
  | polling (stage pending : List (Sample α)) (count : ℤ)
  /-- Behind the loop of a stage. -/
  | stageEnd (stage : List (Sample α))

/-- A run of `_evaluate`. -/
structure Process (K α : Type) where
  uidById : String → String
  scores : Scores K
  statuses : Statuses
  /-- The stages not entered yet. -/
  stages : List (List (Sample α))
  /-- `index` of the current stage. -/
  index : ℕ
  phase : Phase α

/-- The result files, the transfer queue and the live process. -/
structure State (K α : Type) where
  result : Option (Result K) := none
  quickResult : Option (Result K) := none
  partition : Partition K := []
  live : Option (Process K α) := none
  /-- The tasks submitted for generation, the last ones first. -/
  submitted : List String := []

/-- What happens next. -/
inductive Event (K : Type) where
  /-- A process starts, with a uid for each task. -/
  | start (uidById : String → String)
  | enterStage
  /-- All the trajectories of a session appear in the queue. -/
  | session (uid session : String) (trajectories : List (ℤ × Tag K))
  /-- The tag of a prompt is set. -/
  | status (uid : String) (tag : Tag K)
  /-- One turn of the polling loop, with `future.done()`. -/
  | poll (done : Bool)
  | leaveStage
  | finish
  | kill

variable {K α : Type} [Field K]

/-- `uids` of some samples. -/
def uidsOf (uidById : String → String) (samples : List (Sample α)) : List String :=
  samples.map fun sample => uidById sample.taskId

/-- One record of a previous `result.json` that a run loads. -/
def loadTask (n : ℕ) (taskIds : List String) (uidById : String → String)
    (loaded : Scores K × Statuses) (record : TaskRecord K) : Except PyError (Scores K × Statuses) :=
  if n ≤ record.scoredSessions then
    if record.taskId ∈ taskIds then
      .ok (loaded.1.insert (uidById record.taskId) record.sessionScores,
        loaded.2.insert (uidById record.taskId) record.status)
    else
      .error (.keyError record.taskId)
  else
    .ok loaded

/-- The scores that a run starts with. -/
def loadScores (evaluation : Evaluation α) (uidById : String → String) :
    Option (Result K) → Except PyError (Scores K × Statuses)
  | none => .ok (∅, ∅)
  | some previous =>
    let settings := evaluation.settings
    if previous.protocol ≠ "shared-react-v1" ∨ previous.modelPath ≠ settings.modelPath ∨
        previous.n ≠ settings.n ∨ previous.taskConfigSha256 ≠ settings.taskConfigSha256 ∨
        previous.runtimeManifestSha256 ≠ settings.runtimeManifestSha256 then
      .error (.valueError "evaluation resume settings differ from the saved result")
    else
      previous.tasks.foldlM
        (loadTask settings.n (evaluation.samples.map (·.taskId)) uidById) (∅, ∅)

namespace State

variable (evaluation : Evaluation α)

/-- `save()`. -/
def save (state : State K α) (process : Process K α) : State K α :=
  { state with
    result := some (writeResult evaluation.settings evaluation.settings.split evaluation.samples
      process.uidById process.scores process.statuses)
    live := some process }

/-- `_evaluate` up to its first `save()`. -/
def start (state : State K α) (uidById : String → String) : Except PyError (State K α) := do
  let (scores, statuses) ← loadScores evaluation uidById state.result
  let stages ← evaluationStages evaluation.samples evaluation.panel
  return state.save evaluation
    { uidById, scores, statuses, stages, index := 0, phase := .between }

/-- A stage is entered: its pending samples are submitted, if there are any. -/
def enterStage (state : State K α) (process : Process K α) (stage : List (Sample α))
    (rest : List (List (Sample α))) : State K α :=
  let pending := stage.filter fun sample =>
    ((process.scores.lookup (process.uidById sample.taskId)).getD []).length <
      evaluation.settings.n
  if pending = [] then
    { state with live := some { process with stages := rest, phase := .stageEnd stage } }
  else
    { state with
      live := some { process with stages := rest, phase := .polling stage pending (-1) }
      submitted := pending.map (·.taskId) ++ state.submitted }

/-- `scores` and `statuses` after a read. -/
def read (state : State K α) (process : Process K α) (pending : List (Sample α)) : Process K α :=
  let new := readScores (uidsOf process.uidById pending) state.partition
  { process with scores := new.1 ∪ process.scores, statuses := new.2 ∪ process.statuses }

/-- `sum(len(v) for v in scores.values())`. -/
def current (scores : Scores K) : ℕ := (scores.entries.map (·.2.length)).sum

/-- One turn of the polling loop. -/
def poll (state : State K α) (process : Process K α) (stage pending : List (Sample α)) (count : ℤ)
    (done : Bool) : State K α :=
  let process := state.read process pending
  let count' : ℤ := current process.scores
  let state := if count' ≠ count ∨ done then state.save evaluation process else state
  { state with
    live := some
      { process with phase := if done then .stageEnd stage else .polling stage pending count' } }

/-- The end of a stage, with `quick_result.json` after the first of two. -/
def leaveStage (state : State K α) (process : Process K α) (stage : List (Sample α)) :
    State K α :=
  let next : Process K α := { process with index := process.index + 1, phase := .between }
  if evaluation.settings.quickFirst ∧ process.index = 0 then
    { state with
      quickResult := some (writeResult evaluation.settings "quick" stage process.uidById
        process.scores process.statuses)
      live := some next }
  else
    { state with live := some next }

end State

/-- The state after an event; `none` where it cannot happen, and where `_evaluate` raises before
its first `save()`. -/
def step (evaluation : Evaluation α) (state : State K α) : Event K → Option (State K α)
  | .start uidById =>
    match state.live with
    | some _ => none
    | none =>
      if (uidsOf uidById evaluation.samples).Nodup then
        match state.start evaluation uidById with
        | .ok next => some next
        | .error _ => none
      else none
  | .enterStage =>
    match state.live with
    | some process =>
      match process.phase, process.stages with
      | .between, stage :: rest => some (state.enterStage evaluation process stage rest)
      | _, _ => none
    | none => none
  | .session uid session trajectories =>
    if session ∈ sessionNames evaluation.settings.n ∧
        ¬ HasSession state.partition uid session then
      some
        { state with
          partition := state.partition ++
            trajectories.map fun trajectory =>
              (.trajectory uid session trajectory.1, trajectory.2) }
    else none
  | .status uid tag => some { state with partition := state.partition ++ [(.prompt uid, tag)] }
  | .poll done =>
    match state.live with
    | some process =>
      match process.phase with
      | .polling stage pending count =>
        some (state.poll evaluation process stage pending count done)
      | _ => none
    | none => none
  | .leaveStage =>
    match state.live with
    | some process =>
      match process.phase with
      | .stageEnd stage => some (state.leaveStage evaluation process stage)
      | _ => none
    | none => none
  | .finish =>
    match state.live with
    | some process =>
      match process.phase, process.stages with
      | .between, [] => some { state.save evaluation process with live := none }
      | _, _ => none
    | none => none
  | .kill => some { state with live := none }

/-- What a step can do, with the guards that the proofs need. -/
inductive Move (evaluation : Evaluation α) (state : State K α) : State K α → Prop where
  | start (uidById : String → String) (next : State K α)
      (hnodup : (uidsOf uidById evaluation.samples).Nodup)
      (hstart : state.start evaluation uidById = .ok next) : Move evaluation state next
  | enterStage (process : Process K α) (stage : List (Sample α)) (rest : List (List (Sample α)))
      (hlive : state.live = some process) :
      Move evaluation state (state.enterStage evaluation process stage rest)
  | session (uid session : String) (trajectories : List (ℤ × Tag K))
      (hname : session ∈ sessionNames evaluation.settings.n)
      (hnew : ¬ HasSession state.partition uid session) :
      Move evaluation state
        { state with
          partition := state.partition ++
            trajectories.map fun trajectory =>
              (.trajectory uid session trajectory.1, trajectory.2) }
  | status (uid : String) (tag : Tag K) :
      Move evaluation state { state with partition := state.partition ++ [(.prompt uid, tag)] }
  | poll (process : Process K α) (stage pending : List (Sample α)) (count : ℤ) (done : Bool)
      (hlive : state.live = some process) (hphase : process.phase = .polling stage pending count) :
      Move evaluation state (state.poll evaluation process stage pending count done)
  | leaveStage (process : Process K α) (stage : List (Sample α))
      (hlive : state.live = some process) :
      Move evaluation state (state.leaveStage evaluation process stage)
  | finish (process : Process K α) (hlive : state.live = some process) :
      Move evaluation state { state.save evaluation process with live := none }
  | kill : Move evaluation state { state with live := none }

theorem move_of_step {evaluation : Evaluation α} {state next : State K α} {event : Event K}
    (h : step evaluation state event = some next) : Move evaluation state next := by
  cases event with
  | start uidById =>
    cases hlive : state.live with
    | some process => simp [step, hlive] at h
    | none =>
      simp only [step, hlive, Option.ite_none_right_eq_some] at h
      obtain ⟨hnodup, h⟩ := h
      cases hstart : state.start evaluation uidById with
      | error error => simp [hstart] at h
      | ok started =>
        rw [hstart] at h
        cases h
        exact .start uidById _ hnodup hstart
  | enterStage =>
    cases hlive : state.live with
    | none => simp [step, hlive] at h
    | some process =>
      cases hphase : process.phase <;> cases hstages : process.stages <;>
        simp only [step, hlive, hphase, hstages, reduceCtorEq] at h
      cases h
      exact .enterStage process _ _ hlive
  | session uid session trajectories =>
    simp only [step, Option.ite_none_right_eq_some, Option.some_inj] at h
    obtain ⟨⟨hname, hnew⟩, rfl⟩ := h
    exact .session uid session trajectories hname hnew
  | status uid tag =>
    cases h
    exact .status uid tag
  | poll done =>
    cases hlive : state.live with
    | none => simp [step, hlive] at h
    | some process =>
      cases hphase : process.phase <;> simp only [step, hlive, hphase, reduceCtorEq] at h
      cases h
      exact .poll process _ _ _ done hlive hphase
  | leaveStage =>
    cases hlive : state.live with
    | none => simp [step, hlive] at h
    | some process =>
      cases hphase : process.phase <;> simp only [step, hlive, hphase, reduceCtorEq] at h
      cases h
      exact .leaveStage process _ hlive
  | finish =>
    cases hlive : state.live with
    | none => simp [step, hlive] at h
    | some process =>
      cases hphase : process.phase <;> cases hstages : process.stages <;>
        simp only [step, hlive, hphase, hstages, reduceCtorEq] at h
      cases h
      exact .finish process hlive
  | kill =>
    cases h
    exact .kill

end ExternalEval
