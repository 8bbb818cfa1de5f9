import Mathlib.Data.Multiset.Range
import Mathlib.Data.Int.ModEq
import CodingOpd.Library.Transition
import CodingOpd.Python.Values

/-!
# The asynchronous trainer with the prefetch hooks

`install_checkpoint_safe_prefetch` patches four methods of veRL's asynchronous trainer. The
trainer here is veRL's loop as the hooks see it: a step adds a batch of dataloader rows to the
queue of prompts, samples it in `parameter_sync_step` parts, saves at its own cadence and ends.
The sampler takes any rows of the queue, and may drop any of them for the next row of the
dataloader; a kill at any point is followed by a resume from the last saved checkpoint.

## Main definitions

* `Config`, `installCheckpointSafePrefetch`: the settings, and the methods they patch
* `Trainer`, `Event`, `Trainer.step`: the trainer's state and what can happen to it
* `Trainer.launch`: the trainer at the start of a process
-/

open Python

namespace Prefetch

/-- `config.trainer.v1.trainer_mode`. -/
inductive TrainerMode where
  | separateAsync
  | other (name : String)
deriving DecidableEq, Repr

/-- The settings that the hooks and the training loop read. -/
structure Config where
  trainerMode : TrainerMode := .separateAsync
  skipRolloutTq : Bool := false
  checkpointSafePrefetch : Bool := false
  numWarmupBatches : ℤ := 0
  maxOffPolicyThreshold : ℤ := 2
  /-- Reads as `-1` where the settings do not have it. -/
  firstCheckpointStep : ℤ := -1
  saveFreq : ℤ
  totalTrainingSteps : ℤ
  /-- The prompts that the sampler takes at each `local_trigger_step`. -/
  sampleBatchSize : ℕ
  parameterSyncStep : ℕ
  parameterSyncStep_pos : 0 < parameterSyncStep

/-- The whole batch of a step, sampled in `parameter_sync_step` equal parts. -/
def Config.trainBatchSize (config : Config) : ℕ := config.parameterSyncStep * config.sampleBatchSize

/-- Which methods of the trainer's class are patched: the marks `_coding_opd_first_checkpoint` of
`on_step_end` and `_coding_opd_prefetch` of `_add_batch_to_generate`. -/
structure TrainerClass where
  firstCheckpoint : Bool := false
  prefetch : Bool := false
deriving DecidableEq, Repr

/-- `install_checkpoint_safe_prefetch`: the class after the call, and how the call ended. -/
def installCheckpointSafePrefetch (config : Config) (cls : TrainerClass) :
    TrainerClass × Except PyError Unit :=
  if config.trainerMode ≠ .separateAsync ∨ config.skipRolloutTq then
    (cls, .ok ())
  else
    let cls := if 0 < config.firstCheckpointStep then { cls with firstCheckpoint := true } else cls
    if ¬ config.checkpointSafePrefetch then
      (cls, .ok ())
    else if config.numWarmupBatches ≠ 0 then
      (cls, .error (.valueError "checkpoint_safe_prefetch requires num_warmup_batches=0"))
    else if config.maxOffPolicyThreshold < 2 then
      (cls, .error (.valueError "checkpoint_safe_prefetch requires max_off_policy_threshold >= 2"))
    else
      ({ cls with prefetch := true }, .ok ())

namespace Config

variable (config : Config)

/-- veRL's own cadence: `fit` saves at the multiples of `save_freq` and at the last step. -/
def RegularSave (step : ℕ) : Prop :=
  0 < config.saveFreq ∧
    ((step : ℤ) % config.saveFreq = 0 ∨ (step : ℤ) = config.totalTrainingSteps)

/-- The condition under which the patched `on_step_end` saves. -/
def EarlySave (step : ℕ) : Prop :=
  (step : ℤ) = config.firstCheckpointStep ∧ (step : ℤ) < config.totalTrainingSteps ∧
    0 < config.saveFreq ∧ (step : ℤ) % config.saveFreq ≠ 0

/-- `boundary` of the patched `on_sample_end`. -/
def Boundary (step : ℕ) : Prop :=
  config.totalTrainingSteps ≤ step ∨
    (0 < config.saveFreq ∧
      ((step : ℤ) % config.saveFreq = 0 ∨ (step : ℤ) = config.firstCheckpointStep))

instance (step : ℕ) : Decidable (config.RegularSave step) :=
  inferInstanceAs (Decidable (_ ∧ _))

instance (step : ℕ) : Decidable (config.EarlySave step) :=
  inferInstanceAs (Decidable (_ ∧ _))

instance (step : ℕ) : Decidable (config.Boundary step) :=
  inferInstanceAs (Decidable (_ ∨ _))

end Config

/-- Who called `_save_checkpoint`: `fit`, or the patched `on_step_end`. -/
inductive SaveKind where
  | regular
  | early
deriving DecidableEq, Repr

/-- What the rows of the dataloader became: a step trained the weights on them, or the sampler
dropped them. It belongs to the weights, and so goes with a checkpoint. -/
structure Lineage where
  trained : Multiset (ℕ × ℕ) := 0
  dropped : Multiset ℕ := 0
deriving DecidableEq

/-- A checkpoint on disk: its step, the dataloader's position, and the lineage of its weights. The
queue and the prefetch mark are not saved. -/
structure Checkpoint where
  globalStep : ℕ
  position : ℕ
  lineage : Lineage
deriving DecidableEq

/-- Where the training loop stands in a step. -/
inductive Phase where
  /-- Before `_add_batch_to_generate`. -/
  | ready
  /-- Inside the replay buffer's `sample`, at a `local_trigger_step`. -/
  | sampling (localTriggerStep : ℕ)
  /-- Before `on_sample_end`, with the rows sampled. -/
  | sampled (localTriggerStep : ℕ) (rows : Multiset ℕ)
  /-- Before the update of the weights on the rows. -/
  | training (localTriggerStep : ℕ) (rows : Multiset ℕ)
  /-- Before the save of `fit`. -/
  | saving
  /-- Before `on_step_end`. -/
  | stepEnd
  | raised (error : PyError)
deriving DecidableEq

/-- The trainer's process and its checkpoint directory. -/
structure Trainer where
  globalSteps : ℕ
  phase : Phase := .ready
  /-- The rows whose prompt markers lie in the transfer queue. -/
  queue : Multiset ℕ := 0
  /-- `_coding_opd_batch_prefetched`. -/
  batchPrefetched : Bool := false
  /-- The next row of the dataloader. -/
  position : ℕ
  lineage : Lineage
  saved : Option Checkpoint
  /-- The first step of this process. -/
  startStep : ℕ
  /-- The calls of veRL's own `_add_batch_to_generate` in this process. -/
  submitted : ℕ := 0
  /-- The calls of veRL's own `_save_checkpoint` in this process. -/
  saves : List (ℕ × SaveKind) := []
deriving DecidableEq

/-- The next rows of the dataloader. -/
def nextRows (position count : ℕ) : Multiset ℕ := (Multiset.range count).map (position + ·)

namespace Trainer

/-- A process starts from the last checkpoint, or afresh where there is none. -/
def launch (start : ℕ) : Option Checkpoint → Trainer
  | none =>
    { globalSteps := start, position := 0, lineage := {}, saved := none, startStep := start }
  | some checkpoint =>
    { globalSteps := checkpoint.globalStep + 1
      position := checkpoint.position
      lineage := checkpoint.lineage
      saved := some checkpoint
      startStep := checkpoint.globalStep + 1 }

/-- veRL's `_add_batch_to_generate`. -/
def originalAdd (config : Config) (trainer : Trainer) : Trainer :=
  { trainer with
    queue := trainer.queue + nextRows trainer.position config.trainBatchSize
    position := trainer.position + config.trainBatchSize
    submitted := trainer.submitted + 1 }

/-- `_add_batch_to_generate`, patched or not. -/
def addBatchToGenerate (config : Config) (cls : TrainerClass) (trainer : Trainer) : Trainer :=
  if cls.prefetch ∧ trainer.batchPrefetched then
    { trainer with batchPrefetched := false }
  else
    trainer.originalAdd config

/-- `on_sample_end`, patched or not. -/
def onSampleEnd (config : Config) (cls : TrainerClass) (localTriggerStep : ℕ) (trainer : Trainer) :
    Trainer :=
  if cls.prefetch ∧ localTriggerStep = 0 ∧ ¬ config.Boundary trainer.globalSteps then
    { trainer.originalAdd config with batchPrefetched := true }
  else
    trainer

/-- veRL's `_save_checkpoint`. -/
def originalSave (kind : SaveKind) (trainer : Trainer) : Trainer :=
  { trainer with
    saved := some
      { globalStep := trainer.globalSteps
        position := trainer.position
        lineage := trainer.lineage }
    saves := trainer.saves ++ [(trainer.globalSteps, kind)] }

/-- `_save_checkpoint`, patched or not. -/
def saveCheckpoint (cls : TrainerClass) (kind : SaveKind) (trainer : Trainer) :
    Except PyError Trainer :=
  let outstanding := trainer.queue.card
  if cls.prefetch ∧ (outstanding ≠ 0 ∨ trainer.batchPrefetched) then
    .error (.runtimeError
      s!"Refusing checkpoint with {outstanding} unconsumed prefetched prompts")
  else
    .ok (trainer.originalSave kind)

/-- `on_step_end`, patched or not. -/
def onStepEnd (config : Config) (cls : TrainerClass) (trainer : Trainer) :
    Except PyError Trainer :=
  if cls.firstCheckpoint ∧ config.EarlySave trainer.globalSteps then
    trainer.saveCheckpoint cls .early
  else
    .ok trainer

end Trainer

/-- What happens next to the trainer. -/
inductive Event where
  /-- The loop enters a step. -/
  | beginStep
  /-- The sampler drops a row, and the next row of the dataloader replaces it. -/
  | drop (row : ℕ)
  /-- The sampler removes its part of the batch. -/
  | sample (rows : Multiset ℕ)
  | sampleEnd
  | update
  | save
  | stepEnd
  /-- The process is killed and another one started. -/
  | kill
deriving DecidableEq

namespace Trainer

/-- The trainer after an event; `none` where it cannot happen. -/
def step (config : Config) (cls : TrainerClass) (start : ℕ) (trainer : Trainer) :
    Event → Option Trainer
  | .beginStep =>
    if trainer.phase = .ready ∧ (trainer.globalSteps : ℤ) ≤ config.totalTrainingSteps then
      some { trainer.addBatchToGenerate config cls with phase := .sampling 0 }
    else none
  | .drop row =>
    if row ∈ trainer.queue then
      some
        { trainer with
          queue := trainer.queue.erase row + nextRows trainer.position 1
          position := trainer.position + 1
          lineage :=
            { trainer.lineage with dropped := trainer.lineage.dropped + {row} } }
    else none
  | .sample rows =>
    match trainer.phase with
    | .sampling j =>
      if rows ≤ trainer.queue ∧ rows.card = config.sampleBatchSize then
        some { trainer with queue := trainer.queue - rows, phase := .sampled j rows }
      else none
    | _ => none
  | .sampleEnd =>
    match trainer.phase with
    | .sampled j rows => some { trainer.onSampleEnd config cls j with phase := .training j rows }
    | _ => none
  | .update =>
    match trainer.phase with
    | .training j rows =>
      some
        { trainer with
          lineage :=
            { trainer.lineage with
              trained := trainer.lineage.trained + rows.map fun row => (trainer.globalSteps, row) }
          phase := if j + 1 < config.parameterSyncStep then .sampling (j + 1) else .saving }
    | _ => none
  | .save =>
    match trainer.phase with
    | .saving =>
      if config.RegularSave trainer.globalSteps then
        match trainer.saveCheckpoint cls .regular with
        | .ok trainer => some { trainer with phase := .stepEnd }
        | .error error => some { trainer with phase := .raised error }
      else some { trainer with phase := .stepEnd }
    | _ => none
  | .stepEnd =>
    match trainer.phase with
    | .stepEnd =>
      match trainer.onStepEnd config cls with
      | .ok trainer => some { trainer with globalSteps := trainer.globalSteps + 1, phase := .ready }
      | .error error => some { trainer with phase := .raised error }
    | _ => none
  | .kill => some (launch start trainer.saved)

end Trainer

end Prefetch
