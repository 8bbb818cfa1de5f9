import CodingOpd.Adaptive.Session
import CodingOpd.Library.Transition
import CodingOpd.Python.Objects

/-!
# Scoring before the write

`OPDGatewayAgentFramework` has the Teacher score the trajectories of a session before they are
written to TransferQueue. Each trajectory without labels is scored by a task of its own, the tasks
of a session are gathered, and the sessions of a worker run at once. The state is that of the worker
between two awaits.

## Main definitions

* `Framework.configureTeacher`, `Framework.scores`, `Framework.teacherArgs`: as the code computes
  them
* `Write`: a call of `_write_session_trajectories_to_tq`, with the tasks that it gathers
* `Framework.step`: the worker after an event
* `Framework.Move`: all that a step can do
-/

open Python Transition Adaptive

namespace OpdFramework

/-- A value of a sample's field: of Python, or with the method `item`. -/
inductive SampleValue where
  | python (value : Object)
  | array (item : Object)

/-- `_as_python_scalar` -/
def asPythonScalar : Option SampleValue → Option Object
  | none => none
  | some (.python value) => some value
  | some (.array item) => some item

/-- What `configure_teacher` sets. -/
structure Framework where
  distillationEnabled : Bool
  teacherKey : Option String
  configured : distillationEnabled = teacherKey.isSome

/-- `configure_teacher`. The type `C` is that of the Teacher's clients. -/
def Framework.configureTeacher {C : Type} (distillationEnabled : Bool) (teacherKey : String)
    (teacherClient : Option C) : Except PyError Framework :=
  if ¬ distillationEnabled then .ok ⟨false, none, rfl⟩
  else
    match teacherClient with
    | none => .error (.valueError "distillation is enabled but teacher_client is missing")
    | some _ => .ok ⟨true, some teacherKey, rfl⟩

/-- Distillation is never enabled without a client of the Teacher. -/
theorem Framework.configureTeacher_eq_ok_iff {C : Type} {enabled : Bool} {key : String}
    {client : Option C} {f : Framework} :
    Framework.configureTeacher enabled key client = .ok f ↔
      f.teacherKey = (if enabled then some key else none) ∧ (enabled = true → client.isSome) := by
  obtain ⟨distillationEnabled, teacherKey, hconfigured⟩ := f
  cases enabled <;> cases client <;> cases teacherKey <;>
    simp_all [Framework.configureTeacher, eq_comm]

/-- A trajectory with the images of its prompt. -/
structure SessionTrajectory (K E M : Type) extends Trajectory K E where
  multiModalData : M

/-- The Teacher's labels of a sequence. -/
structure Labels (K : Type) where
  teacherIds : List (List Token)
  teacherLogprobs : List (List (PyFloat K))

/-- The trajectory with the labels among its extra fields. -/
def SessionTrajectory.label {K E M : Type} (t : SessionTrajectory K E M) (labels : Labels K) :
    SessionTrajectory K E M :=
  { t with
    teacherIds := some labels.teacherIds
    teacherLogprobs := some labels.teacherLogprobs }

/-- The arguments of `_write_session_trajectories_to_tq`. -/
structure WriteArgs (K E M : Type) where
  uid : String
  sessionIndex : ℕ
  trajectories : List (SessionTrajectory K E M)
  sampleFields : Dict SampleValue
  globalSteps : Option SampleValue
  partitionId : String

/-- The arguments of `compute_teacher_logprobs_single`. -/
structure TeacherArgs (M : Type) where
  sequenceIds : List Token
  multiModalData : M
  routingKey : Option Object

/-- `_attach_teacher_logprobs` at its awaits; `kept` is a trajectory without a task. -/
inductive Scoring (K : Type) where
  | kept
  | waiting
  | asked
  | scored (labels : Labels K)
  | failed (error : PyError)
  | cancelled

/-- A trajectory of a call, and its task. -/
structure Item (K E M : Type) where
  trajectory : SessionTrajectory K E M
  scoring : Scoring K

/-- `_write_session_trajectories_to_tq` at its awaits. -/
inductive Phase where
  /-- `gather`, with the exception that it raises. -/
  | scoring (first : Option PyError)
  | written
  | raised (error : PyError)
  | cancelled

/-- A call of `_write_session_trajectories_to_tq`. -/
structure Write (K E M : Type) where
  args : WriteArgs K E M
  items : List (Item K E M)
  phase : Phase

/-- What the Teacher and TransferQueue see, with the number of the call. -/
inductive Observation (K E M : Type) where
  | asked (call index : ℕ) (request : TeacherArgs M)
  | answered (call index : ℕ) (answer : Except PyError (Labels K))
  /-- `super()._write_session_trajectories_to_tq`. -/
  | written (call : ℕ) (args : WriteArgs K E M) (trajectories : List (SessionTrajectory K E M))

/-- The worker between two awaits. -/
structure Worker (K E M : Type) where
  writes : ℕ → Option (Write K E M)
  log : List (Observation K E M)

inductive Event (K E M : Type) where
  /-- `_write_session_trajectories_to_tq` is called. -/
  | enter (call : ℕ) (args : WriteArgs K E M)
  /-- A task starts. -/
  | ask (call index : ℕ)
  | answer (call index : ℕ) (answer : Except PyError (Labels K))
  /-- `gather` returns. -/
  | write (call : ℕ)
  /-- `gather` raises. -/
  | raise (call : ℕ)
  /-- The call is cancelled. -/
  | cancel (call : ℕ)

variable {K E M : Type}

/-- What is seen of the scoring of a trajectory. -/
def Observation.IsScoring (call index : ℕ) : Observation K E M → Bool
  | .asked c i _ | .answered c i _ => c == call && i == index
  | .written .. => false

/-- What is seen of the write of a call. -/
def Observation.IsWrite (call : ℕ) : Observation K E M → Bool
  | .written c _ _ => c == call
  | .asked .. | .answered .. => false

/-- The call that an observation is of. -/
def Observation.call : Observation K E M → ℕ
  | .asked call _ _ | .answered call _ _ | .written call _ _ => call

namespace Scoring

/-- The task has returned, or there was none. -/
def Returned : Scoring K → Prop
  | kept | scored _ => True
  | waiting | asked | failed _ | cancelled => False

instance : DecidablePred (Returned (K := K)) := fun scoring => by
  cases scoring <;> unfold Returned <;> infer_instance

/-- A task that is cancelled at its await. -/
def cancel : Scoring K → Scoring K
  | waiting | asked => cancelled
  | scoring => scoring

end Scoring

namespace Worker

def start : Worker K E M := ⟨fun _ => none, []⟩

def setWrite (s : Worker K E M) (call : ℕ) (w : Write K E M) : Worker K E M :=
  { s with writes := Function.update s.writes call (some w) }

def observe (s : Worker K E M) (observation : Observation K E M) : Worker K E M :=
  { s with log := s.log ++ [observation] }

end Worker

/-- The call with one of its items changed. -/
def Write.setItem (w : Write K E M) (index : ℕ) (item : Item K E M) : Write K E M :=
  { w with items := w.items.set index item }

namespace Phase

/-- `gather` raises the first exception of a task. -/
def fail (error : PyError) : Phase → Phase
  | scoring none => scoring (some error)
  | phase => phase

/-- The first exception stays. -/
theorem of_fail_eq_scoring {error : PyError} {phase : Phase} {first : Option PyError}
    (h : phase.fail error = scoring first) : first.isSome ∧ ∃ old, phase = scoring old := by
  cases phase with
  | scoring old => cases old <;> cases h <;> exact ⟨rfl, _, rfl⟩
  | written | raised | cancelled => cases h

theorem fail_ne_written {error : PyError} {phase : Phase} (h : phase ≠ written) :
    phase.fail error ≠ written := by
  cases phase with
  | scoring old => cases old <;> exact nofun
  | written => exact absurd rfl h
  | raised | cancelled => exact nofun

end Phase

namespace Framework

variable (f : Framework)

/-- A trajectory is scored where distillation is enabled, but for a validation, and where it has no
labels yet. -/
def scores (args : WriteArgs K E M) (t : SessionTrajectory K E M) : Bool :=
  f.distillationEnabled && args.partitionId != "val" && t.teacherLogprobs.isNone

/-- The call of the Teacher in `_attach_teacher_logprobs`. -/
def teacherArgs (args : WriteArgs K E M) (t : SessionTrajectory K E M) : TeacherArgs M where
  sequenceIds := t.promptIds ++ t.responseIds
  multiModalData := t.multiModalData
  routingKey := asPythonScalar (f.teacherKey.bind fun key => args.sampleFields.lookup key)

/-- A trajectory of a call that begins. -/
def item (args : WriteArgs K E M) (t : SessionTrajectory K E M) : Item K E M :=
  ⟨t, if f.scores args t then .waiting else .kept⟩

/-- A call with the tasks that are gathered. -/
def enter (args : WriteArgs K E M) : Write K E M where
  args
  items := args.trajectories.map (f.item args)
  phase := .scoring none

/-- The item after the Teacher has answered. -/
def answered (item : Item K E M) : Except PyError (Labels K) → Item K E M
  | .ok labels => ⟨item.trajectory.label labels, .scored labels⟩
  | .error error => { item with scoring := .failed error }

/-- The call after the Teacher has answered. -/
def answer (w : Write K E M) (index : ℕ) (item : Item K E M) :
    Except PyError (Labels K) → Write K E M
  | .ok labels => w.setItem index (answered item (.ok labels))
  | .error error =>
    { w.setItem index (answered item (.error error)) with phase := w.phase.fail error }

/-- The call after it is cancelled. A `gather` that has raised cancels no task. -/
def cancel (w : Write K E M) (first : Option PyError) : Write K E M :=
  { w with
    items :=
      if first.isNone then w.items.map fun item => { item with scoring := item.scoring.cancel }
      else w.items
    phase := .cancelled }

/-- The state after an event; `none` where it cannot happen. -/
def step (s : Worker K E M) : Event K E M → Option (Worker K E M)
  | .enter call args =>
    match s.writes call with
    | none => some (s.setWrite call (f.enter args))
    | some _ => none
  | .ask call index =>
    match s.writes call with
    | none => none
    | some w =>
      match w.items[index]? with
      | some ⟨t, .waiting⟩ =>
        some ((s.setWrite call (w.setItem index ⟨t, .asked⟩)).observe
          (.asked call index (f.teacherArgs w.args t)))
      | _ => none
  | .answer call index result =>
    match s.writes call with
    | none => none
    | some w =>
      match w.items[index]? with
      | some ⟨t, .asked⟩ =>
        some ((s.setWrite call (answer w index ⟨t, .asked⟩ result)).observe
          (.answered call index result))
      | _ => none
  | .write call =>
    match s.writes call with
    | some ⟨args, items, .scoring none⟩ =>
      if ∀ item ∈ items, item.scoring.Returned then
        some ((s.setWrite call ⟨args, items, .written⟩).observe
          (.written call args (items.map Item.trajectory)))
      else none
    | _ => none
  | .raise call =>
    match s.writes call with
    | some ⟨args, items, .scoring (some error)⟩ =>
      some (s.setWrite call ⟨args, items, .raised error⟩)
    | _ => none
  | .cancel call =>
    match s.writes call with
    | some ⟨args, items, .scoring first⟩ =>
      some (s.setWrite call (cancel ⟨args, items, .scoring first⟩ first))
    | _ => none

/-! ## What a step can do -/

/-- All that a step can do. -/
inductive Move (s : Worker K E M) : Event K E M → Worker K E M → Prop
  | enter {call : ℕ} {args : WriteArgs K E M} : s.writes call = none →
    Move s (.enter call args) (s.setWrite call (f.enter args))
  | ask {call index : ℕ} {w : Write K E M} {t : SessionTrajectory K E M} :
    s.writes call = some w → w.items[index]? = some ⟨t, .waiting⟩ →
    Move s (.ask call index)
      ((s.setWrite call (w.setItem index ⟨t, .asked⟩)).observe
        (.asked call index (f.teacherArgs w.args t)))
  | answer {call index : ℕ} {w : Write K E M} {t : SessionTrajectory K E M}
      {result : Except PyError (Labels K)} :
    s.writes call = some w → w.items[index]? = some ⟨t, .asked⟩ →
    Move s (.answer call index result)
      ((s.setWrite call (Framework.answer w index ⟨t, .asked⟩ result)).observe
        (.answered call index result))
  | write {call : ℕ} {args : WriteArgs K E M} {items : List (Item K E M)} :
    s.writes call = some ⟨args, items, .scoring none⟩ →
    (∀ item ∈ items, item.scoring.Returned) →
    Move s (.write call)
      ((s.setWrite call ⟨args, items, .written⟩).observe
        (.written call args (items.map Item.trajectory)))
  | raise {call : ℕ} {args : WriteArgs K E M} {items : List (Item K E M)} {error : PyError} :
    s.writes call = some ⟨args, items, .scoring (some error)⟩ →
    Move s (.raise call) (s.setWrite call ⟨args, items, .raised error⟩)
  | cancel {call : ℕ} {args : WriteArgs K E M} {items : List (Item K E M)}
      {first : Option PyError} :
    s.writes call = some ⟨args, items, .scoring first⟩ →
    Move s (.cancel call) (s.setWrite call (Framework.cancel ⟨args, items, .scoring first⟩ first))

theorem move_of_step {s t : Worker K E M} {event : Event K E M}
    (h : f.step s event = some t) : f.Move s event t := by
  cases event with
  | enter call args =>
    rw [step] at h
    split at h
    · rename_i hnone
      cases h
      exact .enter hnone
    · cases h
  | ask call index =>
    rw [step] at h
    split at h
    · cases h
    · rename_i w hw
      split at h
      · rename_i trajectory hitem
        cases h
        exact .ask hw hitem
      · cases h
  | answer call index result =>
    rw [step] at h
    split at h
    · cases h
    · rename_i w hw
      split at h
      · rename_i trajectory hitem
        cases h
        exact .answer hw hitem
      · cases h
  | write call =>
    rw [step] at h
    split at h
    · rename_i args items hw
      obtain ⟨hreturned, ⟨⟩⟩ := Option.ite_none_right_eq_some.mp h
      exact .write hw hreturned
    · cases h
  | raise call =>
    rw [step] at h
    split at h
    · rename_i args items error hw
      cases h
      exact .raise hw
    · cases h
  | cancel call =>
    rw [step] at h
    split at h
    · rename_i args items first hw
      cases h
      exact .cancel hw
    · cases h

end Framework

end OpdFramework
