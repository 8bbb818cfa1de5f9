import Mathlib.Data.Finmap
import CodingOpd.Library.Noninterference
import CodingOpd.Adaptive.Teacher

/-!
# The gateway actor

One `OPDGatewayActor` serves many sessions at once. Its backend keeps an `AdaptiveSession` for each
adaptive one; `generate` looks it up before it asks the Student, and changes it after the Teacher
has answered, when the session may be gone or made anew. The state is that of the actor between two
awaits: session objects are kept by address, so that a call in flight still has the object that it
looked up.

## Main definitions

* `Servers`, `InheritedGateway`: Student and Teacher, and the actor that is inherited
* `Actor`, `Actor.step`: the state between two awaits, and the code that runs there
* `Actor.Move`: all that a step can do

## Main results

* `Actor.step_eq_some_iff`: a step does one of the moves
* `Actor.run_turn`: a turn that nothing interrupts is a turn of the session
-/

open Python Transition

namespace Adaptive

/-- A call of the Student. `P` is what the code only passes on: sampling parameters, keyword
arguments, metadata, messages and handles. -/
structure Request (P : Type) where
  requestId : String
  promptIds : List Token
  samplingParams : P
  kwargs : P
deriving DecidableEq

/-- A call of the Teacher. -/
structure TeacherRequest (P : Type) where
  requestId : String
  promptIds : List Token
  samplingParams : SamplingParams
  kwargs : P
deriving DecidableEq

/-- The call of the Teacher after the Student's answer. -/
def Request.teacher {P : Type} (request : Request P) (tokenIds : List Token) :
    TeacherRequest P where
  requestId := request.requestId
  promptIds := request.promptIds ++ tokenIds
  samplingParams := teacherParams request.promptIds
  kwargs := request.kwargs

/-- What `generate` calls: each answer, or exception, depends only on the request. -/
structure Servers (K E P : Type) where
  student : Request P → Except PyError (TokenOutput K E)
  /-- `manager.teacher_client[manager._resolve_teacher_key(routing_key)]`. -/
  resolveTeacherKey : Option String → Except PyError String
  teacher : String → TeacherRequest P → Except PyError (TeacherFields K)

/-- How a call of `generate` ends. -/
inductive Answer (K E : Type) where
  | returned (output : TokenOutput K E)
  | raised (error : PyError)
  | cancelled

/-- The end of a call by what it returns or raises. -/
def Answer.of {K E : Type} : Except PyError (TokenOutput K E) → Answer K E
  | .ok output => .returned output
  | .error error => .raised error

/-- `_GatewayActor`, from which `OPDGatewayActor` inherits: its code between two awaits, for a
session and what the await has brought. -/
structure InheritedGateway (K E P G : Type) where
  /-- The end of `create_session`. -/
  createSession (sessionId : String) (metadata samplingParams brought : P) :
    G → Except PyError P × G
  /-- The end of `finalize_session`. -/
  finalizeSession (sessionId : String) (brought : P) :
    G → Except PyError (List (Trajectory K E)) × G
  /-- The end of `abort_session`. -/
  abortSession (sessionId : String) (brought : P) : G → Except PyError P × G
  /-- A message, up to the call of `generate`: the prompt, and the arguments passed on. -/
  request (sessionId : String) (brought : P) : G → (List Token × P × P) × G
  /-- The end of a call of `generate`. -/
  answer (sessionId : String) (answer : Answer K E) : G → Unit × G
  /-- Anything else that it does for a session. -/
  other (sessionId : String) (brought : P) : G → Unit × G

/-- The inherited gateway keeps its own sessions apart. -/
structure InheritedGateway.KeepsApart {K E P G ν : Type} (gateway : InheritedGateway K E P G)
    (view : String → G → ν) : Prop where
  createSession : ∀ id metadata params brought,
    Confined view id (gateway.createSession id metadata params brought)
  finalizeSession : ∀ id brought, Confined view id (gateway.finalizeSession id brought)
  abortSession : ∀ id brought, Confined view id (gateway.abortSession id brought)
  request : ∀ id brought, Confined view id (gateway.request id brought)
  answer : ∀ id answer, Confined view id (gateway.answer id answer)
  other : ∀ id brought, Confined view id (gateway.other id brought)

/-- A call of `generate`: its session, and its number. -/
structure Call where
  sessionId : String
  number : ℕ
deriving DecidableEq

/-- A call at one of its awaits, with the address of the session object that it has looked up. -/
inductive InFlight (K E P : Type) where
  | student (state : Option ℕ) (request : Request P)
  | teacher (state : ℕ) (key : String) (request : Request P) (output : TokenOutput K E)

/-- The session object that a call has looked up. -/
def InFlight.state {K E P : Type} : InFlight K E P → Option ℕ
  | .student state _ => state
  | .teacher state _ _ _ => some state

/-- What a session's clients, servers and log see of it. -/
inductive Observation (K E P : Type) where
  | created (result : Except PyError P)
  | studentCall (number : ℕ) (request : Request P)
  | teacherCall (number : ℕ) (key : String) (request : TeacherRequest P)
  /-- `ADAPTIVE_TURN`. -/
  | turn (entropies masses : List (PyFloat K)) (stopped : Bool)
  | generated (number : ℕ) (answer : Answer K E)
  | finalized (result : Except PyError (List (Trajectory K E)))
  | aborted (result : Except PyError P)

/-- The parameters under `_opd_adaptive`. -/
structure AdaptiveParams (K : Type) where
  threshold : PyFloat K
  routingKey : Option String

/-- The code of the actor between two awaits, by the await that it starts after. -/
inductive Event (K P : Type) where
  /-- `super().create_session` ends; an `AdaptiveSession` is made at the address. -/
  | create (sessionId : String) (metadata samplingParams : P) (adaptive : Option (AdaptiveParams K))
    (address : ℕ) (brought : P)
  /-- `generate` is called. -/
  | generate (call : Call) (brought : P)
  | studentAnswers (call : Call)
  | teacherAnswers (call : Call)
  /-- A `CancelledError` comes out of the await that the call is at. -/
  | cancelGenerate (call : Call)
  /-- `super().finalize_session` ends. -/
  | finalize (sessionId : String) (brought : P)
  /-- `super().abort_session` ends. -/
  | abort (sessionId : String) (brought : P)
  /-- Code of the inherited actor alone. -/
  | other (sessionId : String) (brought : P)

namespace Event

variable {K P : Type}

/-- The session that an event is of. -/
def sessionId : Event K P → String
  | .create sessionId .. | .finalize sessionId _ | .abort sessionId _ | .other sessionId _ =>
    sessionId
  | .generate call _ | .studentAnswers call | .teacherAnswers call | .cancelGenerate call =>
    call.sessionId

/-- `create_session` with `_opd_adaptive`. -/
def CreatesAdaptive (id : String) (event : Event K P) : Prop :=
  ∃ metadata params adaptive address brought,
    event = .create id metadata params (some adaptive) address brought

/-- `finalize_session` or `abort_session` returns or raises. -/
def Ends (id : String) (event : Event K P) : Prop :=
  ∃ brought, event = .finalize id brought ∨ event = .abort id brought

end Event

variable {K E P G : Type} [Field K] [LinearOrder K]

/-- The actor and its backend, between two awaits. -/
structure Actor (K E P G : Type) [Field K] [LinearOrder K] where
  gateway : G
  /-- The `AdaptiveSession` objects, by address. -/
  objects : Finmap fun _ : ℕ => AdaptiveSession K
  /-- `AdaptiveRolloutClient.sessions`. -/
  sessions : Finmap fun _ : String => ℕ
  calls : Finmap fun _ : Call => InFlight K E P
  /-- What has been observed, with the session that it is of. -/
  log : List (String × Observation K E P)

namespace Actor

/-- An actor without sessions. -/
def start (gateway : G) : Actor K E P G := ⟨gateway, ∅, ∅, ∅, []⟩

/-! ## What a step is made of -/

section

variable (s : Actor K E P G)

/-- The inherited gateway goes on. -/
def onGateway (gateway : G) : Actor K E P G := { s with gateway }

def observe (id : String) (observation : Observation K E P) : Actor K E P G :=
  { s with log := s.log ++ [(id, observation)] }

/-- A session object is made and stored. -/
def store (id : String) (address : ℕ) (session : AdaptiveSession K) : Actor K E P G :=
  { s with
    objects := s.objects.insert address session
    sessions := s.sessions.insert id address }

/-- `self._backend.sessions.pop(session_id, None)`. -/
def pop (id : String) : Actor K E P G := { s with sessions := s.sessions.erase id }

/-- A call is at an await. -/
def await (call : Call) (flight : InFlight K E P) : Actor K E P G :=
  { s with calls := s.calls.insert call flight }

/-- A session object is changed. -/
def mutate (address : ℕ) (session : AdaptiveSession K) : Actor K E P G :=
  { s with objects := s.objects.insert address session }

/-- A call is over. -/
def forget (call : Call) : Actor K E P G := { s with calls := s.calls.erase call }

/-- The state that the backend holds for a session. -/
def state (id : String) : Option (AdaptiveSession K) :=
  (s.sessions.lookup id).bind s.objects.lookup

end

section

variable (servers : Servers K E P) (inherited : InheritedGateway K E P G) (s : Actor K E P G)

/-- `generate` ends, and the inherited gateway takes its answer. -/
def finish (call : Call) (answer : Answer K E) : Actor K E P G :=
  ((s.forget call).onGateway (inherited.answer call.sessionId answer s.gateway).2).observe
    call.sessionId (.generated call.number answer)

/-- `create_session` after `super().create_session`. -/
def create (id : String) (metadata samplingParams : P) (adaptive : Option (AdaptiveParams K))
    (address : ℕ) (brought : P) : Option (Actor K E P G) :=
  let (result, gateway) := inherited.createSession id metadata samplingParams brought s.gateway
  let s := s.onGateway gateway
  match result, adaptive with
  -- `super().create_session` raises, and no state is made
  | .error error, _ => some (s.observe id (.created (.error error)))
  | .ok handle, none => some (s.observe id (.created (.ok handle)))
  | .ok handle, some adaptive =>
    match AdaptiveOPD.create adaptive.threshold with
    | .error error => some (s.observe id (.created (.error error)))
    | .ok algorithm =>
      -- a new object is at an address of its own
      if address ∈ s.objects then none
      else
        some ((s.store id address (.create algorithm adaptive.routingKey)).observe id
          (.created (.ok handle)))

/-- `generate` up to the call of the Student. -/
def generate (call : Call) (brought : P) : Option (Actor K E P G) :=
  if call ∈ s.calls then none
  else
    let ((promptIds, samplingParams, kwargs), gateway) :=
      inherited.request call.sessionId brought s.gateway
    let request := ⟨call.sessionId, promptIds, samplingParams, kwargs⟩
    some (((s.onGateway gateway).await call
      (.student (s.sessions.lookup call.sessionId) request)).observe call.sessionId
      (.studentCall call.number request))

/-- `generate` from the Student's answer to the call of the Teacher, or to its end. -/
def studentAnswers (call : Call) : Option (Actor K E P G) :=
  match s.calls.lookup call with
  | some (.student state request) =>
    match servers.student request with
    | .error error => some (s.finish inherited call (.raised error))
    | .ok output =>
      match state with
      | none => some (s.finish inherited call (.returned output))
      | some address =>
        -- an empty answer is passed on without the Teacher
        if output.tokenIds = [] then some (s.finish inherited call (.returned output))
        else
          match s.objects.lookup address with
          -- objects are never dropped while a call refers to them
          | none => none
          | some session =>
            match servers.resolveTeacherKey session.routingKey with
            | .error error => some (s.finish inherited call (.raised error))
            | .ok key =>
              some ((s.await call (.teacher address key request output)).observe call.sessionId
                (.teacherCall call.number key (request.teacher output.tokenIds)))
  | _ => none

/-- The answer of a turn that the session does not accept. -/
def emptied (output : TokenOutput K E) : TokenOutput K E :=
  { output with
    tokenIds := [], logProbs := some [], routedExperts := none, stopReason := some "length" }

/-- `generate` from the Teacher's answer to its end. -/
def teacherAnswers (call : Call) : Option (Actor K E P G) :=
  match s.calls.lookup call with
  | some (.teacher address key request output) =>
    match servers.teacher key (request.teacher output.tokenIds) with
    | .error error => some (s.finish inherited call (.raised error))
    | .ok extra =>
      match s.objects.lookup address with
      | none => none
      | some session =>
        -- the object is changed also when the backend no longer holds it
        let (accepted, session) := session.accept (request.promptIds ++ output.tokenIds) extra
        some (((s.mutate address session).observe call.sessionId
          (.turn session.entropies session.masses session.stopped)).finish inherited call
          (.returned (if accepted then output else emptied output)))
  | _ => none

/-- `finalize_session` after `super().finalize_session`. -/
def finalize (id : String) (brought : P) : Actor K E P G :=
  let (result, gateway) := inherited.finalizeSession id brought s.gateway
  let result :=
    match result, s.state id with
    | .ok trajectories, some session => session.attach trajectories
    | result, _ => result
  ((s.onGateway gateway).pop id).observe id (.finalized result)

/-- `abort_session` after `super().abort_session`. -/
def abort (id : String) (brought : P) : Actor K E P G :=
  let (result, gateway) := inherited.abortSession id brought s.gateway
  ((s.onGateway gateway).pop id).observe id (.aborted result)

/-- The state after an event; `none` where it cannot happen. -/
def step : Event K P → Option (Actor K E P G)
  | .create id metadata samplingParams adaptive address brought =>
    s.create inherited id metadata samplingParams adaptive address brought
  | .generate call brought => s.generate inherited call brought
  | .studentAnswers call => s.studentAnswers servers inherited call
  | .teacherAnswers call => s.teacherAnswers servers inherited call
  | .cancelGenerate call =>
    if call ∈ s.calls then some (s.finish inherited call .cancelled) else none
  | .finalize id brought => some (s.finalize inherited id brought)
  | .abort id brought => some (s.abort inherited id brought)
  | .other id brought => some (s.onGateway (inherited.other id brought s.gateway).2)

end

/-! ## The moves -/

section

variable (servers : Servers K E P) (inherited : InheritedGateway K E P G)

/-- The ends of a call of `generate` that change no session object. -/
inductive Answers (s : Actor K E P G) : Event K P → Call → Answer K E → Prop
  | studentRaises {call state request error} :
    s.calls.lookup call = some (.student state request) → servers.student request = .error error →
    Answers s (.studentAnswers call) call (.raised error)
  | ordinary {call request output} : s.calls.lookup call = some (.student none request) →
    servers.student request = .ok output → Answers s (.studentAnswers call) call (.returned output)
  | empty {call address request output} :
    s.calls.lookup call = some (.student (some address) request) →
    servers.student request = .ok output → output.tokenIds = [] →
    Answers s (.studentAnswers call) call (.returned output)
  | keyRaises {call address request output session error} :
    s.calls.lookup call = some (.student (some address) request) →
    servers.student request = .ok output → output.tokenIds ≠ [] →
    s.objects.lookup address = some session →
    servers.resolveTeacherKey session.routingKey = .error error →
    Answers s (.studentAnswers call) call (.raised error)
  | teacherRaises {call address key request output error} :
    s.calls.lookup call = some (.teacher address key request output) →
    servers.teacher key (request.teacher output.tokenIds) = .error error →
    Answers s (.teacherAnswers call) call (.raised error)
  | cancelled {call flight} : s.calls.lookup call = some flight →
    Answers s (.cancelGenerate call) call .cancelled

/-- All that a step can do. -/
inductive Move (s : Actor K E P G) : Event K P → Actor K E P G → Prop
  | created {id metadata params adaptive address brought result} :
    (inherited.createSession id metadata params brought s.gateway).1 = result →
    (∀ handle, result = .ok handle → adaptive = none) →
    Move s (.create id metadata params adaptive address brought)
      ((s.onGateway (inherited.createSession id metadata params brought s.gateway).2).observe id
        (.created result))
  | rejected {id metadata params address brought handle error} {adaptive : AdaptiveParams K} :
    (inherited.createSession id metadata params brought s.gateway).1 = .ok handle →
    AdaptiveOPD.create adaptive.threshold = .error error →
    Move s (.create id metadata params (some adaptive) address brought)
      ((s.onGateway (inherited.createSession id metadata params brought s.gateway).2).observe id
        (.created (.error error)))
  | stored {id metadata params address brought handle algorithm} {adaptive : AdaptiveParams K} :
    (inherited.createSession id metadata params brought s.gateway).1 = .ok handle →
    AdaptiveOPD.create adaptive.threshold = .ok algorithm → address ∉ s.objects →
    Move s (.create id metadata params (some adaptive) address brought)
      (((s.onGateway (inherited.createSession id metadata params brought s.gateway).2).store id
        address (.create algorithm adaptive.routingKey)).observe id (.created (.ok handle)))
  | called {call brought promptIds params kwargs} : call ∉ s.calls →
    (inherited.request call.sessionId brought s.gateway).1 = (promptIds, params, kwargs) →
    Move s (.generate call brought)
      (((s.onGateway (inherited.request call.sessionId brought s.gateway).2).await call
        (.student (s.sessions.lookup call.sessionId)
          ⟨call.sessionId, promptIds, params, kwargs⟩)).observe call.sessionId
        (.studentCall call.number ⟨call.sessionId, promptIds, params, kwargs⟩))
  | answered {event call answer} : Answers servers s event call answer →
    Move s event (s.finish inherited call answer)
  | scoring {call address request output session key} :
    s.calls.lookup call = some (.student (some address) request) →
    servers.student request = .ok output → output.tokenIds ≠ [] →
    s.objects.lookup address = some session →
    servers.resolveTeacherKey session.routingKey = .ok key →
    Move s (.studentAnswers call)
      ((s.await call (.teacher address key request output)).observe call.sessionId
        (.teacherCall call.number key (request.teacher output.tokenIds)))
  | turn {call address key request output extra session accepted next} :
    s.calls.lookup call = some (.teacher address key request output) →
    servers.teacher key (request.teacher output.tokenIds) = .ok extra →
    s.objects.lookup address = some session →
    session.accept (request.promptIds ++ output.tokenIds) extra = (accepted, next) →
    Move s (.teacherAnswers call)
      (((s.mutate address next).observe call.sessionId
        (.turn next.entropies next.masses next.stopped)).finish inherited call
        (.returned (if accepted then output else emptied output)))
  | finalized {id brought result} :
    (match (inherited.finalizeSession id brought s.gateway).1, s.state id with
      | .ok trajectories, some session => session.attach trajectories
      | result, _ => result) = result →
    Move s (.finalize id brought)
      (((s.onGateway (inherited.finalizeSession id brought s.gateway).2).pop id).observe id
        (.finalized result))
  | aborted {id brought} :
    Move s (.abort id brought)
      (((s.onGateway (inherited.abortSession id brought s.gateway).2).pop id).observe id
        (.aborted (inherited.abortSession id brought s.gateway).1))
  | other {id brought} :
    Move s (.other id brought) (s.onGateway (inherited.other id brought s.gateway).2)

end

section

variable {servers : Servers K E P} {inherited : InheritedGateway K E P G} {s t : Actor K E P G}
  {event : Event K P}

/-- A step does one of the moves. -/
theorem move_of_step (h : s.step servers inherited event = some t) :
    Move servers inherited s event t := by
  cases event with
  | create id metadata params adaptive address brought =>
    simp only [step, create] at h
    split at h
    · rename_i hresult
      cases h
      exact .created hresult (by simp)
    · rename_i hresult
      cases h
      exact .created hresult (by simp)
    · -- the algorithm is made before the session object, and may reject its threshold
      rename_i hresult
      split at h
      · rename_i herror
        cases h
        exact .rejected hresult herror
      · rename_i halgorithm
        rw [Option.ite_none_left_eq_some] at h
        obtain ⟨hfresh, h⟩ := h
        cases h
        exact .stored hresult halgorithm hfresh
  | generate call brought =>
    simp only [step, generate, Option.ite_none_left_eq_some] at h
    obtain ⟨hnew, h⟩ := h
    cases h
    exact .called hnew rfl
  | studentAnswers call =>
    simp only [step, studentAnswers] at h
    split at h
    · rename_i state request hcall
      split at h
      · rename_i herror
        cases h
        exact .answered (.studentRaises hcall herror)
      · rename_i output houtput
        -- only a call of an adaptive session goes on to the Teacher
        cases state with
        | none =>
          cases h
          exact .answered (.ordinary hcall houtput)
        | some address =>
          by_cases hempty : output.tokenIds = []
          · simp only [hempty, if_true] at h
            cases h
            exact .answered (.empty hcall houtput hempty)
          · simp only [hempty, if_false] at h
            split at h
            · cases h
            · rename_i session hsession
              split at h
              · rename_i herror
                cases h
                exact .answered (.keyRaises hcall houtput hempty hsession herror)
              · rename_i key hkey
                cases h
                exact .scoring hcall houtput hempty hsession hkey
    · cases h
  | teacherAnswers call =>
    simp only [step, teacherAnswers] at h
    split at h
    · -- the scores reach the object the call was started with, whoever holds it now
      rename_i address key request output hcall
      split at h
      · rename_i herror
        cases h
        exact .answered (.teacherRaises hcall herror)
      · rename_i extra hextra
        split at h
        · cases h
        · rename_i session hsession
          cases h
          exact .turn hcall hextra hsession rfl
    · cases h
  | cancelGenerate call =>
    simp only [step, Option.ite_none_right_eq_some] at h
    obtain ⟨hcall, h⟩ := h
    obtain ⟨flight, hflight⟩ := Finmap.mem_iff.mp hcall
    cases h
    exact .answered (.cancelled hflight)
  | finalize id brought =>
    cases h
    exact .finalized rfl
  | abort id brought =>
    cases h
    exact .aborted
  | other id brought =>
    cases h
    exact .other

theorem Answers.sessionId_eq {call : Call} {answer : Answer K E}
    (h : Answers servers s event call answer) : event.sessionId = call.sessionId := by
  cases h <;> rfl

/-- A call that is over was at an await. -/
theorem Answers.step {call : Call} {answer : Answer K E} (h : Answers servers s event call answer) :
    s.step servers inherited event = some (s.finish inherited call answer) := by
  cases h with
  | studentRaises hcall herror => simp only [Actor.step, studentAnswers, hcall, herror]
  | ordinary hcall houtput => simp only [Actor.step, studentAnswers, hcall, houtput]
  | empty hcall houtput hempty =>
    simp only [Actor.step, studentAnswers, hcall, houtput, hempty, if_true]
  | keyRaises hcall houtput hnonempty hsession herror =>
    simp only [Actor.step, studentAnswers, hcall, houtput, hnonempty, if_false, hsession, herror]
  | teacherRaises hcall herror => simp only [Actor.step, teacherAnswers, hcall, herror]
  | cancelled hcall => simp only [Actor.step, if_pos (Finmap.mem_iff.mpr ⟨_, hcall⟩)]

/-- Each of the moves is a step. -/
theorem Move.step (h : Move servers inherited s event t) :
    s.step servers inherited event = some t := by
  cases h with
  | @created id metadata params adaptive address brought result hresult hordinary =>
    cases result with
    | error error => simp only [Actor.step, create, hresult]
    | ok handle =>
      obtain rfl := hordinary handle rfl
      simp only [Actor.step, create, hresult]
  | rejected hresult herror => simp only [Actor.step, create, hresult, herror]
  | stored hresult halgorithm hfresh =>
    simp only [Actor.step, create, hresult, halgorithm]
    exact if_neg hfresh
  | called hnew hrequest => simp only [Actor.step, generate, if_neg hnew, hrequest]
  | answered hanswers => exact hanswers.step
  | scoring hcall houtput hnonempty hsession hkey =>
    simp only [Actor.step, studentAnswers, hcall, houtput, hnonempty, if_false, hsession, hkey]
  | turn hcall hextra hsession haccept =>
    simp only [Actor.step, teacherAnswers, hcall, hextra, hsession, haccept]
  | finalized hresult => rw [← hresult]; rfl
  | aborted => rfl
  | other => rfl

/-- **A step does one of the moves**, and each of them is a step. -/
theorem step_eq_some_iff :
    s.step servers inherited event = some t ↔ Move servers inherited s event t :=
  ⟨move_of_step, Move.step⟩

/-- **A turn that nothing interrupts is a turn of the session**, where the Teacher answers by the
sequence and the sampling parameters. -/
theorem run_turn {teacherClient : List Token → SamplingParams → Except PyError (TeacherFields K)}
    {call : Call} {address : ℕ} {request : Request P} {output : TokenOutput K E}
    {session : AdaptiveSession K} {key : String}
    (hteacher : ∀ key request, servers.teacher key request =
      teacherClient request.promptIds request.samplingParams)
    (hcall : s.calls.lookup call = some (.student (some address) request))
    (houtput : servers.student request = .ok output) (hnonempty : output.tokenIds ≠ [])
    (hsession : s.objects.lookup address = some session)
    (hkey : servers.resolveTeacherKey session.routingKey = .ok key) :
    ∃ t, run (step servers inherited) s [.studentAnswers call, .teacherAnswers call] = some t ∧
      t.objects.lookup address =
        some (session.generate teacherClient request.promptIds output).2 ∧
      t.log.getLast? = some (call.sessionId, .generated call.number
        (.of (session.generate teacherClient request.promptIds output).1)) := by
  have hscoring : s.step servers inherited (.studentAnswers call) = some _ :=
    Move.step (.scoring hcall houtput hnonempty hsession hkey)
  have hextra := hteacher key (request.teacher output.tokenIds)
  set u := (s.await call (.teacher address key request output)).observe call.sessionId
    (.teacherCall call.number key (request.teacher output.tokenIds)) with hu
  have hflight : u.calls.lookup call = some (.teacher address key request output) :=
    Finmap.lookup_insert _
  have hobject : u.objects.lookup address = some session := hsession
  cases hfields : teacherClient (request.promptIds ++ output.tokenIds)
      (teacherParams request.promptIds) with
  | error error =>
    have hanswer : u.step servers inherited (.teacherAnswers call) = some _ :=
      Move.step (.answered (.teacherRaises hflight (hextra.trans hfields)))
    have hgenerate : session.generate teacherClient request.promptIds output =
        (.error error, session) := by
      unfold AdaptiveSession.generate
      rw [if_neg hnonempty]
      simp only [hfields]
    rw [hgenerate]
    exact ⟨_, run_pair hscoring hanswer, hobject, List.getLast?_concat⟩
  | ok extra =>
    have hturn : u.step servers inherited (.teacherAnswers call) = some _ :=
      Move.step (.turn hflight (hextra.trans hfields) hobject rfl)
    have hgenerate : session.generate teacherClient request.promptIds output =
        (.ok (if (session.accept (request.promptIds ++ output.tokenIds) extra).1 then output
            else emptied output),
          (session.accept (request.promptIds ++ output.tokenIds) extra).2) := by
      unfold AdaptiveSession.generate
      rw [if_neg hnonempty]
      simp only [hfields]
      split <;> rfl
    rw [hgenerate]
    exact ⟨_, run_pair hscoring hturn, Finmap.lookup_insert _, List.getLast?_concat⟩

end

end Actor

end Adaptive
