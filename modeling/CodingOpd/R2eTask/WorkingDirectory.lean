import Mathlib.Data.Set.Insert
import CodingOpd.R2eTask.Shell

/-!
# The working directory of the shell tool

The tool runs each command in the directory that it read off the last one. A command that is started
in a missing directory fails before its script runs.

## Main definitions

* `Session`: the directories of the sandbox, and the one the tool stands in
* `Step`, `Trace`: a call of the tool, and a sequence of them
* `Call.Plain`, `Call.Remains`: the calls whose outcome is read, and those that leave the directory
  the tool reads

## Main results

* `Step.stands_iff`: a call leaves the tool in a directory where that directory remains
* `Trace.stands_of_remains`: so does a sequence of such calls
-/

open Python

namespace R2eTask.Shell

/-- The sandbox, by the names of its directories, and `self._cwd`. -/
structure Session where
  directories : Set Bytes
  cwd : Text

/-- The directory of the tool exists. -/
def Session.Stands (session : Session) : Prop := Utf8.encode session.cwd ∈ session.directories

/-- A call of the tool: its arguments, the process it is run by, what the command does where it
starts, and the directories when the next call comes. -/
structure Call (τ : Type) where
  runtime : Runtime τ
  uuid : Uuid
  command : Text
  timeout : Option τ
  performs : ShellRun
  directories : Set Bytes

namespace Call

variable {τ : Type} (call : Call τ)

/-- The output of the command is free of the marker, and the directory it returns in has a plain
name. A blank command is not run. -/
def Plain : Prop :=
  strip call.command ≠ [] →
    call.performs.Unmarked (marker call.uuid) ∧ ∀ code late,
      call.performs.ending = .returned code late →
        ShellRun.Plain call.performs.directory.name (marker call.uuid)

/-- The directory that a command returns in exists; for any other end, the one it was started in
does. -/
def Remains (cwd : Text) : Prop :=
  strip call.command ≠ [] →
    match call.performs.ending with
    | .returned _ _ => call.performs.directory.name ∈ call.directories
    | _ => Utf8.encode cwd ∈ call.directories

end Call

section Steps

variable {τ : Type} (sandbox : Sandbox) (config : ShellToolConfig τ)

/-- A call of the tool takes a session to the next one. -/
inductive Step : Session → Call τ → Session → Prop where
  | blank {session call result cwd'} (hcommand : strip call.command = [])
      (hrun : Shell.run call.runtime sandbox config call.uuid (some call.command) call.timeout
        session.cwd = .ok (result, cwd')) :
      Step session call { session with cwd := cwd' }
  | performed {session call result cwd'} (hcommand : strip call.command ≠ [])
      (hstands : session.Stands)
      (hperformed : call.performs.Performed call.runtime sandbox config call.uuid call.command
        call.timeout session.cwd)
      (hrun : Shell.run call.runtime sandbox config call.uuid (some call.command) call.timeout
        session.cwd = .ok (result, cwd')) :
      Step session call ⟨call.directories, cwd'⟩
  /-- the runtime cannot enter the directory, and nothing prints the marker -/
  | refused {session call result cwd' completed} (hcommand : strip call.command ≠ [])
      (hgone : ¬ session.Stands)
      (hanswer : call.runtime.subprocess
          (call.runtime.dockerBinary :: call.runtime.dockerArgs
            (limitedCommand call.runtime sandbox
              (call.runtime.shellArgv (script call.command (marker call.uuid)))
              (call.timeout.or config.commandTimeout)) session.cwd config.envVars)
          ((call.timeout.or config.commandTimeout).map call.runtime.grace) = .ok completed)
      (hmarker : ¬ marker call.uuid <:+: Utf8.decode completed.stdout)
      (hrun : Shell.run call.runtime sandbox config call.uuid (some call.command) call.timeout
        session.cwd = .ok (result, cwd')) :
      Step session call { session with cwd := cwd' }

/-- A call between two sessions. -/
structure Round (τ : Type) where
  before : Session
  call : Call τ
  after : Session

/-- A sequence of calls. -/
inductive Trace : Session → List (Round τ) → Prop where
  | nil (session : Session) : Trace session []
  | cons (round : Round τ) {rounds : List (Round τ)}
      (hstep : Step sandbox config round.before round.call round.after)
      (hrounds : Trace round.after rounds) : Trace round.before (round :: rounds)

end Steps

section

variable {τ : Type} {sandbox : Sandbox} {config : ShellToolConfig τ} {session next : Session}
  {call : Call τ}

/-- A blank command leaves the tool where it is. -/
theorem run_of_blank {runtime : Runtime τ} {uuid : Uuid} {command : Text} {timeout : Option τ}
    {cwd cwd' : Text} {result : ToolResult} (hcommand : strip command = [])
    (h : Shell.run runtime sandbox config uuid (some command) timeout cwd = .ok (result, cwd')) :
    cwd' = cwd := by
  rw [Shell.run, Option.getD_some] at h
  dsimp only at h
  rw [if_pos hcommand] at h
  cases h
  rfl

/-- **A call leaves the tool in a directory** where the directory it reads remains. -/
theorem Step.stands_iff (h : Step sandbox config session call next) (hstands : session.Stands)
    (hplain : call.Plain) : next.Stands ↔ call.Remains session.cwd := by
  cases h with
  | blank hcommand hrun =>
    rw [run_of_blank hcommand hrun]
    exact iff_of_true hstands fun hne => absurd hcommand hne
  | refused _ hgone => exact absurd hstands hgone
  | performed hcommand _ hperformed hrun =>
    obtain ⟨hunmarked, hplain⟩ := hplain hcommand
    have hcwd := ShellRun.cwd_of_run hcommand hperformed.answer hrun
    have hremains : call.Remains session.cwd ↔ _ := imp_iff_right hcommand
    rw [hremains, Session.Stands, hcwd]
    cases hending : call.performs.ending with
    | returned code late =>
      have hreadable : call.performs.Readable (marker call.uuid) session.cwd := by
        rw [ShellRun.Readable, hending]
        exact hplain code late hending
      have hread := ((ShellRun.readable_iff _ hunmarked).mpr hreadable).2
      rw [ShellRun.completed, hread]
    | left code =>
      rw [ShellRun.completed, ShellRun.readOutput_stdout hunmarked (by simp [hending])]
    | killed =>
      rw [ShellRun.completed, ShellRun.readOutput_stdout hunmarked (by simp [hending])]

/-- **The tool never stands in a missing directory** in a sequence of calls that leave the directory
they are read to end in, and no sequence of plain calls keeps it from that otherwise. -/
theorem Trace.stands_of_remains {rounds : List (Round τ)} (h : Trace sandbox config session rounds)
    (hstands : session.Stands) :
    ((∀ round ∈ rounds, round.call.Plain ∧ round.call.Remains round.before.cwd) →
      ∀ round ∈ rounds, round.after.Stands) ∧
    ((∀ round ∈ rounds, round.call.Plain) → (∀ round ∈ rounds, round.after.Stands) →
      ∀ round ∈ rounds, round.call.Remains round.before.cwd) := by
  induction h with
  | nil => exact ⟨fun _ _ hmem => (nomatch hmem), fun _ _ _ hmem => (nomatch hmem)⟩
  | cons round hstep _ ih =>
    simp only [List.forall_mem_cons]
    constructor
    · rintro ⟨⟨hplain, hremains⟩, hrounds⟩
      have hnext := (hstep.stands_iff hstands hplain).mpr hremains
      exact ⟨hnext, (ih hnext).1 hrounds⟩
    · rintro ⟨hplain, hrounds⟩ ⟨hnext, hafter⟩
      exact ⟨(hstep.stands_iff hstands hplain).mp hnext, (ih hnext).2 hrounds hafter⟩

/-! ### A directory that vanishes -/

/-- `/tmp/x`. -/
def scratch : Directory where
  name := Utf8.encode ['/', 't', 'm', 'p', '/', 'x']
  absolute := rfl

/-- A command that prints nothing and returns in `/tmp/x`. -/
def endsInScratch : ShellRun where
  output := []
  stderr := []
  directory := scratch
  ending := .returned 0 []

/-- A call of it, which leaves some directories. -/
def callScratch (command : Text) (directories : Set Bytes) : Call ℕ where
  runtime := ShellRun.performing endsInScratch
  uuid := ShellRun.zeros
  command
  timeout := none
  performs := endsInScratch
  directories

/-- The tool at its start. -/
def atRoot : Session where
  directories := {Utf8.encode ['/']}
  cwd := ['/']

theorem atRoot_stands : atRoot.Stands := rfl

theorem plain_callScratch (command : Text) (directories : Set Bytes) :
    (callScratch command directories).Plain := by
  intro _
  have hnil : ¬ marker ShellRun.zeros <:+: [] :=
    mt List.eq_nil_of_infix_nil (marker_ne_nil ShellRun.zeros)
  refine ⟨⟨hnil, fun code late hending => ?_⟩, fun code late _ => ?_⟩
  · cases hending
    exact hnil
  · refine ⟨['/', 't', 'm', 'p', '/', 'x'], rfl, by decide, fun hwithin => ?_⟩
    have hlength : 6 < (marker ShellRun.zeros).length := by decide
    exact absurd hwithin.length_le (not_le.mpr hlength)

/-- The call takes the tool from its start to `/tmp/x`. -/
theorem exists_step_callScratch (command : Text) (hcommand : strip command ≠ [])
    (directories : Set Bytes) :
    ∃ next, Step ⟨8192⟩ ShellRun.halfMinute atRoot (callScratch command directories) next ∧
      (next.Stands ↔ scratch.name ∈ directories) := by
  have hperformed : endsInScratch.Performed (ShellRun.performing endsInScratch) ⟨8192⟩
      ShellRun.halfMinute ShellRun.zeros command none atRoot.cwd := ⟨rfl, fun _ => rfl⟩
  have hcode : ¬ ShellRun.TakenForLimit
      (Option.or none ShellRun.halfMinute.commandTimeout).isSome 0 :=
    fun htaken => absurd htaken.2 (by decide)
  have hrun := ShellRun.run_of_code hcommand hperformed rfl hcode
  have hstep : Step ⟨8192⟩ ShellRun.halfMinute atRoot (callScratch command directories) _ :=
    .performed hcommand atRoot_stands hperformed hrun
  refine ⟨_, hstep, ?_⟩
  exact (hstep.stands_iff atRoot_stands (plain_callScratch command directories)).trans
    (imp_iff_right hcommand)

/-- The directory that a command enters remains when it is kept. -/
theorem stands_mkdir :
    ∃ next, Trace ⟨8192⟩ ShellRun.halfMinute atRoot
        [⟨atRoot, callScratch "mkdir -p /tmp/x; cd /tmp/x".toList
          {Utf8.encode ['/'], scratch.name}, next⟩] ∧
      next.Stands := by
  obtain ⟨next, hstep, -⟩ := exists_step_callScratch "mkdir -p /tmp/x; cd /tmp/x".toList
    (by decide)
    {Utf8.encode ['/'], scratch.name}
  have htrace := Trace.cons ⟨atRoot, _, next⟩ hstep (.nil next)
  refine ⟨next, htrace, (Trace.stands_of_remains htrace atRoot_stands).1 ?_ _
    List.mem_cons_self⟩
  rintro round hmem
  obtain rfl := List.mem_singleton.mp hmem
  exact ⟨plain_callScratch _ _, fun _ => Set.mem_insert_of_mem _ (Set.mem_singleton _)⟩

/-- A command that removes the directory it has entered leaves the tool in none. -/
theorem not_stands_rmdir :
    ∃ next, Trace ⟨8192⟩ ShellRun.halfMinute atRoot
        [⟨atRoot, callScratch "mkdir -p /tmp/x; cd /tmp/x; rmdir /tmp/x".toList
          {Utf8.encode ['/']}, next⟩] ∧
      ¬ next.Stands := by
  obtain ⟨next, hstep, hstands⟩ := exists_step_callScratch
    "mkdir -p /tmp/x; cd /tmp/x; rmdir /tmp/x".toList (by decide) {Utf8.encode ['/']}
  have htrace := Trace.cons ⟨atRoot, _, next⟩ hstep (.nil next)
  refine ⟨next, htrace, ?_⟩
  rw [hstands, Set.mem_singleton_iff]
  decide

end

end R2eTask.Shell
