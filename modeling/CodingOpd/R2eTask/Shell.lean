import CodingOpd.Python.Values
import CodingOpd.Python.Utf8

/-!
# The shell tool

`RaySafeShellTool` sends each command to the sandbox with a script behind it that prints a marker
and the working directory, and reads both off the output. `RaySafeDockerSandbox._exec` runs the
script under `timeout --signal=KILL` and takes the exit codes 124 and 137 for its limit. Podman and
the command line that `DockerSandbox` gives it are parameters.

## Main definitions

* `runDocker`, `exec`, `run`: `_run_docker`, `_exec` and `RaySafeShellTool._run`
* `ShellRun`: what a command does in the container, and how it ends
* `Faithful`: what the tool has to say about it
* `Legible`: the runs whose end does not look like another one's

## Main results

* `run_eq_ok`: what the tool says about a run
* `faithful_iff`: it is faithful for the legible runs
-/

open Python

namespace R2eTask.Shell

/-- `uuid.uuid4()`, by its hexadecimal digits. -/
structure Uuid where
  hex : Text
  isHex : ∀ c ∈ hex, c.isDigit ∨ c ∈ ['a', 'b', 'c', 'd', 'e', 'f']

/-- `ExecResult`. -/
structure ExecResult where
  exitCode : ℤ
  stdout : Text
  stderr : Text
  deriving DecidableEq

/-- `subprocess.CompletedProcess`. -/
structure CompletedProcess where
  returncode : ℤ
  stdout : Bytes
  stderr : Bytes

/-- `cfg.env_vars`. -/
abbrev Environment := List (Text × Text)

/-- What the tool is run on: the formats and sums of its time limits, the command lines of
`DockerSandbox`, and the process that takes them. -/
structure Runtime (τ : Type) where
  /-- `f"{timeout}"` -/
  seconds : τ → Text
  /-- `timeout + 15` -/
  grace : τ → τ
  /-- the command of `DockerSandbox.exec_shell` for a script -/
  shellArgv : Text → List Text
  /-- the arguments of `DockerSandbox._exec` for a command -/
  dockerArgs : List Text → Text → Environment → List Text
  dockerBinary : Text
  /-- `subprocess.run`, of a `podman` -/
  subprocess : List Text → Option τ → Except PyError CompletedProcess

/-- `RaySafeDockerSandbox`. -/
structure Sandbox where
  processMemoryLimitMb : ℕ

/-- `ShellToolConfig`. -/
structure ShellToolConfig (τ : Type) where
  commandTimeout : Option τ
  envVars : Environment

inductive ToolStatus where
  | ok
  | timeout
  | formatError
  deriving DecidableEq

/-- `ToolResult`. -/
structure ToolResult where
  text : Text
  status : ToolStatus
  deriving DecidableEq

section Model

variable {τ : Type} (runtime : Runtime τ) (sandbox : Sandbox) (config : ShellToolConfig τ)

/-- `RaySafeDockerSandbox._run_docker`. -/
def runDocker (args : List Text) (timeout : Option τ) : Except PyError ExecResult := do
  let completed ← runtime.subprocess (runtime.dockerBinary :: args) timeout
  return {
    exitCode := completed.returncode
    stdout := Utf8.decode completed.stdout
    stderr := Utf8.decode completed.stderr }

/-- The command of `_exec`: a limit on the memory, and one on the time. -/
def limitedCommand (argv : List Text) (timeout : Option τ) : List Text :=
  ["bash".toList, "-c".toList, "ulimit -v \"$1\" || exit; shift; exec \"$@\"".toList,
      "opd-limited-command".toList, (toString (sandbox.processMemoryLimitMb * 1024)).toList] ++
    (match timeout with
      | none => []
      | some timeout =>
        ["timeout".toList, "--signal=KILL".toList, runtime.seconds timeout ++ "s".toList]) ++
    argv

/-- `RaySafeDockerSandbox._exec`, with what `exec_shell` does before it. -/
def exec (argv : List Text) (timeout : Option τ) (workdir : Text) (env : Environment) :
    Except PyError ExecResult := do
  let result ← runDocker runtime
    (runtime.dockerArgs (limitedCommand runtime sandbox argv timeout) workdir env)
    (timeout.map runtime.grace)
  match timeout with
  | none => return result
  | some timeout =>
    if result.exitCode = 124 ∨ result.exitCode = 137 then
      return {
        exitCode := -1
        stdout := result.stdout
        stderr := result.stderr ++ "\ncommand timed out after ".toList ++ runtime.seconds timeout ++
          "s; process group terminated".toList }
    else return result

/-- `marker`. -/
def marker (uuid : Uuid) : Text :=
  ['_', '_', 'C', 'O', 'D', 'I', 'N', 'G', '_', 'O', 'P', 'D', '_', 'C', 'W', 'D', '_'] ++
    uuid.hex ++ ['_', '_']

/-- `script`. -/
def script (command marker : Text) : Text :=
  command ++ "\n__coding_opd_rc=$?\nprintf '\\n".toList ++ marker ++
    "%s\\n' \"$PWD\"\nexit \"$__coding_opd_rc\"".toList

/-- `text.rstrip("\n")`. -/
def rstripNewlines (text : Text) : Text := text.rdropWhile (· = '\n')

/-- The output without the line of the marker, and the working directory. -/
def readOutput (marker stdout cwd : Text) : Text × Text :=
  match rpartition marker stdout with
  | none => (stdout, cwd)
  | some (before, suffix) =>
    let (directory, trailing) := (partition ['\n'] suffix).getD (suffix, [])
    (rstripNewlines before ++ trailing, if ['/'].isPrefixOf directory then directory else cwd)

/-- `"\n".join(parts)`. -/
def report (stdout stderr : Text) (exitCode : ℤ) : Text :=
  join ['\n'] (
    (if stdout = [] then [] else [stdout]) ++ (if stderr = [] then [] else [stderr]) ++
    (if exitCode = 0 then [] else
      ["Command exited with code ".toList ++ (toString exitCode).toList]))

/-- `RaySafeShellTool._run`, from a working directory to the next one. -/
def run (uuid : Uuid) (command : Option Text) (timeout : Option τ) (cwd : Text) :
    Except PyError (ToolResult × Text) := do
  let command := command.getD []
  if strip command = [] then
    return ({
      text := "Error: Parameter `command` is required.".toList
      status := .formatError }, cwd)
  let result ← exec runtime sandbox (runtime.shellArgv (script command (marker uuid)))
    (timeout.or config.commandTimeout) cwd config.envVars
  let (stdout, cwd) := readOutput (marker uuid) result.stdout cwd
  return ({
    text := report stdout result.stderr result.exitCode
    status := if result.exitCode = -1 then .timeout else .ok }, cwd)

end Model

/-! ## What a command does -/

/-- An absolute directory, by its name in the file system. -/
structure Directory where
  name : Bytes
  absolute : name.head? = some 0x2f

/-- How a command ends. -/
inductive Ending where
  /-- it returns to the script, which prints the marker; its background jobs may print more -/
  | returned (code : Fin 256) (late : Bytes)
  /-- it ends the shell itself, by `exit`, by `exec` or by a signal -/
  | left (code : Fin 256)
  /-- the limit in the container kills it -/
  | killed

/-- There are exit codes. -/
instance neZero_codes : NeZero 256 := ⟨by decide⟩

/-- A command in the container: what it prints, and where and how it ends. -/
structure ShellRun where
  output : Bytes
  stderr : Bytes
  directory : Directory
  ending : Ending

namespace ShellRun

/-- Its own exit code. -/
def code (run : ShellRun) : Option (Fin 256) :=
  match run.ending with
  | .returned code _ => some code
  | .left code => some code
  | .killed => none

/-- The standard output of the script. -/
def stdout (run : ShellRun) (marker : Text) : Bytes :=
  match run.ending with
  | .returned _ late =>
    run.output ++
      (Utf8.encode ('\n' :: marker) ++ (run.directory.name ++ (Utf8.encode ['\n'] ++ late)))
  | _ => run.output

/-- What is left of the script: `timeout --signal=KILL` dies of the signal it sends, which is
reported as 137. -/
def completed (run : ShellRun) (marker : Text) : CompletedProcess where
  returncode := run.code.elim 137 fun code => (code : ℕ)
  stdout := run.stdout marker
  stderr := run.stderr

/-- The text a command prints, up to line feeds before the marker. -/
def kept (run : ShellRun) : Text :=
  match run.ending with
  | .returned _ late => rstripNewlines (Utf8.decode run.output) ++ Utf8.decode late
  | _ => Utf8.decode run.output

/-- Neither the output nor what is printed late has the marker. -/
def Unmarked (run : ShellRun) (marker : Text) : Prop :=
  ¬ marker <:+: Utf8.decode run.output ∧
    ∀ code late, run.ending = .returned code late → ¬ marker <:+: Utf8.decode late

/-- **The tool is faithful** to a run. -/
structure Faithful (run : ShellRun) (result : ToolResult) (cwd : Text) : Prop where
  status : result.status = .timeout ↔ run.ending = .killed
  /-- what is printed, on lines of their own, and the exit code of the command just where it is not
  zero -/
  text : ∀ code, run.code = some code → result.text =
    join ['\n'] ([run.kept, Utf8.decode run.stderr].filter (· ≠ []) ++
      if code = 0 then []
      else ["Command exited with code ".toList ++ (toString (code : ℕ)).toList])
  output : run.kept <+: result.text
  directory : Utf8.encode cwd = run.directory.name

/-- The tool takes a code for the limit. -/
def TakenForLimit (limited : Prop) (code : Fin 256) : Prop :=
  limited ∧ (code = 124 ∨ code = 137)

/-- A name that the line of the marker can hold: text of one line without the marker. -/
def Plain (name : Bytes) (marker : Text) : Prop :=
  ∃ text, name = Utf8.encode text ∧ '\n' ∉ text ∧ ¬ marker <:+: text

/-- What is read behind the marker is where the command ended: a command that returns ends in a
directory of a plain name, any other one where the tool is. -/
def Readable (run : ShellRun) (marker cwd : Text) : Prop :=
  match run.ending with
  | .returned _ _ => Plain run.directory.name marker
  | _ => run.directory.name = Utf8.encode cwd

/-- **A legible run**: no code of the command is taken for the limit, and its end is read. -/
structure Legible (run : ShellRun) (limited : Prop) (marker cwd : Text) : Prop where
  code : ∀ code, run.code = some code → ¬ TakenForLimit limited code
  readable : run.Readable marker cwd

/-- The process of a call performs a run, which only a limit kills. -/
structure Performed {τ : Type} (run : ShellRun) (runtime : Runtime τ) (sandbox : Sandbox)
    (config : ShellToolConfig τ) (uuid : Uuid) (command : Text) (timeout : Option τ) (cwd : Text) :
    Prop where
  answer : runtime.subprocess
      (runtime.dockerBinary :: runtime.dockerArgs
        (limitedCommand runtime sandbox (runtime.shellArgv (script command (marker uuid)))
          (timeout.or config.commandTimeout)) cwd config.envVars)
      ((timeout.or config.commandTimeout).map runtime.grace) =
    .ok (run.completed (marker uuid))
  limited : run.ending = .killed → (timeout.or config.commandTimeout).isSome

end ShellRun

/-! ## What the tool reads -/

theorem notMem_marker {c : Char} (hdigit : ¬ c.isDigit)
    (hc : c ∉ ['_', 'C', 'O', 'D', 'I', 'N', 'G', 'P', 'W', 'a', 'b', 'c', 'd', 'e', 'f'])
    (uuid : Uuid) : c ∉ marker uuid := by
  simp only [List.mem_cons, List.not_mem_nil, or_false, not_or] at hc
  have hhex : c ∉ uuid.hex := by
    intro hmem
    rcases uuid.isHex c hmem with h | h
    · exact hdigit h
    · simp [hc] at h
  simp [marker, hhex, hc]

theorem slash_notMem_marker (uuid : Uuid) : '/' ∉ marker uuid :=
  notMem_marker (by decide) (by decide) uuid

theorem newline_notMem_marker (uuid : Uuid) : '\n' ∉ marker uuid :=
  notMem_marker (by decide) (by decide) uuid

theorem marker_ne_nil (uuid : Uuid) : marker uuid ≠ [] := by
  simp [marker]

/-- The report of an exit code of a command. -/
theorem report_of_code (stdout stderr : Text) (code : Fin 256) :
    report stdout stderr (code : ℕ) =
      join ['\n'] ([stdout, stderr].filter (· ≠ []) ++
        if code = 0 then []
        else ["Command exited with code ".toList ++ (toString (code : ℕ)).toList]) := by
  have htext : toString ((code : ℕ) : ℤ) = toString (code : ℕ) := rfl
  rw [report, htext]
  by_cases hstdout : stdout = [] <;> by_cases hstderr : stderr = [] <;>
    simp [hstdout, hstderr]

/-- A report is its output and what is said behind it, on lines of their own. -/
theorem report_eq (stdout stderr : Text) (exitCode : ℤ) :
    report stdout stderr exitCode =
      if stdout = [] then report [] stderr exitCode
      else if stderr = [] ∧ exitCode = 0 then stdout
      else stdout ++ '\n' :: report [] stderr exitCode := by
  rw [report, report]
  split_ifs <;> simp_all [join, List.intercalate_cons_of_ne_nil, List.intercalate_singleton]

theorem prefix_report (stdout stderr : Text) (exitCode : ℤ) :
    stdout <+: report stdout stderr exitCode := by
  rw [report_eq]
  split_ifs with hempty
  · rw [hempty]
    exact List.nil_prefix
  · exact List.prefix_refl _
  · exact List.prefix_append _ _

/-- The report tells its outputs apart. -/
theorem report_injective {stdout stdout' stderr : Text} {exitCode : ℤ}
    (h : report stdout stderr exitCode = report stdout' stderr exitCode) : stdout = stdout' := by
  have hnil : stderr = [] ∧ exitCode = 0 → report [] stderr exitCode = [] := by
    rintro ⟨rfl, rfl⟩
    rfl
  generalize hrest : report [] stderr exitCode = rest at *
  have hlength := congrArg List.length h
  rw [report_eq stdout, report_eq stdout', hrest] at h hlength
  by_cases hquiet : stderr = [] ∧ exitCode = 0
  · rw [if_pos hquiet, if_pos hquiet, hnil hquiet] at h
    split_ifs at h with hempty hempty' hempty'
    · rw [hempty, hempty']
    · rw [hempty, h]
    · rw [hempty', h]
    · exact h
  · rw [if_neg hquiet, if_neg hquiet] at h hlength
    split_ifs at h hlength with hempty hempty' hempty'
    · rw [hempty, hempty']
    · simp at hlength
      omega
    · simp at hlength
      omega
    · exact List.append_cancel_right h

/-- Where a name begins with a slash, the marker begins before it as in it. -/
theorem begins_slash (uuid : Uuid) (path : Text) :
    Begins (marker uuid) ('/' :: path) ↔ ¬ marker uuid <:+: '/' :: path := by
  have hslash := slash_notMem_marker uuid
  have htail : ¬ marker uuid <:+: (marker uuid).tail := by
    intro hwithin
    have hlength := hwithin.length_le
    have hpos := List.length_pos_iff.mpr (marker_ne_nil uuid)
    rw [List.length_tail] at hlength
    omega
  have hnil : ¬ marker uuid <:+: [] := mt List.eq_nil_of_infix_nil (marker_ne_nil uuid)
  rw [Begins, infix_append_cons_iff hslash, ← List.nil_append ('/' :: path),
    infix_append_cons_iff hslash]
  simp [htail, hnil]

theorem begins_append_newline (uuid : Uuid) {piece late : Text} (h : Begins (marker uuid) piece)
    (hlate : ¬ marker uuid <:+: late) : Begins (marker uuid) (piece ++ '\n' :: late) := by
  rw [Begins, ← List.append_assoc, infix_append_cons_iff (newline_notMem_marker uuid)]
  exact not_or.mpr ⟨h, hlate⟩

/-- A text before a line feed has a first line. -/
theorem exists_line (piece late : Text) :
    ∃ line trailing, piece ++ '\n' :: late = line ++ '\n' :: trailing ∧ '\n' ∉ line ∧
      late <:+ trailing ∧ ('\n' ∉ piece → line = piece ∧ trailing = late) := by
  induction piece with
  | nil => exact ⟨[], late, rfl, List.not_mem_nil, List.suffix_refl _, fun _ => ⟨rfl, rfl⟩⟩
  | cons c piece ih =>
    by_cases hc : c = '\n'
    · refine ⟨[], piece ++ '\n' :: late, by rw [hc]; rfl, List.not_mem_nil, ?_, ?_⟩
      · exact (List.suffix_cons _ _).trans (List.suffix_append _ _)
      · exact fun hmem => absurd (hc ▸ List.mem_cons_self) hmem
    · obtain ⟨line, trailing, heq, hline, hlate, hsame⟩ := ih
      refine ⟨c :: line, trailing, by rw [List.cons_append, heq]; rfl, ?_, hlate, ?_⟩
      · exact List.not_mem_cons_of_ne_of_not_mem (Ne.symm hc) hline
      · intro hmem
        obtain ⟨rfl, rfl⟩ := hsame (List.not_mem_of_not_mem_cons hmem)
        exact ⟨rfl, rfl⟩

/-- What is read behind the last marker. -/
theorem readOutput_append (uuid : Uuid) {piece late : Text} (h : Begins (marker uuid) piece)
    (hlate : ¬ marker uuid <:+: late) {line trailing : Text}
    (hline : piece ++ '\n' :: late = line ++ '\n' :: trailing) (hnewline : '\n' ∉ line)
    (before cwd : Text) :
    readOutput (marker uuid) (before ++ (marker uuid ++ (piece ++ '\n' :: late))) cwd =
      (rstripNewlines before ++ trailing, if ['/'].isPrefixOf line then line else cwd) := by
  have hends : Ends ['\n'] line := by
    rw [Ends, List.dropLast_singleton, List.append_nil, List.singleton_infix_iff]
    exact hnewline
  have hparts : partition ['\n'] (line ++ '\n' :: trailing) = some (line, trailing) :=
    partition_append (by simp) hends trailing
  rw [readOutput, rpartition_append (marker_ne_nil uuid) (begins_append_newline uuid h hlate)]
  dsimp only
  rw [hline, hparts]
  rfl

theorem rstripNewlines_append_newline (text : Text) :
    rstripNewlines (text ++ ['\n']) = rstripNewlines text :=
  List.rdropWhile_concat_pos _ _ _ (by decide)

/-- The marker is not stripped. -/
theorem length_le_rstripNewlines (uuid : Uuid) (text rest : Text) :
    text.length ≤ (rstripNewlines (text ++ (marker uuid ++ rest))).length := by
  obtain ⟨front, hfront⟩ : ∃ front, marker uuid = front ++ ['_'] :=
    ⟨_, (List.append_assoc _ ['_'] ['_']).symm⟩
  rw [hfront, List.append_assoc, List.singleton_append, ← List.append_assoc, rstripNewlines,
    rdropWhile_append_cons (by decide)]
  simp only [List.length_append]
  omega

/-- Where a name holds the marker, what is kept of the output is longer than the output. -/
theorem readOutput_ne_of_marker (uuid : Uuid) {output name late cwd : Text}
    (hmarker : marker uuid <:+: name) (hlate : ¬ marker uuid <:+: late) :
    (readOutput (marker uuid) ((output ++ ['\n']) ++ (marker uuid ++ (name ++ '\n' :: late)))
      cwd).1 ≠ rstripNewlines output ++ late := by
  obtain ⟨before, after, hparts, hbegins⟩ := exists_begins (marker_ne_nil uuid) hmarker
  obtain ⟨line, trailing, hline, hnewline, hsuffix, -⟩ := exists_line after late
  have hstdout : (output ++ ['\n']) ++ (marker uuid ++ (name ++ '\n' :: late)) =
      (output ++ ['\n'] ++ (marker uuid ++ before)) ++
        (marker uuid ++ (after ++ '\n' :: late)) := by
    rw [hparts]
    simp only [List.append_assoc]
  rw [hstdout, readOutput_append uuid hbegins hlate hline hnewline]
  intro hread
  have hlength := congrArg List.length hread
  have hmore := length_le_rstripNewlines uuid (output ++ ['\n']) before
  have hless := (List.rdropWhile_prefix (· = '\n') output).length_le
  have htrailing := hsuffix.length_le
  rw [← rstripNewlines] at hless
  simp only [List.length_append, List.length_singleton] at hlength hmore
  omega

namespace ShellRun

variable {run : ShellRun} {uuid : Uuid} {cwd : Text}

theorem exists_decode_directory (directory : Directory) :
    ∃ path, Utf8.decode directory.name = '/' :: path := by
  obtain ⟨_ | ⟨byte, bytes⟩, habsolute⟩ := directory
  · cases habsolute
  · obtain rfl : byte = 0x2f := Option.some_inj.mp habsolute
    exact ⟨Utf8.decode bytes, Utf8.decodeFrom_cons none 0x2f bytes⟩

/-- The output of a script that prints the marker. -/
theorem decode_stdout {code : Fin 256} {late : Bytes} (h : run.ending = .returned code late) :
    Utf8.decode (run.stdout (marker uuid)) =
      (Utf8.decode run.output ++ ['\n']) ++
        (marker uuid ++ (Utf8.decode run.directory.name ++ '\n' :: Utf8.decode late)) := by
  rw [stdout, h]
  dsimp only
  rw [Utf8.decode_append_encode _ (by decide), Utf8.decode_append_encode _ (by decide)]
  simp

theorem readOutput_stdout (h : run.Unmarked (marker uuid))
    (hending : ∀ code late, run.ending ≠ .returned code late) :
    readOutput (marker uuid) (Utf8.decode (run.stdout (marker uuid))) cwd = (run.kept, cwd) := by
  have hstdout : run.stdout (marker uuid) = run.output := by
    rw [stdout]
    split
    case h_1 h => exact absurd h (hending _ _)
    case h_2 => rfl
  have hkept : run.kept = Utf8.decode run.output := by
    rw [kept]
    split
    case h_1 h => exact absurd h (hending _ _)
    case h_2 => rfl
  rw [hstdout, hkept, readOutput, rpartition_eq_none h.1]

/-- The end of a run is read where it is readable, and nowhere else. -/
theorem readable_iff (cwd : Text) (h : run.Unmarked (marker uuid)) :
    (readOutput (marker uuid) (Utf8.decode (run.stdout (marker uuid))) cwd).1 = run.kept ∧
        Utf8.encode (readOutput (marker uuid) (Utf8.decode (run.stdout (marker uuid))) cwd).2 =
          run.directory.name ↔
      run.Readable (marker uuid) cwd := by
  cases hending : run.ending with
  | killed =>
    rw [readOutput_stdout h (by simp [hending]), Readable, hending]
    exact ⟨fun hread => hread.2.symm, fun hread => ⟨rfl, hread.symm⟩⟩
  | left code =>
    rw [readOutput_stdout h (by simp [hending]), Readable, hending]
    exact ⟨fun hread => hread.2.symm, fun hread => ⟨rfl, hread.symm⟩⟩
  | returned code late =>
    have hlate := h.2 code late hending
    obtain ⟨path, hpath⟩ := exists_decode_directory run.directory
    have hkept : run.kept = rstripNewlines (Utf8.decode run.output) ++ Utf8.decode late := by
      rw [kept, hending]
    rw [decode_stdout hending, Readable, hending, hkept]
    dsimp only
    -- a directory named with the marker splits the output at the wrong place
    by_cases hmarker : marker uuid <:+: Utf8.decode run.directory.name
    · refine iff_of_false (fun hread => readOutput_ne_of_marker uuid hmarker hlate hread.1) ?_
      rintro ⟨name, hname, -, hname'⟩
      rw [hname, Utf8.decode_encode] at hmarker
      exact hname' hmarker
    · -- otherwise the directory is the line after the marker, cut at its first newline
      obtain ⟨line, trailing, hline, hnewline, -, hsame⟩ :=
        exists_line (Utf8.decode run.directory.name) (Utf8.decode late)
      have hbegins : Begins (marker uuid) (Utf8.decode run.directory.name) := by
        rw [hpath] at hmarker ⊢
        exact (begins_slash uuid path).mpr hmarker
      have hslash : ['/'].isPrefixOf line := by
        rw [hpath] at hline
        rcases line with _ | ⟨c, line⟩
        · exact absurd (List.cons.inj hline).1 (by decide)
        · obtain rfl : '/' = c := (List.cons.inj hline).1
          rfl
      rw [readOutput_append uuid hbegins hlate hline hnewline, if_pos hslash,
        rstripNewlines_append_newline]
      constructor
      · rintro ⟨-, hread⟩
        refine ⟨line, hread.symm, hnewline, ?_⟩
        rwa [← hread, Utf8.decode_encode] at hmarker
      · rintro ⟨name, hname, hnewline', -⟩
        rw [hname, Utf8.decode_encode] at hsame
        obtain ⟨rfl, rfl⟩ := hsame hnewline'
        exact ⟨rfl, hname.symm⟩

section Calls

variable {τ : Type} {runtime : Runtime τ} {sandbox : Sandbox} {config : ShellToolConfig τ}
  {command : Text} {timeout : Option τ}

/-- A run that the sandbox takes for one that its limit killed. -/
theorem exec_of_limit (h : run.Performed runtime sandbox config uuid command timeout cwd)
    (hlimited : (timeout.or config.commandTimeout).isSome)
    (hcode : ∀ code, run.code = some code → code = 124 ∨ code = 137) :
    ∃ stderr, exec runtime sandbox (runtime.shellArgv (script command (marker uuid)))
        (timeout.or config.commandTimeout) cwd config.envVars =
      .ok { exitCode := -1, stdout := Utf8.decode (run.stdout (marker uuid)), stderr } := by
  have hreturncode : (run.completed (marker uuid)).returncode = 124 ∨
      (run.completed (marker uuid)).returncode = 137 := by
    rw [completed]
    cases hrun : run.code with
    | none => exact .inr rfl
    | some code =>
      rcases hcode code hrun with rfl | rfl
      · exact .inl rfl
      · exact .inr rfl
  obtain ⟨limit, hlimit⟩ := Option.isSome_iff_exists.mp hlimited
  have hanswer := h.answer
  rw [hlimit] at hanswer ⊢
  rw [exec, runDocker, hanswer]
  exact ⟨_, if_pos hreturncode⟩

/-- A run that the sandbox hands on. -/
theorem exec_of_code (h : run.Performed runtime sandbox config uuid command timeout cwd)
    {code : Fin 256} (hrun : run.code = some code)
    (hcode : ¬ TakenForLimit (timeout.or config.commandTimeout).isSome code) :
    exec runtime sandbox (runtime.shellArgv (script command (marker uuid)))
        (timeout.or config.commandTimeout) cwd config.envVars =
      .ok {
        exitCode := (code : ℕ)
        stdout := Utf8.decode (run.stdout (marker uuid))
        stderr := Utf8.decode run.stderr } := by
  have hreturncode : (run.completed (marker uuid)).returncode = (code : ℕ) := by
    rw [completed, hrun]
    rfl
  have hanswer := h.answer
  cases hlimit : timeout.or config.commandTimeout with
  | none =>
    rw [hlimit] at hanswer
    rw [exec, runDocker, hanswer, ← hreturncode]
    rfl
  | some limit =>
    rw [hlimit] at hanswer hcode
    have hother : ¬ ((run.completed (marker uuid)).returncode = 124 ∨
        (run.completed (marker uuid)).returncode = 137) := by
      intro htaken
      refine hcode ⟨rfl, ?_⟩
      rw [hreturncode] at htaken
      simp only [Fin.ext_iff]
      exact_mod_cast htaken
    rw [exec, runDocker, hanswer, ← hreturncode]
    exact if_neg hother

theorem run_eq_ok (hcommand : strip command ≠ []) {result : ExecResult}
    (hexec : exec runtime sandbox (runtime.shellArgv (script command (marker uuid)))
      (timeout.or config.commandTimeout) cwd config.envVars = .ok result) :
    Shell.run runtime sandbox config uuid (some command) timeout cwd =
      .ok ({
        text := report (readOutput (marker uuid) result.stdout cwd).1 result.stderr result.exitCode
        status := if result.exitCode = -1 then .timeout else .ok },
        (readOutput (marker uuid) result.stdout cwd).2) := by
  rw [Shell.run, Option.getD_some]
  dsimp only
  rw [if_neg hcommand, hexec]
  rfl

/-- Whatever the process answers, the directory is read of its output. -/
theorem cwd_of_run (hcommand : strip command ≠ []) {completed : CompletedProcess}
    (hanswer : runtime.subprocess
        (runtime.dockerBinary :: runtime.dockerArgs
          (limitedCommand runtime sandbox (runtime.shellArgv (script command (marker uuid)))
            (timeout.or config.commandTimeout)) cwd config.envVars)
        ((timeout.or config.commandTimeout).map runtime.grace) = .ok completed)
    {result : ToolResult} {cwd' : Text}
    (h : Shell.run runtime sandbox config uuid (some command) timeout cwd = .ok (result, cwd')) :
    cwd' = (readOutput (marker uuid) (Utf8.decode completed.stdout) cwd).2 := by
  have hexec : ∃ answer, exec runtime sandbox (runtime.shellArgv (script command (marker uuid)))
      (timeout.or config.commandTimeout) cwd config.envVars = .ok answer ∧
        answer.stdout = Utf8.decode completed.stdout := by
    rw [exec, runDocker, hanswer]
    cases timeout.or config.commandTimeout with
    | none => exact ⟨_, rfl, rfl⟩
    | some limit =>
      -- an answer taken for the limit keeps its output
      by_cases hcode : completed.returncode = 124 ∨ completed.returncode = 137
      · exact ⟨_, if_pos hcode, rfl⟩
      · exact ⟨_, if_neg hcode, rfl⟩
  obtain ⟨answer, hexec, hstdout⟩ := hexec
  rw [run_eq_ok hcommand hexec] at h
  cases h
  rw [hstdout]

/-- A call says that its limit killed the command where the sandbox takes the run so. -/
theorem run_of_limit (hcommand : strip command ≠ [])
    (h : run.Performed runtime sandbox config uuid command timeout cwd)
    (hlimited : (timeout.or config.commandTimeout).isSome)
    (hcode : ∀ code, run.code = some code → code = 124 ∨ code = 137) :
    ∃ stderr, Shell.run runtime sandbox config uuid (some command) timeout cwd =
      .ok ({
        text := report
          (readOutput (marker uuid) (Utf8.decode (run.stdout (marker uuid))) cwd).1 stderr (-1)
        status := .timeout },
        (readOutput (marker uuid) (Utf8.decode (run.stdout (marker uuid))) cwd).2) := by
  obtain ⟨stderr, hexec⟩ := exec_of_limit h hlimited hcode
  have hrun := run_eq_ok hcommand hexec
  rw [if_pos rfl] at hrun
  exact ⟨stderr, hrun⟩

theorem run_of_code (hcommand : strip command ≠ [])
    (h : run.Performed runtime sandbox config uuid command timeout cwd)
    {code : Fin 256} (hrun : run.code = some code)
    (hcode : ¬ TakenForLimit (timeout.or config.commandTimeout).isSome code) :
    Shell.run runtime sandbox config uuid (some command) timeout cwd =
      .ok ({
        text := report
          (readOutput (marker uuid) (Utf8.decode (run.stdout (marker uuid))) cwd).1
          (Utf8.decode run.stderr) (code : ℕ)
        status := .ok },
        (readOutput (marker uuid) (Utf8.decode (run.stdout (marker uuid))) cwd).2) := by
  have hnonneg : ((code : ℕ) : ℤ) ≠ -1 := by omega
  rw [run_eq_ok hcommand (exec_of_code h hrun hcode), if_neg hnonneg]

/-- A command that the limit killed. -/
theorem faithful_iff_of_killed (hcommand : strip command ≠ [])
    (h : run.Performed runtime sandbox config uuid command timeout cwd)
    (hmarker : run.Unmarked (marker uuid)) (hkilled : run.ending = .killed) :
    (∃ result cwd', Shell.run runtime sandbox config uuid (some command) timeout cwd =
        .ok (result, cwd') ∧ run.Faithful result cwd') ↔
      run.Legible (timeout.or config.commandTimeout).isSome (marker uuid) cwd := by
  have hcode : run.code = none := by rw [code, hkilled]
  have hread := readable_iff cwd hmarker
  obtain ⟨stderr, hrun⟩ := run_of_limit hcommand h (h.limited hkilled) (by simp [hcode])
  have hkept : (readOutput (marker uuid) (Utf8.decode (run.stdout (marker uuid))) cwd).1 =
      run.kept := by
    rw [readOutput_stdout hmarker (by simp [hkilled])]
  constructor
  · rintro ⟨result, cwd', heq, hfaithful⟩
    rw [hrun] at heq
    cases heq
    exact ⟨by simp [hcode], hread.mp ⟨hkept, hfaithful.directory⟩⟩
  · intro hlegible
    refine ⟨_, _, hrun, ⟨iff_of_true rfl hkilled, by simp [hcode], ?_, ?_⟩⟩
    · rw [← hkept]
      exact prefix_report _ _ _
    · exact (hread.mpr hlegible.readable).2

/-- A command that ends with a code, which is not taken for the limit. -/
theorem faithful_iff_of_code (hcommand : strip command ≠ [])
    (h : run.Performed runtime sandbox config uuid command timeout cwd)
    (hmarker : run.Unmarked (marker uuid)) {code : Fin 256} (hcode : run.code = some code)
    (htaken : ¬ TakenForLimit (timeout.or config.commandTimeout).isSome code) :
    (∃ result cwd', Shell.run runtime sandbox config uuid (some command) timeout cwd =
        .ok (result, cwd') ∧ run.Faithful result cwd') ↔
      run.Legible (timeout.or config.commandTimeout).isSome (marker uuid) cwd := by
  have hkilled : run.ending ≠ .killed := by
    intro hkilled
    simp [ShellRun.code, hkilled] at hcode
  have hread := readable_iff cwd hmarker
  have hrun := run_of_code hcommand h hcode htaken
  constructor
  · rintro ⟨result, cwd', heq, hfaithful⟩
    rw [hrun] at heq
    cases heq
    refine ⟨fun code' hcode' => ?_, hread.mp ⟨?_, hfaithful.directory⟩⟩
    · rw [hcode] at hcode'
      cases hcode'
      exact htaken
    · have htext := hfaithful.text code hcode
      rw [← report_of_code] at htext
      exact report_injective htext
  · intro hlegible
    obtain ⟨hkept, hdirectory⟩ := hread.mpr hlegible.readable
    refine ⟨_, _, hrun, ⟨iff_of_false ToolStatus.noConfusion hkilled, ?_, ?_, hdirectory⟩⟩
    · intro code' hcode'
      rw [hcode] at hcode'
      cases hcode'
      rw [hkept]
      exact report_of_code _ _ _
    · rw [← hkept]
      exact prefix_report _ _ _

/-- **The tool is faithful** to the legible runs, and to no other one. -/
theorem faithful_iff (hcommand : strip command ≠ [])
    (h : run.Performed runtime sandbox config uuid command timeout cwd)
    (hmarker : run.Unmarked (marker uuid)) :
    (∃ result cwd', Shell.run runtime sandbox config uuid (some command) timeout cwd =
        .ok (result, cwd') ∧ run.Faithful result cwd') ↔
      run.Legible (timeout.or config.commandTimeout).isSome (marker uuid) cwd := by
  cases hcode : run.code with
  | none =>
    have hkilled : run.ending = .killed := by
      revert hcode
      rw [code]
      cases run.ending <;> simp
    exact faithful_iff_of_killed hcommand h hmarker hkilled
  | some code =>
    by_cases htaken : TakenForLimit (timeout.or config.commandTimeout).isSome code
    · -- the tool reports a timeout, but the command was not killed
      obtain ⟨stderr, hrun⟩ := run_of_limit hcommand h htaken.1
        (fun code' hcode' => by rw [hcode] at hcode'; cases hcode'; exact htaken.2)
      refine iff_of_false ?_ fun hlegible => hlegible.code code hcode htaken
      rintro ⟨result, cwd', heq, hfaithful⟩
      rw [hrun] at heq
      cases heq
      have hkilled := hfaithful.status.mp rfl
      simp [ShellRun.code, hkilled] at hcode
    · exact faithful_iff_of_code hcommand h hmarker hcode htaken

end Calls

/-! ### Two commands -/

/-- A marker's digits. -/
def zeros : Uuid where
  hex := List.replicate 32 '0'
  isHex := by
    intro c hmem
    rw [List.eq_of_mem_replicate hmem]
    exact .inl (by decide)

/-- A sandbox in which each command performs a given run. -/
def performing (run : ShellRun) : Runtime ℕ where
  seconds timeout := (toString timeout).toList
  grace timeout := timeout + 15
  shellArgv script := ["bash".toList, "-lc".toList, script]
  dockerArgs argv workdir env :=
    ["exec".toList, "-w".toList, workdir] ++
      env.flatMap (fun item => ["-e".toList, item.1 ++ '=' :: item.2]) ++ argv
  dockerBinary := "podman".toList
  subprocess _ _ := .ok (run.completed (marker zeros))

/-- A limit of 30 seconds. -/
def halfMinute : ShellToolConfig ℕ where
  commandTimeout := some 30
  envVars := []

/-- A command that prints nothing and ends in `/tmp`, after its own `timeout` has fired or not. -/
def quiet (code : Fin 256) : ShellRun where
  output := []
  stderr := []
  directory := ⟨Utf8.encode ['/', 't', 'm', 'p'], rfl⟩
  ending := .returned code []

theorem unmarked_quiet (code : Fin 256) : (quiet code).Unmarked (marker zeros) := by
  have hnil : ¬ marker zeros <:+: [] := mt List.eq_nil_of_infix_nil (marker_ne_nil zeros)
  refine ⟨hnil, fun code' late hending => ?_⟩
  cases hending
  exact hnil

theorem performed_quiet (code : Fin 256) (command : Text) :
    (quiet code).Performed (performing (quiet code)) ⟨8192⟩ halfMinute zeros command none
      ['/'] where
  answer := rfl
  limited _ := rfl

/-- A command with an exit code of its own. -/
theorem faithful_cd :
    ∃ result cwd', Shell.run (performing (quiet 3)) ⟨8192⟩ halfMinute zeros
        (some "cd /tmp; (exit 3)".toList) none ['/'] = .ok (result, cwd') ∧
      (quiet 3).Faithful result cwd' ∧ result.text = "Command exited with code 3".toList := by
  have hperformed := performed_quiet 3 "cd /tmp; (exit 3)".toList
  have hlegible : (quiet 3).Legible (halfMinute.commandTimeout.isSome = true) (marker zeros)
      ['/'] := by
    refine ⟨fun code hcode => ?_, ['/', 't', 'm', 'p'], rfl, by decide, fun hwithin => ?_⟩
    · cases hcode
      exact fun htaken => absurd htaken.2 (by decide)
    · exact absurd hwithin.length_le (by decide)
  obtain ⟨result, cwd', hrun, hfaithful⟩ :=
    (faithful_iff (by decide) hperformed (unmarked_quiet 3)).mpr hlegible
  exact ⟨result, cwd', hrun, hfaithful, hfaithful.text 3 rfl⟩

/-- The command's own `timeout` is taken for the limit. -/
theorem not_faithful_ownTimeout :
    ¬ ∃ result cwd', Shell.run (performing (quiet 124)) ⟨8192⟩ halfMinute zeros
        (some "cd /tmp; timeout 5 sleep 9".toList) none ['/'] = .ok (result, cwd') ∧
      (quiet 124).Faithful result cwd' := by
  obtain ⟨stderr, hrun⟩ := run_of_limit (by decide)
    (performed_quiet 124 "cd /tmp; timeout 5 sleep 9".toList) rfl
    (fun code hcode => by cases hcode; exact .inl rfl)
  rintro ⟨result, cwd', heq, hfaithful⟩
  rw [hrun] at heq
  cases heq
  cases hfaithful.status.mp rfl

end ShellRun

end R2eTask.Shell
