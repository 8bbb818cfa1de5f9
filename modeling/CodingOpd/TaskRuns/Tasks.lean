import CodingOpd.DeepSwe.Tasks
import CodingOpd.Python.Json
import CodingOpd.R2eTask.Verdict
import CodingOpd.TaskRuns.Sandbox

/-!
# Task runs

A task starts the agent's sandbox, runs the agent under a timer, and grades what the agent has left:
in the same sandbox, or as a patch in a sandbox of the grader. A failed agent is graded like any
other one. The agent is any coroutine over the methods of its sandbox, and the parts of the test
harnesses that are not in the repository are parameters.

## Main definitions

* `Agent`, `attemptAgent`: an agent, and how a task runs it
* `scoreTestStatuses`, `parseDeepsweReward`: the verdicts
* `runR2e`, `runSweSmith`, `runDeepSwe`, `runSweBench`: the tasks
-/

open Python R2eTask.Shell

namespace TaskRuns

open Async

/-! ## Agents -/

/-- What an agent asks for: the methods of its sandbox, and the host. -/
inductive AgentCall where
  | exec (argv : List Text) (timeout : Option ℚ) (workdir : Text) (env : Environment)
  | execShell (script : Text) (timeout : Option ℚ) (workdir : Text) (env : Environment)
  | writeFile (path content : Text)
  | readFile (path : Text)
  | host (call : HostCall)

def AgentAnswer : AgentCall → Type
  | .exec .. | .execShell .. => ExecResult
  | .writeFile .. => Unit
  | .readFile _ | .host _ => Text

/-- `AgentResult`, without the transcript. -/
structure AgentResult (I : Type) where
  finished : Bool
  info : I

/-- `agent.run(...)` -/
abbrev Agent (I : Type) : Type := Coroutine AgentCall AgentAnswer Raised (AgentResult I)

/-- `agent_info`. The text of an exception is made of its class and message. -/
inductive AgentInfo (I : Type) where
  | reported (info : I)
  | timedOut
  | error (error : PyError)

/-- What a task notes of its agent. -/
structure Attempt (I : Type) where
  finished : Bool
  info : AgentInfo I

/-- What `score_test_statuses` returns. -/
structure TestScore where
  reward : ℚ
  resolved : Bool
  testExitCode : ℤ
  testsPassed : ℕ
  testsExpected : ℕ
  partialScore : ℚ
  /-- the tests that pass, and those that do not -/
  failToPass : List Text × List Text
  passToPass : List Text × List Text

/-- What a task reports besides its reward, by the kind of the task. -/
inductive Detail where
  | r2e (verdict : Option R2eTask.Verdict)
  | sweSmith (score : TestScore) (testCommand testOutputTail : Text)
  | evaluationSkipped
  | deepSwe (evalExitCode : ℤ) (evalOutputTail : Text) (modelPatchBytes : ℕ)
  | emptyPatch (modelPatchBytes : ℕ) (collectionBaseCommit : Option Text)
  | sweBench (resolved : Bool) (evalExitCode : ℤ) (parsedTests modelPatchBytes : ℕ)
    (collectionBaseCommit : Option Text)

/-- `TaskResult` -/
structure TaskResult (I : Type) where
  reward : ℚ
  accuracy : Option ℚ
  finished : Bool
  agent : AgentInfo I
  detail : Detail

section Tasks

variable {I : Type} (runtime : DockerSandbox) (agent : Agent I)

/-- A call of the agent, in its sandbox. -/
def carryOut (config : SandboxConfig) : ∀ call : AgentCall, Async (AgentAnswer call)
  | .exec argv timeout workdir env => exec runtime config .agent argv timeout workdir env
  | .execShell script timeout workdir env =>
    execShell runtime config .agent script timeout workdir env
  | .writeFile path content => writeFile runtime .agent path content
  | .readFile path => readFile runtime .agent path
  | .host call => host call

/-- `asyncio.wait_for`, whose timer cancels what it waits for. -/
def waitFor {α : Type} (p : Async α) : Async α :=
  p.handle fun
    | .cancelledError true => raise .timeoutError
    | error => raise error

/-- The agent runs under its timer. Whatever it raises is noted; a cancellation goes on. -/
def attemptAgent (config : SandboxConfig) : Async (Attempt I) :=
  Coroutine.handle
    (do
      let result ← waitFor (agent.interpret (carryOut runtime config))
      pure ⟨result.finished, .reported result.info⟩)
    fun
    | .timeoutError => pure ⟨false, .timedOut⟩
    | .exception error => pure ⟨false, .error error⟩
    | .cancelledError timer => raise (.cancelledError timer)

/-! ## The tasks -/

/-- `result.stderr or result.stdout` -/
def complaint (result : ExecResult) : Text :=
  if result.stderr ≠ [] then result.stderr else result.stdout

/-- `text[-size:]` -/
def tail (size : ℕ) (text : Text) : Text := text.drop (text.length - size)

/-- What `R2EGymTask` is configured with. -/
structure R2eConfig where
  sandbox : SandboxConfig
  runEvaluation : Bool
  evalTimeout : ℚ
  expectedOutput : List (Text × Text)
  isWord : Char → Bool

/-- The script that moves the hidden tests to their place. -/
def r2eSetup : Text :=
  ("set -eu; if [ -d /r2e_tests ]; then rm -rf /root/r2e_tests; " ++
    "mv /r2e_tests /root/r2e_tests; fi; test -d /root/r2e_tests; " ++
    "ln -sfn /root/r2e_tests /testbed/r2e_tests").toList

/-- `R2EGymTask.run` -/
def runR2e (config : R2eConfig) : Async (TaskResult I) :=
  asyncWith runtime config.sandbox .agent do
    let setup ← execShell runtime config.sandbox .agent r2eSetup (some 60) [] []
    if setup.exitCode ≠ 0 then 
      runtimeError ("failed to prepare R2E tests: ".toList ++ complaint setup)
    else
      let attempt ← attemptAgent runtime agent config.sandbox
      if config.runEvaluation then
        let evaluation ← exec runtime config.sandbox .agent
          ["bash".toList, "./run_tests.sh".toList] (some config.evalTimeout) "/testbed".toList []
        let verdict ← ofPython (R2eTask.scorePytestOutput config.isWord config.expectedOutput
          (evaluation.stdout ++ evaluation.stderr) evaluation.exitCode)
        pure ⟨verdict.reward, some verdict.reward, attempt.finished, attempt.info,
          .r2e (some verdict)⟩
      else pure ⟨0, none, attempt.finished, attempt.info, .r2e none⟩

/-- A character that `shlex.quote` takes for safe. -/
def isSafe (c : Char) : Bool :=
  c.isAlphanum || c ∈ ['_', '@', '%', '+', '=', ':', ',', '.', '/', '-']

/-- `shlex.quote` -/
def shlexQuote (text : Text) : Text :=
  if text = [] then "''".toList
  else if text.all isSafe then text
  else ['\''] ++ (text.flatMap fun c => if c = '\'' then "'\"'\"'".toList else [c]) ++ ['\'']

/-- What `SWESmithTask` is configured with, the lists as `_as_list` reads them. The test command and
the parser of the log are those of the profile that `swesmith` has for the repository, if it is
installed. -/
structure SweSmithConfig where
  sandbox : SandboxConfig
  runEvaluation : Bool
  evalTimeout : ℚ
  instanceId : Text
  failToPass : List Text
  passToPass : List Text
  profile : Except PyError (Text × (Text → Except PyError (Text → Option Text)))

/-- `expected_test_files` -/
def expectedTestFiles (config : SweSmithConfig) : List Text :=
  R2eTask.sorted ((((config.failToPass ++ config.passToPass).filter (· ≠ [])).map fun selector =>
    ((partition [':', ':'] selector).map (·.1)).getD selector).toFinset)

/-- `_INSTANCE_ID` -/
def isInstanceId (text : Text) : Bool :=
  text ≠ [] && text.all fun c => c.isAlphanum || c ∈ ['_', '.', '-']

/-- `_checkout_command` -/
def checkoutCommand (repr : Text → Text) (instanceId : Text) : Except PyError Text :=
  if isInstanceId instanceId then
    .ok ("set -eu; git checkout --force ".toList ++ shlexQuote instanceId ++
      ("; git rev-parse HEAD > /tmp/coding-opd-swesmith-agent-base; " ++
        "git rev-parse HEAD~1 > /tmp/coding-opd-swesmith-bug-base").toList)
  else .error (.valueError ("unsafe SWE-smith instance_id: " ++ String.ofList (repr instanceId)))

/-- `_prepare_evaluation_command` -/
def prepareEvaluationCommand (config : SweSmithConfig) : Text :=
  let restore := join [' '] ((expectedTestFiles config).map shlexQuote)
  ("set -eu; agent_base=$(cat /tmp/coding-opd-swesmith-agent-base); " ++
    "bug_base=$(cat /tmp/coding-opd-swesmith-bug-base); git add -A; " ++
    "git -c core.fileMode=false diff --cached --binary \"$agent_base\" > " ++
    "/tmp/coding-opd-swesmith-agent.patch; git reset --hard \"$bug_base\"; git clean -fd; " ++
    "if test -s /tmp/coding-opd-swesmith-agent.patch; then " ++
    "git apply --whitespace=nowarn /tmp/coding-opd-swesmith-agent.patch; fi; ").toList ++
  (if restore = [] then [] else "git checkout HEAD -- ".toList ++ restore ++ "; ".toList) ++
  "git status --short".toList

/-- A test that `statuses` has with a status of `_PASSING_STATUSES`. -/
def passes (statuses : Text → Option Text) (test : Text) : Bool :=
  statuses test = some "PASSED".toList || statuses test = some "XFAIL".toList

/-- `score_test_statuses` -/
def scoreTestStatuses (config : SweSmithConfig) (statuses : Text → Option Text) (exitCode : ℤ) :
    TestScore :=
  let f2p := config.failToPass.partition (passes statuses)
  let p2p := config.passToPass.partition (passes statuses)
  let expectedCount := config.failToPass.length + config.passToPass.length
  let passedCount := f2p.1.length + p2p.1.length
  let resolved := config.failToPass ≠ [] && f2p.2 = [] && p2p.2 = []
  { reward := if resolved then 1 else 0
    resolved
    testExitCode := exitCode
    testsPassed := passedCount
    testsExpected := expectedCount
    partialScore := if expectedCount = 0 then 0 else passedCount / expectedCount
    failToPass := f2p
    passToPass := p2p }

/-- `SWESmithTask.run` -/
def runSweSmith (config : SweSmithConfig) : Async (TaskResult I) :=
  asyncWith runtime config.sandbox .agent do
    let checkout ← ofPython (checkoutCommand runtime.repr config.instanceId)
    let setup ← execShell runtime config.sandbox .agent checkout (some 120) "/testbed".toList []
    if setup.exitCode ≠ 0 then
      runtimeError ("failed to initialize SWE-smith task ".toList ++ config.instanceId ++
        [':', ' '] ++ complaint setup)
    else
      let attempt ← attemptAgent runtime agent config.sandbox
      if config.runEvaluation then
        let prepare ← execShell runtime config.sandbox .agent (prepareEvaluationCommand config)
          (some 120) "/testbed".toList []
        if prepare.exitCode ≠ 0 then
          runtimeError ("failed to prepare SWE-smith evaluation: ".toList ++ complaint prepare)
        else
          let (testCommand, logParser) ← ofPython config.profile
          let evaluation ← execShell runtime config.sandbox .agent testCommand
            (some config.evalTimeout) "/testbed".toList []
          let output := evaluation.stdout ++ evaluation.stderr
          let statuses ← ofPython (logParser output)
          let score := scoreTestStatuses config statuses evaluation.exitCode
          pure ⟨score.reward, some score.reward, attempt.finished, attempt.info,
            .sweSmith score testCommand (tail 12000 output)⟩
      else pure ⟨0, some 0, attempt.finished, attempt.info, .evaluationSkipped⟩

/-- What `DeepSWETask` is configured with; `toFloat` is `float`, and `formatFloat` its format. -/
structure DeepSweConfig where
  sandbox : SandboxConfig
  evalTimeout : ℚ
  taskId : Text
  baseCommit : Text
  verifierImage : Text
  toFloat : Json → Except PyError ℚ
  formatFloat : ℚ → Text

/-- `parse_deepswe_reward`, without the other fields of the payload. -/
def parseDeepsweReward (toFloat : Json → Except PyError ℚ) (formatFloat : ℚ → Text)
    (payload : Text) : Except PyError ℚ :=
  match Json.loads payload with
  | none => .error (.valueError "JSONDecodeError")
  | some (.object pairs) =>
    match pairs.reverse.lookup ("reward".toList.map Char.toNat) with
    | none => .error (.valueError "DeepSWE reward.json must contain a reward field")
    | some value => do
      let reward ← toFloat value
      if reward = 0 ∨ reward = 1 then .ok reward
      else
        .error (.valueError
          ("DeepSWE binary reward must be 0 or 1, got " ++ String.ofList (formatFloat reward)))
  | some _ => .error (.valueError "DeepSWE reward.json must contain a reward field")

/-- The part of `DeepSWETask.run` in the agent's sandbox. -/
def collectDeepSwe (config : DeepSweConfig) : Async (Attempt I × Text) :=
  asyncWith runtime config.sandbox .agent do
    let attempt ← attemptAgent runtime agent config.sandbox
    let collected ← execShell runtime config.sandbox .agent
      ("set -eu; git config --global --add safe.directory /app; git diff --binary ".toList ++
        config.baseCommit ++ " HEAD".toList) (some 300) "/app".toList []
    if collected.exitCode ≠ 0 then
      runtimeError ("failed to collect DeepSWE patch for ".toList ++ config.taskId ++ [':', ' '] ++
        complaint collected)
    else pure (attempt, collected.stdout)

/-- The part of `DeepSWETask.run` in the verifier's sandbox. -/
def verifyDeepSwe (config : DeepSweConfig) (patch : Text) : Async (ℚ × ExecResult) :=
  let verifierConfig := { config.sandbox with
    image := config.verifierImage, runtimeTimeout := config.evalTimeout + 300 }
  asyncWith runtime verifierConfig .verifier do
    writeFile runtime .verifier "/logs/artifacts/model.patch".toList patch
    let evaluation ← exec runtime verifierConfig .verifier ["bash".toList, "/tests/test.sh".toList]
      (some config.evalTimeout) "/app".toList []
    let reward ← Coroutine.handle
      (do
        let payload ← readFile runtime .verifier "/logs/verifier/reward.json".toList
        ofPython (parseDeepsweReward config.toFloat config.formatFloat payload))
      fun
      | .cancelledError timer => raise (.cancelledError timer)
      | .timeoutError | .exception _ =>
        runtimeError ("DeepSWE verifier produced no valid reward.json for ".toList ++
          config.taskId ++ "; exit=".toList ++ (toString evaluation.exitCode).toList ++
          ", output=".toList ++ tail 4000 (evaluation.stdout ++ evaluation.stderr))
    pure (reward, evaluation)

/-- `DeepSWETask.run` -/
def runDeepSwe (config : DeepSweConfig) : Async (TaskResult I) :=
  if config.taskId = [] ∨ ¬ DeepSwe.isCommit config.baseCommit ∨ config.verifierImage = [] then
    let name := if config.taskId = [] then "<unknown>".toList else config.taskId
    raise (.exception (.valueError ("invalid DeepSWE runtime metadata for " ++ String.ofList name)))
  else do
    let (attempt, patch) ← collectDeepSwe runtime agent config
    let (reward, evaluation) ← verifyDeepSwe runtime config patch
    pure ⟨reward, some reward, attempt.finished, attempt.info,
      .deepSwe evaluation.exitCode (tail 12000 (evaluation.stdout ++ evaluation.stderr))
        (Utf8.encode patch).length⟩

/-- What `SWEBenchTask` is configured with. The evaluation script, the grading and the texts of the
artifacts are those of the harness. -/
structure SweBenchConfig (I : Type) where
  sandbox : SandboxConfig
  evalTimeout : ℚ
  artifacts : Text
  instanceId : Text
  /-- The path of a saved prediction, with what is read of its text: the task and the patch. -/
  predictionPath : Option (Text × (Text → Except PyError (Text × Text)))
  /-- `{"prediction_path": cfg.prediction_path}` -/
  predictionInfo : I
  verifierRunArgs : List Text
  evalScript : Text
  prediction : Text → Text
  /-- the report of an empty patch, by the agent's information and the commit of the image -/
  emptyReport : AgentInfo I → Option Text → Text
  /-- `get_logs_eval` and `get_eval_report`: the parsed tests, whether the output is complete, the
  report and whether it says that the task is resolved -/
  grade : Text → Text → Except PyError (ℕ × Bool × Text × Bool)

/-- `f"{message}; artifacts={artifacts}"` -/
def SweBenchConfig.failure (config : SweBenchConfig I) (message : String) : Text :=
  message.toList ++ "; artifacts=".toList ++ config.artifacts

/-- A full commit, as `collect_patch_command` wants it. -/
def isFullCommit (text : Text) : Bool :=
  text.length = 40 && text.all fun c => ('0' ≤ c && c ≤ '9') || ('a' ≤ c && c ≤ 'f')

/-- `collect_patch_command` -/
def collectPatchCommand (baseCommit : Text) : Except PyError Text :=
  if isFullCommit baseCommit then
    .ok (("set -eu; git config --global --add safe.directory /testbed; git add -A; " ++
      "git -c core.fileMode=false diff --binary --cached ").toList ++ baseCommit)
  else .error (.valueError "invalid SWE-bench base commit")

/-- The part of `SWEBenchTask.run` in the agent's sandbox. -/
def collectSweBench (config : SweBenchConfig I) : Async (Attempt I × Text × Option Text) :=
  asyncWith runtime config.sandbox .agent do
    let initial ← execShell runtime config.sandbox .agent "git rev-parse HEAD".toList (some 30)
      "/testbed".toList []
    if initial.exitCode ≠ 0 then
      runtimeError "cannot identify canonical image checkout HEAD".toList
    else
      let imageHead := strip initial.stdout
      let command ← ofPython (collectPatchCommand imageHead)
      let attempt ← attemptAgent runtime agent config.sandbox
      let collected ← execShell runtime config.sandbox .agent command (some 300)
        "/testbed".toList []
      if collected.exitCode ≠ 0 then
        runtimeError ("patch collection failed: ".toList ++ collected.stderr)
      else pure (attempt, collected.stdout, some imageHead)

/-- The patch of a saved prediction. -/
def readPrediction (config : SweBenchConfig I) (path : Text)
    (read : Text → Except PyError (Text × Text)) : Async Text := do
  let saved ← host (.readText path)
  let (instanceId, patch) ← ofPython (read saved)
  if instanceId ≠ config.instanceId then
    raise (.exception (.valueError "saved prediction task does not match"))
  else pure patch

/-- The commands that a patch is applied with, in their order. -/
def applyCommands : List Text :=
  ["git apply --verbose".toList, "git apply --verbose --reject".toList,
    "patch --batch --fuzz=5 -p1 -i".toList]

/-- The loop over the commands: whether one of them has applied the patch, and the logs. -/
def applyPatch (verifierConfig : SandboxConfig) : List Text → List Text → Async (Bool × List Text)
  | [], logs => pure (false, logs)
  | command :: commands, logs => do
    let response ← execShell runtime verifierConfig .verifier (command ++ " /tmp/patch.diff".toList)
      (some 300) "/testbed".toList []
    let logs := logs ++ [response.stdout ++ response.stderr]
    if response.exitCode = 0 then pure (true, logs)
    else applyPatch verifierConfig commands logs

/-- A file of the artifacts. -/
def writeArtifact (config : SweBenchConfig I) (name : String) (content : Text) : Async Unit := do
  let _ ← host (.writeText (config.artifacts ++ '/' :: name.toList) content)
  pure ()

/-- The part of `SWEBenchTask.run` in the grader's sandbox. -/
def verifySweBench (config : SweBenchConfig I) (patch : Text) : Async (Bool × ℤ × ℕ) :=
  let verifierConfig := { config.sandbox with
    runArgs := config.verifierRunArgs, runtimeTimeout := config.evalTimeout + 300 }
  asyncWith runtime verifierConfig .verifier do
    writeFile runtime .verifier "/tmp/patch.diff".toList patch
    let (applied, logs) ← applyPatch runtime verifierConfig applyCommands []
    writeArtifact config "patch_apply.log" (join ['\n'] logs)
    if ¬ applied then runtimeError (config.failure "SWE-bench patch application failed") else
      writeFile runtime .verifier "/eval.sh".toList config.evalScript
      let response ← execShell runtime verifierConfig .verifier
        "bash /eval.sh > /tmp/test_output.txt 2>&1".toList (some config.evalTimeout)
        "/testbed".toList []
      let output ← readFile runtime .verifier "/tmp/test_output.txt".toList
      writeArtifact config "test_output.txt" output
      if response.exitCode = -1 then runtimeError (config.failure "SWE-bench verifier timed out")
      else
        let (parsedTests, found, report, resolved) ← ofPython (config.grade patch output)
        writeArtifact config "report.json" report
        if ¬ found then
          runtimeError (config.failure "SWE-bench produced no complete test output")
        else pure (resolved, response.exitCode, parsedTests)

/-- What `SWEBenchTask.run` starts with: a saved prediction, or an agent's attempt. -/
def predictSweBench (config : SweBenchConfig I) : Async (Attempt I × Text × Option Text) :=
  match config.predictionPath with
  | none => collectSweBench runtime agent config
  | some (path, read) => do
    let patch ← readPrediction config path read
    pure (⟨false, .reported config.predictionInfo⟩, patch, none)

/-- `SWEBenchTask.run` -/
def runSweBench (config : SweBenchConfig I) : Async (TaskResult I) := do
  let _ ← host (.makeDirs config.artifacts)
  let (attempt, patch, imageHead) ← predictSweBench runtime agent config
  writeArtifact config "prediction.json" (config.prediction patch)
  writeArtifact config "patch.diff" patch
  writeArtifact config "eval.sh" config.evalScript
  let modelPatchBytes := (Utf8.encode patch).length
  if strip patch = [] then do
    writeArtifact config "report.json" (config.emptyReport attempt.info imageHead)
    pure ⟨0, some 0, attempt.finished, attempt.info, .emptyPatch modelPatchBytes imageHead⟩
  else do
    let (resolved, exitCode, parsedTests) ← verifySweBench runtime config patch
    let score : ℚ := if resolved then 1 else 0
    pure ⟨score, some score, attempt.finished, attempt.info,
      .sweBench resolved exitCode parsedTests modelPatchBytes imageHead⟩

end Tasks

end TaskRuns
