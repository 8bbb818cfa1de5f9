import Mathlib.Algebra.Order.BigOperators.Group.List
import Mathlib.Algebra.BigOperators.Ring.Finset
import Mathlib.Tactic.NormNum
import Mathlib.Tactic.Positivity
import CodingOpd.CodexEval.Records
import CodingOpd.ExternalEval.Result
import CodingOpd.Python.Collections

/-!
# The summary of a full evaluation

`build_external_eval_summary` checks a full result against the runtime manifest, counts its scores
anew from the records, and derives the metrics of the quick panel from the panel's records. It
reads the results of both evaluations: those of `_write_result`, and those of the Codex evaluation.

## Main definitions

* `Reported`, `RuntimeManifest`: what is read of a result and of the runtime manifest
* `summarizeRecords`, `buildExternalEvalSummary`: `_summarize_records` and
  `build_external_eval_summary`
* `Metrics.Of`: metrics that repeat a result file
* `ScoresRecords`: the session scores that the Codex records stand for

## Main results

* `summarizeRecords_eq_ok`, `buildExternalEvalSummary_eq_ok`: when the checks pass
* `reported_resultPayload`: a complete Codex payload is read as the result of its session scores
* `summary_of_writers`: what both writers leave is accepted, with their own numbers
-/

open Python

namespace ExternalEval

/-- What the summary reads of a task's record. -/
structure ReportedTask (K : Type) where
  taskId : String
  score : K
  scoredSessions : Option ℤ
  status : Option String
deriving DecidableEq

/-- What a result says about its run, which the summary passes on. -/
structure About (K : Type) where
  benchmark : Option String
  modelPath : Option String
  servedModelName : Option String
  resultPath : Option String
  wallSeconds : Option K

/-- What the summary reads of a result. Its mean score can be missing, or null. -/
structure Reported (K : Type) where
  split : Option String
  n : Option ℤ
  numTasks : Option ℤ
  meanScore : Option (Option K)
  tasks : List (ReportedTask K)
  about : About K

/-- A split of the runtime manifest. -/
structure Split where
  count : ℤ
  taskIds : List String
  taskIdSha256 : String

/-- What the summary reads of the runtime manifest. -/
structure RuntimeManifest where
  benchmark : Option String
  full : Option Split
  quick : Option Split

/-- The metrics of a list of records. -/
structure Metrics (K : Type) where
  numTasks : ℤ
  taskIdSha256 : String
  meanScore : K
  scorePercent : K
  scoreSum : K
  expectedSessions : ℤ
  scoredSessions : ℤ
  missingSessions : ℤ
  statusCounts : Dict ℤ
deriving DecidableEq

/-- The summary of a result. -/
structure Summary (K : Type) where
  benchmark : Option String
  modelPath : Option String
  servedModelName : Option String
  sourceResult : Option String
  n : ℤ
  wallSeconds : K
  full : Metrics K
  quick : Metrics K
  quickTasks : List (ReportedTask K)

section

variable (sha256 : String → String)

/-- `id_sha256`, over the hash of a text. -/
def idSha256 (taskIds : List String) : String :=
  sha256 (String.join (taskIds.map (· ++ "\n")))

/-- `describe_eval_rows`, of the IDs of the rows. -/
def describeEvalRows (taskIds : List String) : Split where
  count := taskIds.length
  taskIds
  taskIdSha256 := idSha256 sha256 taskIds

/-- The runtime manifest of a dataset and its quick panel. -/
def runtimeManifest (benchmark : Option String) (fullIds quickIds : List String) :
    RuntimeManifest where
  benchmark
  full := some (describeEvalRows sha256 fullIds)
  quick := some (describeEvalRows sha256 quickIds)

variable {K : Type} [Field K] [LinearOrder K] [IsStrictOrderedRing K]

/-- `_task_ids`. -/
def taskIdsOf (records : List (ReportedTask K)) (label : String) : Except PyError (List String) :=
  let taskIds := records.map (·.taskId)
  if ¬ taskIds.Nodup then .error (.valueError (label ++ " has duplicate task IDs"))
  else .ok taskIds

/-- `sum(int(record.get("scored_sessions", 0)) for record in records)`. -/
def scoredSessionsOf (records : List (ReportedTask K)) : ℤ :=
  (records.map (·.scoredSessions.getD 0)).sum

/-- The mean score of some records. -/
def meanOf (records : List (ReportedTask K)) : K :=
  if records ≠ [] then (records.map (·.score)).sum / records.length else 0

/-- What `_summarize_records` returns. -/
def metrics (records : List (ReportedTask K)) (n : ℤ) : Metrics K :=
  let scoreSum := (records.map (·.score)).sum
  { numTasks := records.length
    taskIdSha256 := idSha256 sha256 (records.map (·.taskId))
    meanScore := meanOf records
    scorePercent := if records ≠ [] then 100 * scoreSum / records.length else 0
    scoreSum
    expectedSessions := records.length * n
    scoredSessions := scoredSessionsOf records
    missingSessions := records.length * n - scoredSessionsOf records
    statusCounts :=
      (groupSizes (groupBy id (records.map fun record => record.status.getD "missing"))).sortItems }

/-- `_summarize_records`. -/
def summarizeRecords (records : List (ReportedTask K)) (n : ℤ) : Except PyError (Metrics K) := do
  raiseUnless (1 ≤ n) (.valueError "evaluation n must be positive")
  let _ ← taskIdsOf records "evaluation records"
  raiseUnless (∀ record ∈ records, ¬ (record.score < 0 ∨ 1 < record.score))
    (.valueError "evaluation task scores must be in [0, 1]")
  raiseUnless (¬ (scoredSessionsOf records < 0 ∨ records.length * n < scoredSessionsOf records))
    (.valueError "scored session count is outside the expected range")
  return metrics sha256 records n

/-- `by_id` of `build_external_eval_summary`. -/
def recordById (records : List (ReportedTask K)) (taskId : String) : Option (ReportedTask K) :=
  records.reverse.find? (·.taskId = taskId)

/-- `float(result.get("mean_score", -1.0))`. -/
def reportedMean (result : Reported K) : Except PyError K :=
  match result.meanScore with
  | none => .ok (-1)
  | some none => .error (.typeError "float() argument must be a string or a real number")
  | some (some mean) => .ok mean

/-- `build_external_eval_summary`. -/
def buildExternalEvalSummary (result : Reported K) (manifest : RuntimeManifest) :
    Except PyError (Summary K) := do
  raiseUnless (result.split = some "full")
    (.valueError "subset derivation requires a full evaluation result")
  let (some full, some quick) := (manifest.full, manifest.quick)
    | throw (.valueError "runtime manifest must contain full and quick splits")
  let records := result.tasks
  let fullIds ← taskIdsOf records "full result"
  raiseUnless (fullIds.length = full.count)
    (.valueError "full result has another number of tasks than expected")
  raiseUnless (idSha256 sha256 fullIds = full.taskIdSha256)
    (.valueError "full result task order/hash does not match runtime manifest")
  raiseUnless (result.numTasks.getD (-1) = records.length)
    (.valueError "result num_tasks does not match task records")
  raiseUnless (quick.taskIds.length = quick.count)
    (.valueError "quick manifest count does not match its task IDs")
  raiseUnless (idSha256 sha256 quick.taskIds = quick.taskIdSha256)
    (.valueError "quick manifest task order/hash is invalid")
  raiseUnless (∀ taskId ∈ quick.taskIds, (recordById records taskId).isSome)
    (.valueError "full result is missing quick tasks")
  let quickRecords := quick.taskIds.filterMap (recordById records)
  let n := result.n.getD 0
  let fullSummary ← summarizeRecords sha256 records n
  let quickSummary ← summarizeRecords sha256 quickRecords n
  let mean ← reportedMean result
  raiseUnless (¬ 1 / 10 ^ 12 < |mean - fullSummary.meanScore|)
    (.valueError "reported full mean_score does not match task records")
  return {
    benchmark := manifest.benchmark <|> result.about.benchmark
    modelPath := result.about.modelPath
    servedModelName := result.about.servedModelName
    sourceResult := result.about.resultPath
    n
    wallSeconds := result.about.wallSeconds.getD 0
    full := fullSummary
    quick := quickSummary
    quickTasks := quickRecords }

/-! ## When the checks pass -/

variable {sha256} {records : List (ReportedTask K)}

omit [Field K] [LinearOrder K] [IsStrictOrderedRing K] in
theorem taskIdsOf_eq_ok {label : String} (h : (records.map (·.taskId)).Nodup) :
    taskIdsOf records label = .ok (records.map (·.taskId)) :=
  if_neg (not_not.mpr h)

omit [IsStrictOrderedRing K] in
/-- **Records are summarized** when their IDs are distinct, their scores between zero and one, and
each has at most `n` scored sessions. -/
theorem summarizeRecords_eq_ok {n : ℤ} (hn : 1 ≤ n) (hnodup : (records.map (·.taskId)).Nodup)
    (hscore : ∀ record ∈ records, 0 ≤ record.score ∧ record.score ≤ 1)
    (hsessions : ∀ record ∈ records, 0 ≤ record.scoredSessions.getD 0 ∧
      record.scoredSessions.getD 0 ≤ n) :
    summarizeRecords sha256 records n = .ok (metrics sha256 records n) := by
  have hrange : ∀ record ∈ records, ¬ (record.score < 0 ∨ 1 < record.score) := by
    intro record hmem
    rw [not_or, not_lt, not_lt]
    exact hscore record hmem
  have hcount : 0 ≤ scoredSessionsOf records ∧ scoredSessionsOf records ≤ records.length * n := by
    constructor
    · apply List.sum_nonneg
      intro count hcount
      obtain ⟨record, hmem, rfl⟩ := List.mem_map.mp hcount
      exact (hsessions record hmem).1
    · have hle := List.sum_le_card_nsmul (records.map (·.scoredSessions.getD 0)) n (by
        intro count hcount
        obtain ⟨record, hmem, rfl⟩ := List.mem_map.mp hcount
        exact (hsessions record hmem).2)
      rwa [List.length_map, nsmul_eq_mul] at hle
  unfold summarizeRecords
  rw [raiseUnless_bind_eq_ok, taskIdsOf_eq_ok hnodup, ok_bind, raiseUnless_bind_eq_ok,
    raiseUnless_bind_eq_ok]
  refine ⟨hn, hrange, ?_, rfl⟩
  rw [not_or, not_lt, not_lt]
  exact hcount

omit [Field K] [LinearOrder K] [IsStrictOrderedRing K] in
/-- The quick records are those of the panel, in the panel's order. -/
theorem taskIds_quickRecords {quickIds : List String}
    (hsub : quickIds ⊆ records.map (·.taskId)) :
    (quickIds.filterMap (recordById records)).map (·.taskId) = quickIds := by
  induction quickIds with
  | nil => rfl
  | cons taskId quickIds ih =>
    obtain ⟨record, hrecord⟩ : ∃ record, recordById records taskId = some record :=
      Option.isSome_iff_exists.mp (isSome_find?_reverse (hsub List.mem_cons_self))
    rw [List.filterMap_cons_some hrecord, List.map_cons, (of_find?_reverse hrecord).2,
      ih (List.cons_subset.mp hsub).2]

/-- A result fit for the summary: a full one of `n` sessions a task, whose records are in order. -/
structure Reported.Fit (result : Reported K) (n : ℕ) : Prop where
  split : result.split = some "full"
  n_eq : result.n = some (n : ℤ)
  n_pos : 0 < n
  numTasks : result.numTasks = some (result.tasks.length : ℤ)
  nodup : (result.tasks.map (·.taskId)).Nodup
  score : ∀ record ∈ result.tasks, 0 ≤ record.score ∧ record.score ≤ 1
  sessions : ∀ record ∈ result.tasks, 0 ≤ record.scoredSessions.getD 0 ∧
    record.scoredSessions.getD 0 ≤ n
  meanScore : result.meanScore = some (some (meanOf result.tasks))

/-- **A fit result is accepted**, with the metrics of its records and of the panel's. -/
theorem buildExternalEvalSummary_eq_ok {result : Reported K} {n : ℕ} {benchmark : Option String}
    {quickIds : List String} (hfit : result.Fit n) (hquick : quickIds.Nodup)
    (hsub : quickIds ⊆ result.tasks.map (·.taskId)) :
    buildExternalEvalSummary sha256 result
        (runtimeManifest sha256 benchmark (result.tasks.map (·.taskId)) quickIds) =
      .ok
        { benchmark := benchmark <|> result.about.benchmark
          modelPath := result.about.modelPath
          servedModelName := result.about.servedModelName
          sourceResult := result.about.resultPath
          n
          wallSeconds := result.about.wallSeconds.getD 0
          full := metrics sha256 result.tasks n
          quick := metrics sha256 (quickIds.filterMap (recordById result.tasks)) n
          quickTasks := quickIds.filterMap (recordById result.tasks) } := by
  have hn : (1 : ℤ) ≤ n := by exact_mod_cast hfit.n_pos
  -- the panel's records are among the full ones, so they pass the same checks
  have hpanel : ∀ record ∈ quickIds.filterMap (recordById result.tasks), record ∈ result.tasks := by
    intro record hmem
    obtain ⟨taskId, -, hrecord⟩ := List.mem_filterMap.mp hmem
    exact (of_find?_reverse hrecord).1
  have hquickIds := taskIds_quickRecords hsub
  unfold buildExternalEvalSummary
  rw [raiseUnless_bind_eq_ok]
  refine ⟨hfit.split, ?_⟩
  show (taskIdsOf result.tasks _ >>= _) = _
  rw [taskIdsOf_eq_ok hfit.nodup, ok_bind]
  rw [raiseUnless_bind_eq_ok, raiseUnless_bind_eq_ok, raiseUnless_bind_eq_ok,
    raiseUnless_bind_eq_ok, raiseUnless_bind_eq_ok, raiseUnless_bind_eq_ok]
  refine ⟨rfl, rfl, by rw [hfit.numTasks, Option.getD_some], rfl, rfl,
    fun taskId hmem => isSome_find?_reverse (hsub hmem), ?_⟩
  show (summarizeRecords sha256 result.tasks (result.n.getD 0) >>= _) = _
  rw [hfit.n_eq, Option.getD_some, summarizeRecords_eq_ok hn hfit.nodup hfit.score hfit.sessions,
    ok_bind]
  show (summarizeRecords sha256 (quickIds.filterMap (recordById result.tasks)) n >>= _) = _
  rw [summarizeRecords_eq_ok hn (by rwa [hquickIds])
    (fun record hmem => hfit.score record (hpanel record hmem))
    fun record hmem => hfit.sessions record (hpanel record hmem), ok_bind, reportedMean,
    hfit.meanScore]
  refine raiseUnless_bind_eq_ok.mpr ⟨?_, rfl⟩
  show ¬ 1 / 10 ^ 12 < |meanOf result.tasks - meanOf result.tasks|
  rw [sub_self, abs_zero, not_lt]
  positivity

end

/-! ## The writers' files -/

section Writers

variable {K α : Type} [Field K]

/-- A record of `_write_result`, as the summary reads it. -/
def TaskRecord.reported (record : TaskRecord K) : ReportedTask K where
  taskId := record.taskId
  score := record.score
  scoredSessions := some record.scoredSessions
  status := some record.status

/-- The samples of the quick panel, the first stage of `_evaluate`. -/
def quickPanel (samples : List (Sample α)) (quickIds : List String) : List (Sample α) :=
  quickIds.filterMap (byId samples)

/-- A file of `_write_result`, as the summary reads it. -/
def Result.reported (result : Result K) (about : About K) : Reported K where
  split := some result.split
  n := some result.n
  numTasks := some result.numTasks
  meanScore := some (some result.meanScore)
  tasks := result.tasks.map (·.reported)
  about

/-- Metrics that repeat a result file. -/
structure Metrics.Of (sha256 : String → String) (metrics : Metrics K) (result : Result K) :
    Prop where
  numTasks : metrics.numTasks = result.numTasks
  taskIdSha256 : metrics.taskIdSha256 = idSha256 sha256 (result.tasks.map (·.taskId))
  meanScore : metrics.meanScore = result.meanScore
  scorePercent : metrics.scorePercent = 100 * result.meanScore
  scoreSum : metrics.scoreSum = (result.tasks.map (·.score)).sum
  expectedSessions : metrics.expectedSessions = result.expectedSessions
  scoredSessions : metrics.scoredSessions = result.scoredSessions
  missingSessions : metrics.missingSessions =
    (result.expectedSessions : ℤ) - (result.scoredSessions : ℤ)
  statusCounts : metrics.statusCounts =
    (groupSizes (groupBy id (result.tasks.map (·.status)))).sortItems

variable {sha256 : String → String} {settings : Settings} {split : String}
  {samples : List (Sample α)} {uidById : String → String} {scores : Scores K} {statuses : Statuses}

omit [Field K] in
theorem sum_scoredSessions_reported (records : List (TaskRecord K)) :
    scoredSessionsOf (records.map (·.reported)) =
      ((records.map (·.scoredSessions)).sum : ℕ) := by
  rw [scoredSessionsOf, List.map_map, Nat.cast_list_sum, List.map_map]
  rfl

/-- The mean over the records is the one that `_write_result` takes over all sessions. -/
theorem meanOf_writeResult :
    meanOf ((writeResult settings split samples uidById scores statuses).tasks.map (·.reported)) =
      (writeResult settings split samples uidById scores statuses).meanScore := by
  set result := writeResult settings split samples uidById scores statuses with hresult
  have hscored : Scored result := writeResult_scored _ _ _ _ _ _
  have hlength : result.tasks.length = result.numTasks := List.length_map _
  have hmean : ((result.tasks.map (·.reported)).map (·.score)).sum /
      ((result.tasks.map (·.reported)).length : K) = result.meanScore := by
    rw [hscored.meanScore, ← sum_score_div hscored.record, List.map_map, List.length_map, hlength]
    rfl
  unfold meanOf
  split_ifs with hempty
  · exact hmean
  · rw [← hmean, not_not.mp hempty]
    simp

/-- **The metrics of what `_write_result` leaves repeat its totals.** -/
theorem metrics_writeResult :
    (metrics sha256 ((writeResult settings split samples uidById scores statuses).tasks.map
      (·.reported)) settings.n).Of sha256
        (writeResult settings split samples uidById scores statuses) := by
  set result := writeResult settings split samples uidById scores statuses with hresult
  have hids : (result.tasks.map (·.reported)).map (·.taskId) = result.tasks.map (·.taskId) := by
    rw [List.map_map]
    rfl
  have hscores : (result.tasks.map (·.reported)).map (·.score) = result.tasks.map (·.score) := by
    rw [List.map_map]
    rfl
  have hlength : ((result.tasks.map (·.reported)).length : ℤ) = result.numTasks := by
    rw [List.length_map, hresult]
    exact congrArg _ (List.length_map _)
  have hexpected : ((result.tasks.map (·.reported)).length : ℤ) * settings.n =
      result.expectedSessions := by
    rw [hlength]
    exact (Nat.cast_mul _ _).symm
  have hmean : meanOf (result.tasks.map (·.reported)) = result.meanScore := meanOf_writeResult
  constructor
  · exact hlength
  · rw [metrics, hids]
  · exact hmean
  · rw [← hmean, meanOf, metrics]
    split_ifs
    · rw [mul_div_assoc]
    · rw [mul_zero]
  · rw [metrics, hscores]
  · exact hexpected
  · exact sum_scoredSessions_reported _
  · show (_ : ℤ) * _ - _ = _
    rw [hexpected, sum_scoredSessions_reported]
    rfl
  · show Dict.sortItems (groupSizes (groupBy id ((result.tasks.map (·.reported)).map
      fun record => record.status.getD "missing"))) = _
    rw [List.map_map]
    rfl

/-- The records of the quick panel are those that `_write_result` writes for the panel. -/
theorem quickRecords_writeResult {quickIds : List String} :
    quickIds.filterMap (recordById
        ((writeResult settings split samples uidById scores statuses).tasks.map (·.reported))) =
      (writeResult settings "quick" (quickPanel samples quickIds) uidById scores statuses).tasks.map
        (·.reported) := by
  have hrecord : ∀ taskId, recordById
      ((writeResult settings split samples uidById scores statuses).tasks.map (·.reported)) taskId =
        (byId samples taskId).map fun sample =>
          (taskRecord settings.n uidById scores statuses sample).reported := by
    intro taskId
    show List.find? _ ((samples.map _).map _).reverse = _
    rw [List.map_map, ← List.map_reverse, List.find?_map]
    rfl
  show _ = ((quickPanel samples quickIds).map _).map _
  rw [List.map_map, quickPanel, List.map_filterMap]
  exact List.filterMap_congr fun taskId _ => hrecord taskId

variable [LinearOrder K] [IsStrictOrderedRing K]

omit [LinearOrder K] [IsStrictOrderedRing K] in
/-- The mean score, from the session scores of the samples. -/
theorem meanScore_writeResult :
    (writeResult settings split samples uidById scores statuses).meanScore =
      (samples.map fun sample => (scoresOf settings.n scores (uidById sample.taskId)).sum).sum /
        (settings.n * samples.length) := by
  rw [(writeResult_scored settings split samples uidById scores statuses).meanScore]
  show ((samples.map _).map _).sum / _ = _
  rw [List.map_map]
  rfl

/-- The session scores that count are between zero and one. -/
def UnitScores (n : ℕ) (samples : List (Sample α)) (uidById : String → String)
    (scores : Scores K) : Prop :=
  ∀ sample ∈ samples, ∀ score ∈ scoresOf n scores (uidById sample.taskId), 0 ≤ score ∧ score ≤ 1

/-- The mean of session scores between zero and one is between them. -/
theorem taskRecord_score_mem (h : UnitScores settings.n samples uidById scores) {sample : Sample α}
    (hmem : sample ∈ samples) :
    0 ≤ (taskRecord settings.n uidById scores statuses sample).score ∧
      (taskRecord settings.n uidById scores statuses sample).score ≤ 1 := by
  set sessions := scoresOf settings.n scores (uidById sample.taskId) with hsessions
  have hn : (0 : K) < settings.n := Nat.cast_pos.mpr settings.n_pos
  have hscore : (taskRecord settings.n uidById scores statuses sample).score =
      sessions.sum / settings.n := (taskRecord_scored _ _ _ _ _).score
  rw [hscore]
  constructor
  · exact div_nonneg (List.sum_nonneg fun score hscore => (h sample hmem score hscore).1) hn.le
  · -- at most `n` sessions count, and each counts at most one
    rw [div_le_one hn]
    calc sessions.sum ≤ sessions.length • 1 :=
          List.sum_le_card_nsmul _ _ fun score hscore => (h sample hmem score hscore).2
      _ = (sessions.length : K) := by rw [nsmul_eq_mul, mul_one]
      _ ≤ settings.n := Nat.cast_le.mpr (length_scoresOf_le _ _ _)

/-- What `_write_result` leaves of a full split is fit for the summary. -/
theorem writeResult_fit (hnodup : (samples.map (·.taskId)).Nodup)
    (h : UnitScores settings.n samples uidById scores) (about : About K) :
    ((writeResult settings "full" samples uidById scores statuses).reported about).Fit
      settings.n := by
  have hrecords : ∀ record ∈ ((writeResult settings "full" samples uidById scores
      statuses).reported about).tasks, ∃ sample ∈ samples,
        (taskRecord settings.n uidById scores statuses sample).reported = record := by
    intro record hmem
    obtain ⟨_, htask, rfl⟩ := List.mem_map.mp hmem
    obtain ⟨sample, hsample, rfl⟩ := List.mem_map.mp htask
    exact ⟨sample, hsample, rfl⟩
  constructor
  · rfl
  · rfl
  · exact settings.n_pos
  · show some ((samples.length : ℕ) : ℤ) = some ((((samples.map _).map _).length : ℕ) : ℤ)
    rw [List.length_map, List.length_map]
  · show (((samples.map _).map TaskRecord.reported).map _).Nodup
    rwa [List.map_map, List.map_map]
  · intro record hmem
    obtain ⟨sample, hsample, rfl⟩ := hrecords record hmem
    show 0 ≤ (taskRecord settings.n uidById scores statuses sample).score ∧ _
    exact taskRecord_score_mem h hsample
  · intro record hmem
    obtain ⟨sample, -, rfl⟩ := hrecords record hmem
    exact ⟨Int.natCast_nonneg _, Int.ofNat_le.mpr (length_scoresOf_le _ _ _)⟩
  · exact congrArg (fun mean => some (some mean)) meanOf_writeResult.symm

/-- What `_write_result` leaves is accepted: the full metrics repeat its totals, and the quick
metrics those of the panel's file. -/
theorem writeResult_accepted (statuses : Statuses) (benchmark : Option String)
    {quickIds : List String} (hnodup : (samples.map (·.taskId)).Nodup) (hquick : quickIds.Nodup)
    (hsub : quickIds ⊆ samples.map (·.taskId)) (h : UnitScores settings.n samples uidById scores)
    (about : About K) :
    ∃ summary, buildExternalEvalSummary sha256
        ((writeResult settings "full" samples uidById scores statuses).reported about)
        (runtimeManifest sha256 benchmark (samples.map (·.taskId)) quickIds) = .ok summary ∧
      summary.full.Of sha256 (writeResult settings "full" samples uidById scores statuses) ∧
      summary.quick.Of sha256
        (writeResult settings "quick" (quickPanel samples quickIds) uidById scores statuses) := by
  set result := writeResult settings "full" samples uidById scores statuses with hresult
  have hfit : (result.reported about).Fit settings.n := writeResult_fit hnodup h about
  have hids : (result.reported about).tasks.map (·.taskId) = samples.map (·.taskId) := by
    show ((samples.map _).map TaskRecord.reported).map _ = _
    rw [List.map_map, List.map_map]
    rfl
  rw [← hids] at hsub ⊢
  refine ⟨_, buildExternalEvalSummary_eq_ok hfit hquick hsub, metrics_writeResult, ?_⟩
  show (metrics sha256 (quickIds.filterMap (recordById (result.tasks.map (·.reported))))
    settings.n).Of _ _
  rw [hresult, quickRecords_writeResult]
  exact metrics_writeResult

end Writers

/-! ## The Codex evaluation's file -/

section Codex

variable {α V R : Type}

/-- A record's `status`. -/
def statusText : CodexEval.Status → String
  | .success => "success"
  | .error => "error"

/-- A record of the Codex evaluation, as the summary reads it. -/
def reportedRecord (record : CodexEval.Record R) : ReportedTask ℚ where
  taskId := record.taskId
  score := record.score
  scoredSessions := some (if record.status = .success then 1 else 0)
  status := some (statusText record.status)

/-- A payload of `_result_payload`, as the summary reads it. -/
def reportedPayload (payload : CodexEval.Payload V R) (split : String) (about : About ℚ) :
    Reported ℚ where
  split := some split
  n := some 1
  numTasks := some payload.numTasks
  meanScore := some payload.meanScore
  tasks := payload.tasks.map reportedRecord
  about

/-- The session scores that a record stands for: a run that failed has none. -/
def sessionScoresOf (record : CodexEval.Record R) : List ℚ :=
  if record.status = .success then [record.score] else []

/-- The session scores and the status of a sample are those of its Codex record, in which a task
without a session has the score zero. -/
structure ScoresRecord (uidById : String → String) (scores : Scores ℚ) (statuses : Statuses)
    (sample : Sample α) (record : CodexEval.Record R) : Prop where
  taskId : record.taskId = sample.taskId
  score : record.score = (sessionScoresOf record).sum
  scores : (scores.lookup (uidById sample.taskId)).getD [] = sessionScoresOf record
  statuses : statuses.lookup (uidById sample.taskId) = some (statusText record.status)

/-- The session scores and statuses are those of the Codex records. -/
def ScoresRecords (records : CodexEval.Records R) (samples : List (Sample α))
    (uidById : String → String) (scores : Scores ℚ) (statuses : Statuses) : Prop :=
  ∀ sample ∈ samples, ∀ record, records.lookup sample.taskId = some record →
    ScoresRecord uidById scores statuses sample record

variable {fingerprint : CodexEval.Identity V → String} {identity : CodexEval.Identity V}
  {records : CodexEval.Records R} {provenance : Option (CodexEval.Provenance V)}
  {samples : List (Sample α)} {uidById : String → String} {scores : Scores ℚ} {statuses : Statuses}
  {settings : Settings}

theorem mem_sessionScoresOf {record : CodexEval.Record R}
    (hbinary : record.score = 0 ∨ record.score = 1) {score : ℚ}
    (hmem : score ∈ sessionScoresOf record) : 0 ≤ score ∧ score ≤ 1 := by
  unfold sessionScoresOf at hmem
  split_ifs at hmem
  · rw [List.mem_singleton] at hmem
    rcases hbinary with hzero | hone
    · rw [hmem, hzero]
      exact ⟨le_rfl, zero_le_one⟩
    · rw [hmem, hone]
      exact ⟨zero_le_one, le_rfl⟩
  · exact absurd hmem List.not_mem_nil

/-- The session of a record is the one that counts. -/
theorem scoresOf_eq_sessionScoresOf (hn : settings.n = 1)
    (h : ScoresRecords records samples uidById scores statuses) {sample : Sample α}
    (hmem : sample ∈ samples) {record : CodexEval.Record R}
    (hrecord : records.lookup sample.taskId = some record) :
    scoresOf settings.n scores (uidById sample.taskId) = sessionScoresOf record := by
  rw [scoresOf, (h sample hmem record hrecord).scores, hn, List.take_of_length_le]
  unfold sessionScoresOf
  split_ifs <;> simp

/-- A complete payload has a record for every sample. -/
theorem exists_record
    (hcomplete : (CodexEval.resultPayload fingerprint identity (samples.map (·.taskId)) records
      provenance).complete) {sample : Sample α} (hmem : sample ∈ samples) :
    ∃ record, records.lookup sample.taskId = some record := by
  have hlength : ((samples.map (·.taskId)).filterMap records.lookup).length =
      (samples.map (·.taskId)).length := of_decide_eq_true hcomplete
  rw [List.filterMap_length_eq_length] at hlength
  exact Option.isSome_iff_exists.mp (hlength _ (List.mem_map_of_mem hmem))

/-- A Codex record is read as the one `_write_result` writes from its session. -/
theorem reportedRecord_eq (hn : settings.n = 1)
    (h : ScoresRecords records samples uidById scores statuses) {sample : Sample α}
    (hmem : sample ∈ samples) {record : CodexEval.Record R}
    (hrecord : records.lookup sample.taskId = some record) :
    reportedRecord record = (taskRecord settings.n uidById scores statuses sample).reported := by
  have hsessions := scoresOf_eq_sessionScoresOf hn h hmem hrecord
  have hscore : (taskRecord settings.n uidById scores statuses sample).score = record.score := by
    rw [(taskRecord_scored settings.n uidById scores statuses sample).score]
    show (scoresOf settings.n scores (uidById sample.taskId)).sum / _ = _
    rw [hsessions, hn, Nat.cast_one, div_one, (h sample hmem record hrecord).score]
  unfold reportedRecord TaskRecord.reported
  rw [hscore]
  congr 1
  · exact (h sample hmem record hrecord).taskId
  · show some _ = some ((scoresOf settings.n scores (uidById sample.taskId)).length : ℤ)
    rw [hsessions, sessionScoresOf]
    split_ifs <;> rfl
  · show some _ = some ((statuses.lookup (uidById sample.taskId)).getD "missing")
    rw [(h sample hmem record hrecord).statuses, Option.getD_some]

/-- The records of a complete payload are those of all samples. -/
theorem tasks_resultPayload (hn : settings.n = 1)
    (h : ScoresRecords records samples uidById scores statuses)
    (hcomplete : (CodexEval.resultPayload fingerprint identity (samples.map (·.taskId)) records
      provenance).complete) (split : String) :
    (CodexEval.resultPayload fingerprint identity (samples.map (·.taskId)) records
        provenance).tasks.map reportedRecord =
      (writeResult settings split samples uidById scores statuses).tasks.map (·.reported) := by
  show ((samples.map (·.taskId)).filterMap records.lookup).map reportedRecord =
    (samples.map (taskRecord settings.n uidById scores statuses)).map TaskRecord.reported
  rw [List.filterMap_map, List.map_filterMap, List.map_map, ← List.filterMap_eq_map]
  apply List.filterMap_congr
  intro sample hmem
  obtain ⟨record, hrecord⟩ := exists_record hcomplete hmem
  rw [Function.comp_apply, hrecord, Option.map_some, reportedRecord_eq hn h hmem hrecord]
  rfl

theorem meanScore_resultPayload {taskIds : List String}
    (hcomplete : (CodexEval.resultPayload fingerprint identity taskIds records
      provenance).complete) :
    (CodexEval.resultPayload fingerprint identity taskIds records provenance).meanScore =
      some (meanOf ((CodexEval.resultPayload fingerprint identity taskIds records
        provenance).tasks.map reportedRecord)) := by
  set ordered := taskIds.filterMap records.lookup with hordered
  have hcomplete : decide (ordered.length = taskIds.length) = true := hcomplete
  have hscores : (ordered.map reportedRecord).map (·.score) = ordered.map (·.score) := by
    rw [List.map_map]
    rfl
  show (if (decide (ordered.length = taskIds.length)) = true ∧ ordered.map (·.score) ≠ [] then
      some ((ordered.map (·.score)).sum / ((ordered.map (·.score)).length : ℚ))
    else if (decide (ordered.length = taskIds.length)) = true then some 0 else none) =
      some (meanOf (ordered.map reportedRecord))
  unfold meanOf
  rw [hscores, List.length_map, List.length_map]
  by_cases hempty : ordered = []
  · rw [if_neg (by simp [hempty]), if_pos hcomplete, if_neg (by simp [hempty])]
  · rw [if_pos ⟨hcomplete, by simpa using hempty⟩, if_pos (by simpa using hempty)]

/-- **A complete Codex payload is read as the result of its session scores.** -/
theorem reported_resultPayload (hn : settings.n = 1)
    (h : ScoresRecords records samples uidById scores statuses)
    (hcomplete : (CodexEval.resultPayload fingerprint identity (samples.map (·.taskId)) records
      provenance).complete) (split : String) (about : About ℚ) :
    reportedPayload (CodexEval.resultPayload fingerprint identity (samples.map (·.taskId)) records
        provenance) split about =
      (writeResult settings split samples uidById scores statuses).reported about := by
  have htasks := tasks_resultPayload hn h hcomplete split
  set payload := CodexEval.resultPayload fingerprint identity (samples.map (·.taskId)) records
    provenance with hpayload
  have hmean : payload.meanScore = some (meanOf (payload.tasks.map reportedRecord)) :=
    meanScore_resultPayload hcomplete
  unfold reportedPayload Result.reported
  rw [htasks, hmean, htasks, meanOf_writeResult]
  congr 1
  · rw [show (writeResult settings split samples uidById scores statuses).n = 1 from hn]
    rfl
  · show some ((((samples.map (·.taskId)).length : ℕ)) : ℤ) = some ((samples.length : ℕ) : ℤ)
    rw [List.length_map]

theorem scoredSessionsOf_reportedRecord (ordered : List (CodexEval.Record R)) :
    scoredSessionsOf (ordered.map reportedRecord) = ordered.countP (·.status = .success) := by
  induction ordered with
  | nil => rfl
  | cons record ordered ih =>
    rw [List.map_cons, scoredSessionsOf, List.map_cons, List.sum_cons, ← scoredSessionsOf, ih,
      List.countP_cons, reportedRecord, Option.getD_some]
    by_cases hstatus : record.status = .success <;> simp [hstatus, add_comm]

end Codex

/-! ## Both writers and the reader -/

/-- **The writers and the summary agree.** What `_write_result` leaves of a full split is accepted
with the runtime manifest of its samples. The full metrics repeat its totals, a missing session
counts as zero, and the quick metrics repeat the `quick_result.json` of the same session scores. So
it is with a complete payload of the Codex evaluation. -/
theorem summary_of_writers {K α V R : Type} [Field K] [LinearOrder K] [IsStrictOrderedRing K]
    (sha256 : String → String) (benchmark : Option String) {samples : List (Sample α)}
    {quickIds : List String} (hnodup : (samples.map (·.taskId)).Nodup) (hquick : quickIds.Nodup)
    (hsub : quickIds ⊆ samples.map (·.taskId)) (uidById : String → String) :
    let manifest := runtimeManifest sha256 benchmark (samples.map (·.taskId)) quickIds
    let panel := quickPanel samples quickIds
    (quickIds ≠ [] → evaluationStages samples quickIds =
      .ok [panel, samples.filter (·.taskId ∉ quickIds)]) ∧
    (∀ (settings : Settings) (scores : Scores K) (statuses : Statuses) (about : About K),
      UnitScores settings.n samples uidById scores →
      let result := writeResult settings "full" samples uidById scores statuses
      ∃ summary, buildExternalEvalSummary sha256 (result.reported about) manifest = .ok summary ∧
        summary.full.Of sha256 result ∧
        summary.full.meanScore =
          (samples.map fun sample =>
            (scoresOf settings.n scores (uidById sample.taskId)).sum).sum /
              (settings.n * samples.length) ∧
        summary.quick.Of sha256 (writeResult settings "quick" panel uidById scores statuses)) ∧
    (∀ (fingerprint : CodexEval.Identity V → String) (identity : CodexEval.Identity V)
      (records : CodexEval.Records R) (provenance : Option (CodexEval.Provenance V))
      (settings : Settings) (scores : Scores ℚ) (statuses : Statuses) (about : About ℚ),
      settings.n = 1 → ScoresRecords records samples uidById scores statuses →
      (∀ taskId record, records.lookup taskId = some record →
        record.score = 0 ∨ record.score = 1) →
      let payload := CodexEval.resultPayload fingerprint identity (samples.map (·.taskId)) records
        provenance
      payload.complete →
      ∃ summary, buildExternalEvalSummary sha256 (reportedPayload payload "full" about) manifest =
          .ok summary ∧
        payload.meanScore = some summary.full.meanScore ∧
        summary.full.meanScore =
          (samples.map fun sample => (scoresOf 1 scores (uidById sample.taskId)).sum).sum /
            samples.length ∧
        summary.full.missingSessions = (payload.numTasks : ℤ) - (payload.scoredSessions : ℤ) ∧
        summary.quick.Of sha256 (writeResult settings "quick" panel uidById scores statuses)) := by
  intro manifest panel
  refine ⟨?_, ?_, ?_⟩
  · intro hne
    rw [evaluationStages, if_neg hne, if_neg (not_not.mpr hsub)]
    rfl
  · intro settings scores statuses about hunit result
    obtain ⟨summary, haccepted, hfull, hpanel⟩ :=
      writeResult_accepted statuses benchmark hnodup hquick hsub hunit about
    refine ⟨summary, haccepted, hfull, ?_, hpanel⟩
    rw [hfull.meanScore, meanScore_writeResult]
  · intro fingerprint identity records provenance settings scores statuses about hn hscores hbinary
      payload hcomplete
    -- the score of a record is zero or one, so the session that it stands for has a unit score
    have hunit : UnitScores settings.n samples uidById scores := by
      intro sample hmem score hscore
      obtain ⟨record, hrecord⟩ := exists_record hcomplete hmem
      rw [scoresOf_eq_sessionScoresOf hn hscores hmem hrecord] at hscore
      exact mem_sessionScoresOf (hbinary _ record hrecord) hscore
    have hreported := reported_resultPayload hn hscores hcomplete "full" about
    obtain ⟨summary, haccepted, hfull, hpanel⟩ :=
      writeResult_accepted statuses benchmark hnodup hquick hsub hunit about
    rw [← hreported] at haccepted
    refine ⟨summary, haccepted, ?_, ?_, ?_, hpanel⟩
    · have hmean := congrArg Reported.meanScore hreported
      rw [hfull.meanScore]
      exact Option.some_inj.mp hmean
    · rw [hfull.meanScore, meanScore_writeResult, hn, Nat.cast_one, one_mul]
    · have hsessions := congrArg (fun reported => scoredSessionsOf reported.tasks) hreported
      have hpayload : (payload.scoredSessions : ℤ) = _ :=
        (scoredSessionsOf_reportedRecord payload.tasks).symm.trans
          (hsessions.trans (sum_scoredSessions_reported _))
      rw [hfull.missingSessions, hpayload]
      show ((samples.length * settings.n : ℕ) : ℤ) - _ = ((samples.map _).length : ℤ) - _
      rw [hn, mul_one, List.length_map]
      rfl

/-! ### Two tasks -/

/-- The settings of an evaluation of `n` sessions a task. -/
def sessionSettings (n : ℕ) (n_pos : 0 < n) : Settings where
  modelPath := "student"
  n
  n_pos
  taskConfigSha256 := "c"
  runtimeManifestSha256 := "m"
  quickFirst := true
  split := "full"

/-- Two tasks. -/
def twoSamples : List (Sample Unit) := [⟨"a", ()⟩, ⟨"b", ()⟩]

/-- Three scores of the first task. -/
def threeScores : Scores ℚ := Finmap.singleton "a" [1, 1 / 2, 0]

/-- What is known of the runs. -/
def noAbout : About ℚ := ⟨none, none, none, none, none⟩

/-- The Codex records of the two tasks: one succeeds, the other fails. -/
def twoRecords : CodexEval.Records Unit :=
  (Finmap.singleton "a" ⟨"a", 1, .success, true, "run", ()⟩).insert "b"
    ⟨"b", 0, .error, false, "run", ()⟩

theorem unitScores_threeScores : UnitScores 2 twoSamples id threeScores := by
  have hfirst : scoresOf 2 threeScores "a" = [1, 1 / 2] := rfl
  have hsecond : scoresOf 2 threeScores "b" = [] := rfl
  intro sample hmem score hscore
  rcases List.mem_pair.mp hmem with rfl | rfl
  · rw [id, hfirst, List.mem_pair] at hscore
    rcases hscore with rfl | rfl <;> norm_num
  · rw [id, hsecond] at hscore
    exact absurd hscore List.not_mem_nil

/-- The record of the task that succeeds, and of the one that fails. -/
theorem lookup_twoRecords {taskId : String} {record : CodexEval.Record Unit}
    (h : twoRecords.lookup taskId = some record) :
    taskId = "a" ∧ record = ⟨"a", 1, .success, true, "run", ()⟩ ∨
      taskId = "b" ∧ record = ⟨"b", 0, .error, false, "run", ()⟩ := by
  unfold twoRecords at h
  by_cases hb : taskId = "b"
  · subst hb
    rw [Finmap.lookup_insert, Option.some_inj] at h
    exact Or.inr ⟨rfl, h.symm⟩
  · rw [Finmap.lookup_insert_of_ne _ hb] at h
    by_cases ha : taskId = "a"
    · subst ha
      rw [Finmap.lookup_singleton_eq, Option.some_inj] at h
      exact Or.inl ⟨rfl, h.symm⟩
    · rw [Finmap.lookup_eq_none.mpr (by rwa [Finmap.mem_singleton])] at h
      exact absurd h (by simp)

theorem scoresRecords_twoRecords :
    ScoresRecords twoRecords twoSamples id (Finmap.singleton "a" [1])
      ((Finmap.singleton "a" "success").insert "b" "error") := by
  intro sample _ record hrecord
  rcases lookup_twoRecords hrecord with ⟨htask, rfl⟩ | ⟨htask, rfl⟩
  · constructor
    · exact htask.symm
    · exact List.sum_singleton.symm
    · rw [htask]
      rfl
    · rw [htask]
      rfl
  · constructor
    · exact htask.symm
    · rfl
    · rw [htask]
      rfl
    · rw [htask]
      rfl

/-- Both writers' files of the two tasks are accepted, with the second one as the quick panel. -/
theorem summary_of_two_tasks :
    (∃ summary, buildExternalEvalSummary id
        ((writeResult (sessionSettings 2 (by decide)) "full" twoSamples id threeScores ∅).reported
          noAbout) (runtimeManifest id none ["a", "b"] ["b"]) = .ok summary ∧
      summary.full.meanScore = 3 / 8) ∧
    (∃ summary, buildExternalEvalSummary id
        (reportedPayload (CodexEval.resultPayload (V := Unit) (fun _ => "run") ∅ ["a", "b"]
          twoRecords none) "full" noAbout) (runtimeManifest id none ["a", "b"] ["b"]) =
        .ok summary ∧
      summary.full.meanScore = 1 / 2) := by
  have hagree := summary_of_writers (K := ℚ) (V := Unit) (R := Unit) id none
    (by decide : (twoSamples.map (·.taskId)).Nodup) (by decide : ["b"].Nodup)
    (by decide : ["b"] ⊆ twoSamples.map (·.taskId)) id
  constructor
  · obtain ⟨summary, haccepted, -, hmean, -⟩ :=
      hagree.2.1 (sessionSettings 2 (by decide)) threeScores ∅ noAbout unitScores_threeScores
    refine ⟨summary, haccepted, hmean.trans ?_⟩
    show ([1, 1 / 2].sum + ([].sum + 0)) / ((2 : ℕ) * (2 : ℕ) : ℚ) = 3 / 8
    norm_num
  · obtain ⟨summary, haccepted, -, hmean, -⟩ :=
      hagree.2.2 (fun _ => "run") ∅ twoRecords none (sessionSettings 1 (by decide)) _ _ noAbout rfl
        scoresRecords_twoRecords (fun taskId record hrecord => by
          rcases lookup_twoRecords hrecord with ⟨-, rfl⟩ | ⟨-, rfl⟩
          · exact Or.inr rfl
          · exact Or.inl rfl) rfl
    refine ⟨summary, haccepted, hmean.trans ?_⟩
    show ([1].sum + ([].sum + 0)) / ((2 : ℕ) : ℚ) = 1 / 2
    norm_num

end ExternalEval
