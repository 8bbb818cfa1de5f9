import Mathlib.Algebra.Field.Basic
import Mathlib.Algebra.BigOperators.Ring.List
import Mathlib.Data.Finmap
import CodingOpd.Python.Collections
import CodingOpd.Python.Values

/-!
# Results, stages and session scores of the external evaluation

The evaluation writes `result.json` with one record for every sample, reads the scores of the
finished sessions from the transfer queue, and goes over the samples in one or two stages.

## Main definitions

* `Settings`, `Result`, `writeResult`: the settings of a run, and what `_write_result` writes
* `Scored`: a result whose scores are means over `n` sessions
* `evaluationStages`: `evaluation_stages`
* `Partition`, `readScores`: the transfer queue, and `_read_scores`

## Main results

* `evaluationStages_perm`: the stages have each sample once
* `writeResult_meanScore`, `writeResult_scored`: a missing session counts as zero
* `length_sessionScores_le`, `sessionScores_append`: what the queue's growth does to a score list
-/

open Python

namespace ExternalEval

/-- A row of the evaluation dataset, under its task's ID. -/
structure Sample (α : Type) where
  taskId : String
  row : α
deriving DecidableEq

/-- The settings that a resume has to find unchanged, with the run's own. -/
structure Settings where
  modelPath : String
  /-- The sessions of a task. -/
  n : ℕ
  n_pos : 0 < n
  taskConfigSha256 : String
  runtimeManifestSha256 : String
  quickFirst : Bool
  split : String
deriving DecidableEq

/-- A task's record in `result.json`. -/
structure TaskRecord (K : Type) where
  taskId : String
  score : K
  scoredSessions : ℕ
  sessionScores : List K
  status : String

/-- `result.json`. -/
structure Result (K : Type) where
  protocol : String := "shared-react-v1"
  modelPath : String
  n : ℕ
  taskConfigSha256 : String
  runtimeManifestSha256 : String
  split : String
  numTasks : ℕ
  expectedSessions : ℕ
  scoredSessions : ℕ
  completedTasks : ℕ
  meanScore : K
  tasks : List (TaskRecord K)

/-- `scores`: the session scores by uid. -/
abbrev Scores (K : Type) := Finmap fun _ : String => List K

/-- `statuses`: the prompt statuses by uid. -/
abbrev Statuses := Finmap fun _ : String => String

section

variable {K α : Type} [Field K]

/-- `scores_by_uid.get(uid, [])[: args.n]`. -/
def scoresOf (n : ℕ) (scores : Scores K) (uid : String) : List K :=
  ((scores.lookup uid).getD []).take n

/-- `scores + [0.0] * (args.n - len(scores))`. -/
def padded (n : ℕ) (scores : List K) : List K :=
  scores ++ List.replicate (n - scores.length) 0

/-- `np.mean`. -/
def mean (scores : List K) : K := scores.sum / scores.length

/-- One record of `_write_result`. -/
def taskRecord (n : ℕ) (uidById : String → String) (scores : Scores K) (statuses : Statuses)
    (sample : Sample α) : TaskRecord K :=
  let uid := uidById sample.taskId
  let sessionScores := scoresOf n scores uid
  { taskId := sample.taskId
    score := mean (padded n sessionScores)
    scoredSessions := sessionScores.length
    sessionScores
    status := (statuses.lookup uid).getD "missing" }

/-- `_write_result`. -/
def writeResult (settings : Settings) (split : String) (samples : List (Sample α))
    (uidById : String → String) (scores : Scores K) (statuses : Statuses) : Result K :=
  let records := samples.map (taskRecord settings.n uidById scores statuses)
  let allScores := records.flatMap fun record => padded settings.n record.sessionScores
  { modelPath := settings.modelPath
    n := settings.n
    taskConfigSha256 := settings.taskConfigSha256
    runtimeManifestSha256 := settings.runtimeManifestSha256
    split
    numTasks := samples.length
    expectedSessions := samples.length * settings.n
    scoredSessions := (records.map (·.scoredSessions)).sum
    completedTasks := records.countP (settings.n ≤ ·.scoredSessions)
    meanScore := if allScores = [] then 0 else mean allScores
    tasks := records }

theorem length_padded {n : ℕ} {scores : List K} (h : scores.length ≤ n) :
    (padded n scores).length = n := by
  rw [padded, List.length_append, List.length_replicate]
  omega

theorem sum_padded (n : ℕ) (scores : List K) : (padded n scores).sum = scores.sum := by
  rw [padded, List.sum_append]
  simp

omit [Field K] in
theorem length_scoresOf_le (n : ℕ) (scores : Scores K) (uid : String) :
    (scoresOf n scores uid).length ≤ n :=
  List.length_take_le _ _

/-- One record for every sample, in their order. -/
theorem writeResult_taskIds (settings : Settings) (split : String) (samples : List (Sample α))
    (uidById : String → String) (scores : Scores K) (statuses : Statuses) :
    (writeResult settings split samples uidById scores statuses).tasks.map (·.taskId) =
      samples.map (·.taskId) := by
  show (samples.map _).map _ = _
  rw [List.map_map]
  rfl

/-- **Missing sessions count as zero**: the mean is over `n` sessions for every sample. -/
theorem writeResult_meanScore (settings : Settings) (split : String) (samples : List (Sample α))
    (uidById : String → String) (scores : Scores K) (statuses : Statuses) :
    (writeResult settings split samples uidById scores statuses).meanScore =
      ((writeResult settings split samples uidById scores statuses).tasks.map
        (·.sessionScores.sum)).sum / ((samples.length * settings.n : ℕ) : K) := by
  set records := samples.map (taskRecord settings.n uidById scores statuses) with hrecords
  set allScores := records.flatMap fun record => padded settings.n record.sessionScores with hall
  have hsum : allScores.sum = (records.map (·.sessionScores.sum)).sum := by
    rw [hall, List.flatMap, List.sum_flatten, List.map_map]
    exact congrArg List.sum (List.map_congr_left fun record _ => sum_padded _ _)
  have hlength : allScores.length = samples.length * settings.n := by
    have heach : ∀ record ∈ records, (padded settings.n record.sessionScores).length =
        settings.n := by
      intro record hmem
      obtain ⟨sample, -, rfl⟩ := List.mem_map.mp hmem
      exact length_padded (length_scoresOf_le _ _ _)
    rw [hall, List.length_flatMap, List.map_congr_left heach, List.map_const', List.sum_replicate,
      hrecords, List.length_map]
    rfl
  show (if allScores = [] then 0 else mean allScores) = (records.map (·.sessionScores.sum)).sum / _
  rw [← hsum, ← hlength]
  split_ifs with hempty
  · simp [hempty]
  · rfl

/-- A record's score is the mean over `n` sessions, those that are missing as zero. -/
structure TaskRecord.Scored (n : ℕ) (record : TaskRecord K) : Prop where
  scoredSessions : record.scoredSessions = record.sessionScores.length
  score : record.score = record.sessionScores.sum / n

/-- **The scoring of a result**, of its records and of the mean over all of their sessions. -/
structure Scored (result : Result K) : Prop where
  record : ∀ record ∈ result.tasks, record.Scored result.n
  meanScore : result.meanScore =
    (result.tasks.map (·.sessionScores.sum)).sum / (result.n * result.numTasks)

/-- The mean of scored records is over all of their sessions. -/
theorem sum_score_div {n : ℕ} {records : List (TaskRecord K)}
    (h : ∀ record ∈ records, record.Scored n) (k : K) :
    (records.map (·.score)).sum / k = (records.map (·.sessionScores.sum)).sum / (n * k) := by
  rw [List.map_congr_left fun record hmem => (h record hmem).score, ← div_div]
  congr 1
  simp only [div_eq_mul_inv]
  exact List.sum_map_mul_right _ _ _

theorem mean_padded {n : ℕ} {scores : List K} (h : scores.length ≤ n) :
    mean (padded n scores) = scores.sum / n := by
  rw [mean, sum_padded, length_padded h]

theorem taskRecord_scored (n : ℕ) (uidById : String → String) (scores : Scores K)
    (statuses : Statuses) (sample : Sample α) :
    (taskRecord n uidById scores statuses sample).Scored n :=
  ⟨rfl, mean_padded (length_scoresOf_le _ _ _)⟩

/-- The file that `_write_result` leaves is scored. -/
theorem writeResult_scored (settings : Settings) (split : String)
    (samples : List (Sample α)) (uidById : String → String) (scores : Scores K)
    (statuses : Statuses) :
    Scored (writeResult settings split samples uidById scores statuses) := by
  constructor
  · intro record hmem
    obtain ⟨sample, -, rfl⟩ := List.mem_map.mp hmem
    exact taskRecord_scored _ _ _ _ _
  · rw [writeResult_meanScore, Nat.cast_mul, mul_comm (samples.length : K)]
    rfl

end

/-! ## Stages -/

section

variable {α : Type}

/-- `by_id` of `evaluation_stages`. -/
def byId (samples : List (Sample α)) (taskId : String) : Option (Sample α) :=
  samples.reverse.find? (·.taskId = taskId)

/-- `evaluation_stages`: the quick panel, then its complement. -/
def evaluationStages (samples : List (Sample α)) (quickIds : List String) :
    Except PyError (List (List (Sample α))) :=
  if quickIds = [] then
    .ok [samples]
  else if ¬ quickIds ⊆ samples.map (·.taskId) then
    .error (.valueError "quick panel must be contained in the full runtime")
  else
    .ok [quickIds.filterMap (byId samples), samples.filter (·.taskId ∉ quickIds)]

theorem byId_eq_some_iff {samples : List (Sample α)} (hnodup : (samples.map (·.taskId)).Nodup)
    {taskId : String} {sample : Sample α} :
    byId samples taskId = some sample ↔ sample ∈ samples ∧ sample.taskId = taskId := by
  constructor
  · exact fun h => of_find?_reverse h
  · rintro ⟨hmem, rfl⟩
    have hids : sample.taskId ∈ samples.map (·.taskId) := List.mem_map_of_mem hmem
    obtain ⟨found, hfound⟩ := Option.isSome_iff_exists.mp (isSome_find?_reverse hids)
    obtain ⟨hfoundMem, hid⟩ := of_find?_reverse hfound
    rwa [List.inj_on_of_nodup_map hnodup hfoundMem hmem hid] at hfound

/-- **The stages visit each sample once.** -/
theorem evaluationStages_perm {samples : List (Sample α)} {quickIds : List String}
    (hnodup : (samples.map (·.taskId)).Nodup) (hquick : quickIds.Nodup)
    (hsub : quickIds ⊆ samples.map (·.taskId)) :
    ∃ stages, evaluationStages samples quickIds = .ok stages ∧ stages.flatten.Perm samples := by
  unfold evaluationStages
  by_cases hempty : quickIds = []
  · rw [if_pos hempty]
    exact ⟨_, rfl, by simp⟩
  rw [if_neg hempty, if_neg (not_not.mpr hsub)]
  refine ⟨_, rfl, ?_⟩
  have hpanel : (quickIds.filterMap (byId samples)).Nodup := by
    refine List.Nodup.filterMap ?_ hquick
    intro a b sample ha hb
    rw [← ((byId_eq_some_iff hnodup).mp ha).2, ((byId_eq_some_iff hnodup).mp hb).2]
  have hsamples : samples.Nodup := hnodup.of_map
  have hmem : ∀ sample, sample ∈ quickIds.filterMap (byId samples) ↔
      sample ∈ samples ∧ sample.taskId ∈ quickIds := by
    intro sample
    simp only [List.mem_filterMap, byId_eq_some_iff hnodup]
    constructor
    · rintro ⟨taskId, hquickId, hsample, rfl⟩
      exact ⟨hsample, hquickId⟩
    · rintro ⟨hsample, hquickId⟩
      exact ⟨_, hquickId, hsample, rfl⟩
  rw [List.flatten_cons, List.flatten_cons, List.flatten_nil, List.append_nil,
    List.perm_ext_iff_of_nodup _ hsamples]
  · intro sample
    rw [List.mem_append, hmem, List.mem_filter, decide_eq_true_eq]
    tauto
  · refine hpanel.append (hsamples.filter _) fun sample hleft hright => ?_
    rw [List.mem_filter, decide_eq_true_eq] at hright
    exact hright.2 ((hmem sample).mp hleft).2

end

end ExternalEval
