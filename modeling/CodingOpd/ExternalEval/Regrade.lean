import Mathlib.Algebra.CharZero.Defs
import Mathlib.Algebra.Field.Rat
import Mathlib.Tactic.NormNum
import CodingOpd.ExternalEval.Result

/-!
# Regrading the unscored tasks of a result

`regrade_swebench.py` goes over the tasks of a `result.json`, grades the saved prediction of each
task that has no scored session, and writes its output file after every one of them, with the totals
counted anew. A task graded so has one session, whose reward is the task's score.

## Main definitions

* `Regrading`, `regrade`: what the script is given, and the files it writes
* `Kept`: the records that have a score are left as they were
* `Reaches`: the records that the script comes to grade

## Main results

* `Scored.round`, `Kept.round`: what one regrade leaves of a result's scoring
* `regrade_scored_iff`: the files are scored when a task has one session, or no reward counts
-/

open Python

namespace ExternalEval

/-- What the regrader finds. -/
structure Regrading (K : Type) where
  /-- The tasks with a saved prediction. -/
  predictions : Finset String
  /-- A task's sample and its configuration, which are looked up outside the `try`. -/
  prepare : String → Except PyError Unit
  /-- The run of the task of the record at a position: its reward, or the exception it ends in. -/
  run : ℕ → Except PyError K

section

variable {K : Type} [Field K]

namespace TaskRecord

/-- `record.update(score=..., session_scores=..., scored_sessions=1, status="finished")`. -/
def regraded (record : TaskRecord K) (reward : K) : TaskRecord K :=
  { record with score := reward, sessionScores := [reward], scoredSessions := 1,
                status := "finished" }

/-- The record after its regrade: a run that raises leaves it as it was. -/
def afterRun (record : TaskRecord K) : Except PyError K → TaskRecord K
  | .ok reward => record.regraded reward
  | .error _ => record

end TaskRecord

/-- The totals of a result, counted over its tasks. -/
def recount (result : Result K) : Result K :=
  { result with
    scoredSessions := (result.tasks.map (·.scoredSessions)).sum
    completedTasks := result.tasks.countP (result.n ≤ ·.scoredSessions)
    meanScore := (result.tasks.map (·.score)).sum / result.numTasks }

namespace Regrading

variable (regrading : Regrading K)

/-- `not (record["scored_sessions"] or tid not in predictions)`. -/
def Candidate (record : TaskRecord K) : Prop :=
  record.scoredSessions = 0 ∧ record.taskId ∈ regrading.predictions

instance (record : TaskRecord K) : Decidable (regrading.Candidate record) :=
  inferInstanceAs (Decidable (_ ∧ _))

/-- The loop of the script, behind the records `before`: the files it writes, the first one first,
and how it ends. -/
def loop (result : Result K) (before : List (TaskRecord K)) :
    List (TaskRecord K) → List (Result K) × Except PyError Unit
  | [] => ([], .ok ())
  | record :: after =>
    if regrading.Candidate record then
      match regrading.prepare record.taskId with
      -- the lookup is outside the `try`, so the script ends here
      | .error error => ([], .error error)
      | .ok () =>
        let record := record.afterRun (regrading.run before.length)
        let output := recount { result with tasks := before ++ record :: after }
        let rest := loop output (before ++ [record]) after
        (output :: rest.1, rest.2)
    else
      loop result (before ++ [record]) after

/-- `main` of the script. -/
def regrade (result : Result K) : List (Result K) × Except PyError Unit :=
  regrading.loop result [] result.tasks

/-- The script comes to the run of a record: no lookup for a candidate up to it raises. -/
def Reaches (records : List (TaskRecord K)) (i : ℕ) (record : TaskRecord K) : Prop :=
  records[i]? = some record ∧ regrading.Candidate record ∧
    ∀ j ≤ i, ∀ earlier, records[j]? = some earlier → regrading.Candidate earlier →
      regrading.prepare earlier.taskId = .ok ()

end Regrading

/-- The records that have a score are the same in both results. -/
def Kept (result output : Result K) : Prop :=
  ∀ (i : ℕ) (record : TaskRecord K), result.tasks[i]? = some record → record.scoredSessions ≠ 0 →
    output.tasks[i]? = some record

/-! ## One round of the loop -/

section Round

variable {original result : Result K} {before after : List (TaskRecord K)} {record : TaskRecord K}
  {outcome : Except PyError K}

/-- The recount of scored records is a scored result. -/
theorem recount_scored (h : ∀ record ∈ result.tasks, record.Scored result.n) :
    Scored (recount result) := by
  exact ⟨h, sum_score_div h _⟩

/-- A record of one session is scored when the session's reward is its own share of `n`. -/
theorem regraded_scored_iff {n : ℕ} {reward : K} :
    (record.regraded reward).Scored n ↔ reward = reward / n := by
  constructor
  · intro h
    simpa [TaskRecord.regraded] using h.score
  · intro h
    exact ⟨rfl, by simpa [TaskRecord.regraded] using h⟩

theorem TaskRecord.Scored.afterRun {n : ℕ} (h : record.Scored n)
    (hreward : ∀ reward, outcome = .ok reward → reward = reward / n) :
    (record.afterRun outcome).Scored n := by
  cases outcome with
  | error error => exact h
  | ok reward => exact regraded_scored_iff.mpr (hreward reward rfl)

/-- A round keeps the result scored, if its reward is its own share of `n` sessions. -/
theorem Scored.round (h : Scored result) (htasks : result.tasks = before ++ record :: after)
    (hreward : ∀ reward, outcome = .ok reward → reward = reward / result.n) :
    Scored (recount { result with tasks := before ++ record.afterRun outcome :: after }) := by
  apply recount_scored
  intro other hmem
  have hrecords := h.record
  rw [htasks] at hrecords
  rcases List.mem_append.mp hmem with hbefore | hafter
  · exact hrecords other (List.mem_append_left _ hbefore)
  rcases List.mem_cons.mp hafter with rfl | hafter
  · exact (hrecords record (by simp)).afterRun hreward
  · exact hrecords other (by simp [hafter])

/-- A round changes a record without a score only. -/
theorem Kept.round (outcome : Except PyError K) (h : Kept original result)
    (htasks : result.tasks = before ++ record :: after) (hunscored : record.scoredSessions = 0) :
    Kept original
      (recount { result with tasks := before ++ record.afterRun outcome :: after }) := by
  intro i kept hi hscored
  have hresult := h i kept hi hscored
  show (before ++ record.afterRun outcome :: after)[i]? = some kept
  rw [htasks] at hresult
  rcases lt_trichotomy i before.length with hlt | rfl | hgt
  · rwa [List.getElem?_append_left hlt] at hresult ⊢
  · -- the record of the round has no score
    rw [List.getElem?_append_right le_rfl, Nat.sub_self, List.getElem?_cons_zero,
      Option.some_inj] at hresult
    exact absurd hunscored (hresult ▸ hscored)
  · obtain ⟨k, rfl⟩ := Nat.exists_eq_add_of_lt hgt
    rw [List.getElem?_append_right hgt.le, Nat.add_assoc, Nat.add_sub_cancel_left,
      List.getElem?_cons_succ] at hresult ⊢
    exact hresult

end Round

/-! ## The loop -/

namespace Regrading

variable {regrading : Regrading K} {record other : TaskRecord K} {records : List (TaskRecord K)}

omit [Field K] in
theorem reaches_zero : regrading.Reaches (other :: records) 0 record ↔
    other = record ∧ regrading.Candidate record ∧
      regrading.prepare record.taskId = .ok () := by
  constructor
  · rintro ⟨hhead, hcandidate, hprepare⟩
    exact ⟨Option.some_inj.mp hhead, hcandidate, hprepare 0 le_rfl record hhead hcandidate⟩
  · rintro ⟨rfl, hcandidate, hprepare⟩
    refine ⟨rfl, hcandidate, fun j hj earlier hearlier _ => ?_⟩
    obtain rfl := Nat.le_zero.mp hj
    rwa [← Option.some_inj.mp hearlier]

omit [Field K] in
theorem reaches_succ {i : ℕ} : regrading.Reaches (other :: records) (i + 1) record ↔
    (regrading.Candidate other → regrading.prepare other.taskId = .ok ()) ∧
      regrading.Reaches records i record := by
  constructor
  · rintro ⟨hrecord, hcandidate, hprepare⟩
    exact ⟨hprepare 0 (Nat.zero_le _) other rfl, hrecord, hcandidate,
      fun j hj => hprepare (j + 1) (Nat.succ_le_succ hj)⟩
  · rintro ⟨hother, hrecord, hcandidate, hprepare⟩
    refine ⟨hrecord, hcandidate, fun j hj earlier hearlier hcandidate => ?_⟩
    cases j with
    | zero =>
      obtain rfl := Option.some_inj.mp hearlier
      exact hother hcandidate
    | succ j => exact hprepare j (Nat.le_of_succ_le_succ hj) earlier hearlier hcandidate

/-- The files of a loop from a scored result are scored and have the scored records of the
evaluation's file, if the rewards that the loop comes to are their own shares of `n` sessions. -/
theorem loop_scored {original result : Result K} {before after : List (TaskRecord K)}
    (htasks : result.tasks = before ++ after) (hscored : Scored result)
    (hkept : Kept original result)
    (hreward : ∀ i record reward, regrading.Reaches after i record →
      regrading.run (before.length + i) = .ok reward → reward = reward / result.n) :
    ∀ output ∈ (regrading.loop result before after).1, Scored output ∧ Kept original output := by
  induction after generalizing result before with
  | nil => exact fun output hmem => (nomatch hmem)
  | cons record after ih =>
    -- what holds of the rewards from here on holds of those behind the record
    have hlater : ∀ passed : TaskRecord K,
        (regrading.Candidate record → regrading.prepare record.taskId = .ok ()) →
        ∀ i later reward, regrading.Reaches after i later →
          regrading.run ((before ++ [passed]).length + i) = .ok reward →
            reward = reward / result.n := by
      intro passed hprepare i later reward hreach hrun
      refine hreward (i + 1) later reward (reaches_succ.mpr ⟨hprepare, hreach⟩) ?_
      rwa [List.length_append, List.length_singleton, Nat.add_assoc, Nat.add_comm 1] at hrun
    unfold loop
    by_cases hcandidate : regrading.Candidate record
    · rw [if_pos hcandidate]
      cases hprepare : regrading.prepare record.taskId with
      | error error => exact fun output hmem => (nomatch hmem)
      | ok =>
        have hround := hscored.round htasks fun reward hrun =>
          hreward 0 record reward (reaches_zero.mpr ⟨rfl, hcandidate, hprepare⟩) hrun
        have hsame := hkept.round (regrading.run before.length) htasks hcandidate.1
        intro output hmem
        rcases List.mem_cons.mp hmem with rfl | hmem
        · exact ⟨hround, hsame⟩
        · -- the rest of the loop goes on from the file just written
          exact ih (List.append_cons before _ after) hround hsame
            (hlater _ fun _ => hprepare) output hmem
    · rw [if_neg hcandidate]
      exact ih (by rw [htasks, List.append_cons]) hscored hkept
        (hlater record fun h => absurd h hcandidate)

/-- The files have the sessions `n` of the result. -/
theorem loop_n {result : Result K} {before after : List (TaskRecord K)} :
    ∀ output ∈ (regrading.loop result before after).1, output.n = result.n := by
  induction after generalizing result before with
  | nil => exact fun output hmem => (nomatch hmem)
  | cons record after ih =>
    unfold loop
    split_ifs
    · cases regrading.prepare record.taskId with
      | error error => exact fun output hmem => (nomatch hmem)
      | ok =>
        intro output hmem
        rcases List.mem_cons.mp hmem with rfl | hmem
        · rfl
        · have hrest := ih output hmem
          exact hrest
    · exact ih

/-- The run of a record that the loop comes to is in one of its files. -/
theorem exists_regraded (result : Result K) (before : List (TaskRecord K))
    {after : List (TaskRecord K)} {i : ℕ} {reward : K} (hreach : regrading.Reaches after i record)
    (hrun : regrading.run (before.length + i) = .ok reward) :
    ∃ output ∈ (regrading.loop result before after).1,
      record.regraded reward ∈ output.tasks := by
  induction after generalizing result before i with
  | nil => exact absurd hreach.1 (by simp)
  | cons head after ih =>
    unfold loop
    cases i with
    | zero =>
      obtain ⟨rfl, hcandidate, hprepare⟩ := reaches_zero.mp hreach
      rw [if_pos hcandidate, hprepare, Nat.add_zero] at *
      refine ⟨_, List.mem_cons_self, ?_⟩
      rw [hrun]
      exact List.mem_append_right _ List.mem_cons_self
    | succ i =>
      obtain ⟨hprepare, hreach⟩ := reaches_succ.mp hreach
      rw [Nat.add_comm i, ← Nat.add_assoc] at hrun
      by_cases hcandidate : regrading.Candidate head
      · rw [if_pos hcandidate, hprepare hcandidate]
        obtain ⟨output, hmem, htask⟩ := ih _ (before ++ [_]) hreach (by simpa using hrun)
        exact ⟨output, List.mem_cons_of_mem _ hmem, htask⟩
      · rw [if_neg hcandidate]
        exact ih result _ hreach (by simpa using hrun)

/-- A share of `n` sessions is the whole for one session, or of zero. -/
theorem eq_div_natCast_iff [CharZero K] {n : ℕ} (hn : 0 < n) {reward : K} :
    reward = reward / n ↔ n = 1 ∨ reward = 0 := by
  rw [eq_div_iff (Nat.cast_ne_zero.mpr hn.ne'), mul_right_eq_self₀, Nat.cast_eq_one]

/-- **When regrading keeps the scoring.** Every file that the script writes from the evaluation's
result is scored, with the scored records as they were, when a task has one session only or the
regrades that succeed have the reward zero, and never else. -/
theorem regrade_scored_iff [CharZero K] {α : Type} (settings : Settings) (split : String)
    (samples : List (Sample α)) (uidById : String → String) (scores : Scores K)
    (statuses : Statuses) (regrading : Regrading K) :
    let result := writeResult settings split samples uidById scores statuses
    (∀ output ∈ (regrading.regrade result).1, Scored output ∧ Kept result output) ↔
      settings.n = 1 ∨ ∀ i record reward, regrading.Reaches result.tasks i record →
        regrading.run i = .ok reward → reward = 0 := by
  intro result
  have hshare : ∀ reward : K, reward = reward / result.n ↔ settings.n = 1 ∨ reward = 0 :=
    fun reward => eq_div_natCast_iff settings.n_pos
  constructor
  · intro h
    by_contra hnot
    push Not at hnot
    obtain ⟨hn, i, record, reward, hreach, hrun, hne⟩ := hnot
    obtain ⟨output, hmem, htask⟩ :=
      exists_regraded result [] hreach (by simpa using hrun)
    have hrecord := (h output hmem).1.record _ htask
    rw [loop_n output hmem] at hrecord
    exact ((hshare reward).mp (regraded_scored_iff.mp hrecord)).elim hn hne
  · intro h
    apply loop_scored rfl (writeResult_scored _ _ _ _ _ _)
    · exact fun i record hrecord _ => hrecord
    · intro i record reward hreach hrun
      rw [List.length_nil, Nat.zero_add] at hrun
      exact (hshare reward).mpr (h.imp_right fun hzero => hzero i record reward hreach hrun)

/-! ## A regrade of two sessions -/

/-- Two sessions for one task. -/
def twoSessions : Settings where
  modelPath := "model"
  n := 2
  n_pos := by decide
  taskConfigSha256 := ""
  runtimeManifestSha256 := ""
  quickFirst := false
  split := "full"

/-- The result of an evaluation in which no session of its one task was scored. -/
def unscoredResult : Result ℚ :=
  writeResult twoSessions "full" [⟨"task", ()⟩] id ∅ ∅

/-- A saved prediction of the task, whose regrade gets a reward. -/
def rewarded (reward : ℚ) : Regrading ℚ where
  predictions := {"task"}
  prepare := fun _ => .ok ()
  run := fun _ => .ok reward

/-- The one session of the regrade counts for both: the file is not scored. -/
theorem regrade_not_scored :
    ¬ ∀ output ∈ ((rewarded 1).regrade unscoredResult).1,
      Scored output ∧ Kept unscoredResult output := by
  intro h
  have hrecord := (h _ List.mem_cons_self).1.record _ List.mem_cons_self
  have hshare : (1 : ℚ) = 1 / (2 : ℕ) := regraded_scored_iff.mp hrecord
  norm_num at hshare

/-- A regrade that fails the prediction writes one file, and leaves it scored. -/
theorem regrade_scored_zero :
    ((rewarded 0).regrade unscoredResult).1.length = 1 ∧
      ∀ output ∈ ((rewarded 0).regrade unscoredResult).1,
        Scored output ∧ Kept unscoredResult output :=
  ⟨rfl, (regrade_scored_iff twoSessions "full" [⟨"task", ()⟩] id ∅ ∅ (rewarded 0)).mpr
    (Or.inr fun _ _ _ _ hrun => (Except.ok.inj hrun).symm)⟩

end Regrading

end

end ExternalEval
