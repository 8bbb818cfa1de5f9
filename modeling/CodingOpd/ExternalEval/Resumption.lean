import Mathlib.Algebra.Field.Rat
import CodingOpd.ExternalEval.Evaluate

/-!
# Finished tasks stay finished

A task whose record in `result.json` has all its sessions is loaded by every later process, and a
process that knows all the sessions of a task neither submits it nor reads other scores for it:
its sessions are all in the queue, so nothing of it can still come in.

## Main definitions

* `Process.Keeps`, `State.Keeps`: the invariant, of the live process and of the files
* `Finished`: a task's record in `result.json` has all its sessions

## Main results

* `State.Keeps.step`: every event preserves the invariant
* `Finished.step`: and leaves a finished task alone
* `evaluation_keeps_finished_tasks`: the law over any sequence of runs and kills
-/

open Python Transition

namespace ExternalEval

variable {K α : Type} [Field K] {evaluation : Evaluation α} {state next : State K α}
  {process : Process K α}

/-- What holds of the live process: where it knows all the sessions of a task it polls for, they
are the ones in the queue; and it knows every finished task of the file. -/
structure Process.Keeps (evaluation : Evaluation α) (state : State K α) (process : Process K α) :
    Prop where
  reads : ∀ stage pending count, process.phase = .polling stage pending count →
    ∀ uid ∈ uidsOf process.uidById pending, ∀ scores, process.scores.lookup uid = some scores →
      evaluation.settings.n ≤ scores.length →
      sessionScores (finalOf (uidsOf process.uidById pending) state.partition) uid = scores
  saved : ∀ result ∈ state.result, ∀ record ∈ result.tasks,
    record.scoredSessions = evaluation.settings.n →
    scoresOf evaluation.settings.n process.scores (process.uidById record.taskId) =
      record.sessionScores

/-- The invariant of the files, the queue and the live process. -/
structure State.Keeps (evaluation : Evaluation α) (state : State K α) : Prop where
  names : ∀ uid session, HasSession state.partition uid session →
    session ∈ sessionNames evaluation.settings.n
  written : ∀ result ∈ state.result, ∃ uidById scores statuses,
    result = writeResult evaluation.settings evaluation.settings.split evaluation.samples uidById
      scores statuses
  live : ∀ process ∈ state.live, process.Keeps evaluation state

/-- The task's record in `result.json` has these scores, of all its sessions. -/
def Finished (evaluation : Evaluation α) (state : State K α) (taskId : String)
    (scores : List K) : Prop :=
  scores.length = evaluation.settings.n ∧
    ∃ result ∈ state.result, (∃ record ∈ result.tasks, record.taskId = taskId) ∧
      ∀ record ∈ result.tasks, record.taskId = taskId → record.sessionScores = scores

/-- A record of a written result is the record of its task's sample. -/
theorem mem_writeResult {settings : Settings} {split : String} {samples : List (Sample α)}
    {uidById : String → String} {scores : Scores K} {statuses : Statuses}
    {record : TaskRecord K}
    (h : record ∈ (writeResult settings split samples uidById scores statuses).tasks) :
    record.taskId ∈ samples.map (·.taskId) ∧
      record.sessionScores = scoresOf settings.n scores (uidById record.taskId) ∧
      record.scoredSessions = record.sessionScores.length ∧
      record.score = mean (padded settings.n record.sessionScores) := by
  obtain ⟨sample, hsample, rfl⟩ := List.mem_map.mp h
  exact ⟨List.mem_map_of_mem hsample, rfl, rfl, rfl⟩

theorem exists_mem_writeResult {settings : Settings} {split : String} {samples : List (Sample α)}
    {uidById : String → String} {scores : Scores K} {statuses : Statuses} {taskId : String}
    (h : taskId ∈ samples.map (·.taskId)) :
    ∃ record ∈ (writeResult settings split samples uidById scores statuses).tasks,
      record.taskId = taskId := by
  obtain ⟨sample, hsample, rfl⟩ := List.mem_map.mp h
  exact ⟨_, List.mem_map_of_mem hsample, rfl⟩

/-! ## What a process knows -/

omit [Field K] in
/-- A full list comes from an entry that is full itself. -/
theorem exists_lookup_of_full {n : ℕ} (hn : 0 < n) {scores : Scores K} {uid : String}
    (h : (scoresOf n scores uid).length = n) :
    ∃ known, scores.lookup uid = some known ∧ n ≤ known.length := by
  rw [scoresOf, List.length_take] at h
  cases hlookup : scores.lookup uid with
  | none =>
    rw [hlookup] at h
    simp at h
    omega
  | some known =>
    rw [hlookup] at h
    exact ⟨known, rfl, by simpa using h⟩

omit [Field K] in
/-- **A read changes no full list.** -/
theorem Process.Keeps.scoresOf_read (h : process.Keeps evaluation state)
    {stage pending : List (Sample α)} {count : ℤ}
    (hphase : process.phase = .polling stage pending count) {uid : String}
    (hfull : (scoresOf evaluation.settings.n process.scores uid).length = evaluation.settings.n) :
    scoresOf evaluation.settings.n (state.read process pending).scores uid =
      scoresOf evaluation.settings.n process.scores uid := by
  obtain ⟨known, hknown, hlength⟩ := exists_lookup_of_full evaluation.settings.n_pos hfull
  have hlookup : (state.read process pending).scores.lookup uid = some known := by
    show ((readScores (uidsOf process.uidById pending) state.partition).1 ∪
      process.scores).lookup uid = some known
    by_cases hread : uid ∈ (readScores (uidsOf process.uidById pending) state.partition).1
    · rw [Finmap.lookup_union_left hread, lookup_readScores]
      rw [← Finmap.lookup_isSome, lookup_readScores] at hread
      split_ifs at hread ⊢ with hcond
      · rw [h.reads stage pending count hphase uid hcond.1 known hknown hlength]
      · simp at hread
    · rw [Finmap.lookup_union_right hread, hknown]
  rw [scoresOf, scoresOf, hlookup, hknown]

omit [Field K] in
/-- What a process knows after a read is what the queue has, where it is full. -/
theorem Process.Keeps.read (h : process.Keeps evaluation state) {stage pending : List (Sample α)}
    {count : ℤ} (hphase : process.phase = .polling stage pending count) {uid : String}
    (huid : uid ∈ uidsOf process.uidById pending) {scores : List K}
    (hlookup : (state.read process pending).scores.lookup uid = some scores)
    (hlength : evaluation.settings.n ≤ scores.length) :
    sessionScores (finalOf (uidsOf process.uidById pending) state.partition) uid = scores := by
  change ((readScores (uidsOf process.uidById pending) state.partition).1 ∪
    process.scores).lookup uid = some scores at hlookup
  by_cases hread : uid ∈ (readScores (uidsOf process.uidById pending) state.partition).1
  · rw [Finmap.lookup_union_left hread, lookup_readScores] at hlookup
    split_ifs at hlookup
    exact Option.some_inj.mp hlookup
  · rw [Finmap.lookup_union_right hread] at hlookup
    exact h.reads stage pending count hphase uid huid scores hlookup hlength

omit [Field K] in
/-- The tasks of a result are loaded under the uids of the process. -/
theorem foldlM_loadTask (n : ℕ) (loaded : Scores K × Statuses) {taskIds : List String}
    {uidById : String → String} {tasks : List (TaskRecord K)}
    (hids : ∀ record ∈ tasks, record.taskId ∈ taskIds)
    (hnodup : (tasks.map fun record => uidById record.taskId).Nodup) :
    ∃ loaded', tasks.foldlM (loadTask n taskIds uidById) loaded = .ok loaded' ∧
      (∀ record ∈ tasks, n ≤ record.scoredSessions →
        loaded'.1.lookup (uidById record.taskId) = some record.sessionScores) ∧
      ∀ uid, (∀ record ∈ tasks, uidById record.taskId ≠ uid) →
        loaded'.1.lookup uid = loaded.1.lookup uid := by
  induction tasks generalizing loaded with
  | nil => exact ⟨loaded, rfl, by simp, fun _ _ => rfl⟩
  | cons record tasks ih =>
    rw [List.map_cons, List.nodup_cons] at hnodup
    have hfirst : ∀ other ∈ tasks, uidById other.taskId ≠ uidById record.taskId :=
      fun other hother heq => hnodup.1 (List.mem_map.mpr ⟨other, hother, heq⟩)
    obtain ⟨hid, hids⟩ := List.forall_mem_cons.mp hids
    rw [List.foldlM_cons, loadTask]
    split_ifs with hfull
    · obtain ⟨loaded', hok, htasks, hothers⟩ := ih _ hids hnodup.2
      refine ⟨loaded', hok, ?_, fun uid huid => ?_⟩
      · refine List.forall_mem_cons.mpr ⟨fun _ => ?_, htasks⟩
        rw [hothers _ hfirst, Finmap.lookup_insert]
      · rw [hothers uid fun other hother => huid other (List.mem_cons_of_mem _ hother),
          Finmap.lookup_insert_of_ne _ (huid record (List.mem_cons_self ..)).symm]
    · obtain ⟨loaded', hok, htasks, hothers⟩ := ih _ hids hnodup.2
      refine ⟨loaded', hok, List.forall_mem_cons.mpr ⟨fun h => absurd h hfull, htasks⟩,
        fun uid huid => hothers uid fun other hother => huid other (List.mem_cons_of_mem _ hother)⟩

/-! ## The steps -/

/-- A write of `result.json` puts down what the process knows. -/
theorem State.saved_save (state : State K α) (process : Process K α) :
    ∀ result ∈ (state.save evaluation process).result,
    ∀ record ∈ result.tasks, record.scoredSessions = evaluation.settings.n →
    scoresOf evaluation.settings.n process.scores (process.uidById record.taskId) =
      record.sessionScores := by
  rintro _ ⟨rfl⟩ record hrecord -
  exact (mem_writeResult hrecord).2.1.symm

theorem State.written_save (state : State K α) (process : Process K α) :
    ∀ result ∈ (state.save evaluation process).result,
    ∃ uidById scores statuses, result = writeResult evaluation.settings evaluation.settings.split
      evaluation.samples uidById scores statuses := by
  rintro _ ⟨rfl⟩
  exact ⟨_, _, _, rfl⟩

omit [Field K] in
/-- Entries that are no trajectories of the full tasks leave the invariant alone. -/
theorem Process.Keeps.append (h : process.Keeps evaluation state) {block : Partition K}
    (hblock : ∀ uids uid, evaluation.settings.n ≤
      (sessionScores (finalOf uids state.partition) uid).length →
      ∀ entry ∈ block, ¬ IsTrajectoryOf uid entry) :
    process.Keeps evaluation { state with partition := state.partition ++ block } := by
  refine ⟨fun stage pending count hphase uid huid scores hlookup hlength => ?_, h.saved⟩
  have hread := h.reads stage pending count hphase uid huid scores hlookup hlength
  rw [sessionScores_append (hblock _ uid (hread ▸ hlength)), hread]

namespace State.Keeps

theorem start (h : state.Keeps evaluation) {uidById : String → String}
    (hstart : state.start evaluation uidById = .ok next) : next.Keeps evaluation := by
  obtain ⟨loaded, -, hstart⟩ := bind_eq_ok.mp hstart
  obtain ⟨stages, -, hstart⟩ := bind_eq_ok.mp hstart
  cases hstart
  refine ⟨h.names, written_save state _, ?_⟩
  rintro _ ⟨rfl⟩
  exact ⟨fun _ _ _ hphase => (by cases hphase), saved_save state _⟩

theorem enterStage (h : state.Keeps evaluation) (hlive : state.live = some process)
    (stage : List (Sample α)) (rest : List (List (Sample α))) :
    (state.enterStage evaluation process stage rest).Keeps evaluation := by
  have hprocess := h.live process hlive
  unfold State.enterStage
  simp only
  split_ifs with hpending
  · refine ⟨h.names, h.written, ?_⟩
    rintro _ ⟨rfl⟩
    exact ⟨fun _ _ _ hphase => (by cases hphase), hprocess.saved⟩
  · refine ⟨h.names, h.written, ?_⟩
    rintro _ ⟨rfl⟩
    refine ⟨fun _ _ _ hphase uid huid scores hlookup hlength => ?_, hprocess.saved⟩
    cases hphase
    obtain ⟨sample, hsample, rfl⟩ := List.mem_map.mp huid
    have hshort := (List.mem_filter.mp hsample).2
    rw [decide_eq_true_eq] at hshort
    change process.scores.lookup (process.uidById sample.taskId) = some scores at hlookup
    rw [hlookup] at hshort
    exact absurd hlength (Nat.not_le_of_lt hshort)

/-- A session that comes in is none of a task that has them all. -/
theorem session (h : state.Keeps evaluation) {uid session : String}
    (hname : session ∈ sessionNames evaluation.settings.n)
    (hnew : ¬ HasSession state.partition uid session) (trajectories : List (ℤ × Tag K)) :
    State.Keeps evaluation
      { state with
        partition := state.partition ++
          trajectories.map fun trajectory =>
            (.trajectory uid session trajectory.1, trajectory.2) } := by
  refine ⟨fun uid' session' hhas => ?_, h.written, fun process hlive =>
    (h.live process hlive).append fun uids uid' hfull entry hentry htrajectory => ?_⟩
  · obtain ⟨entry, hentry, index, hkey⟩ := hhas
    rcases List.mem_append.mp hentry with hold | hblock
    · exact h.names uid' session' ⟨entry, hold, index, hkey⟩
    · obtain ⟨trajectory, -, rfl⟩ := List.mem_map.mp hblock
      cases hkey
      exact hname
  · obtain ⟨trajectory, -, rfl⟩ := List.mem_map.mp hentry
    obtain ⟨session', index, hkey⟩ := htrajectory
    cases hkey
    exact hnew (all_sessions_of_length (h.names uid) hfull hname)

theorem status (h : state.Keeps evaluation) (uid : String) (tag : Tag K) :
    State.Keeps evaluation
      { state with partition := state.partition ++ [(.prompt uid, tag)] } := by
  refine ⟨fun uid' session' hhas => ?_, h.written, fun process hlive =>
    (h.live process hlive).append fun uids uid' _ entry hentry htrajectory => ?_⟩
  · obtain ⟨entry, hentry, index, hkey⟩ := hhas
    rcases List.mem_append.mp hentry with hold | hblock
    · exact h.names uid' session' ⟨entry, hold, index, hkey⟩
    · rw [List.mem_singleton.mp hblock] at hkey
      cases hkey
  · obtain ⟨session', index, hkey⟩ := htrajectory
    rw [List.mem_singleton.mp hentry] at hkey
    cases hkey

theorem poll (h : state.Keeps evaluation) (hlive : state.live = some process)
    {stage pending : List (Sample α)} {count : ℤ}
    (hphase : process.phase = .polling stage pending count) (done : Bool) :
    (state.poll evaluation process stage pending count done).Keeps evaluation := by
  have hprocess := h.live process hlive
  have hreads : ∀ stage' pending' count',
      (if done then Phase.stageEnd stage else .polling stage pending
        (current (state.read process pending).scores)) = .polling stage' pending' count' →
      ∀ uid ∈ uidsOf process.uidById pending', ∀ scores,
        (state.read process pending).scores.lookup uid = some scores →
        evaluation.settings.n ≤ scores.length →
        sessionScores (finalOf (uidsOf process.uidById pending') state.partition) uid = scores := by
    intro stage' pending' count' hnext uid huid scores hlookup hlength
    split_ifs at hnext
    cases hnext
    exact hprocess.read hphase huid hlookup hlength
  unfold State.poll
  by_cases hsave : (current (state.read process pending).scores : ℤ) ≠ count ∨ done
  · simp only [if_pos hsave]
    refine ⟨h.names, written_save state _, ?_⟩
    rintro _ ⟨rfl⟩
    exact ⟨hreads, saved_save state _⟩
  · simp only [if_neg hsave]
    refine ⟨h.names, h.written, ?_⟩
    rintro _ ⟨rfl⟩
    refine ⟨hreads, fun result hresult record hrecord hfull => ?_⟩
    have hknown := hprocess.saved result hresult record hrecord hfull
    obtain ⟨_, _, _, hwritten⟩ := h.written result hresult
    have hlength : record.sessionScores.length = evaluation.settings.n :=
      (mem_writeResult (hwritten ▸ hrecord)).2.2.1.symm.trans hfull
    exact (hprocess.scoresOf_read hphase (hknown ▸ hlength)).trans hknown

theorem leaveStage (h : state.Keeps evaluation) (hlive : state.live = some process)
    (stage : List (Sample α)) : (state.leaveStage evaluation process stage).Keeps evaluation := by
  have hprocess := h.live process hlive
  unfold State.leaveStage
  simp only
  split_ifs <;>
  · refine ⟨h.names, h.written, ?_⟩
    rintro _ ⟨rfl⟩
    exact ⟨fun _ _ _ hphase => (by cases hphase), hprocess.saved⟩

/-- Every event preserves the invariant. -/
theorem move (h : state.Keeps evaluation) (hmove : Move evaluation state next) :
    next.Keeps evaluation := by
  cases hmove with
  | start uidById next _ hstart => exact h.start hstart
  | enterStage process stage rest hlive => exact h.enterStage hlive stage rest
  | session uid session trajectories hname hnew => exact h.session hname hnew trajectories
  | status uid tag => exact h.status uid tag
  | poll process stage pending count done hlive hphase => exact h.poll hlive hphase done
  | leaveStage process stage hlive => exact h.leaveStage hlive stage
  | finish process hlive => exact ⟨h.names, written_save state _, by simp⟩
  | kill => exact ⟨h.names, h.written, by simp⟩

end State.Keeps

namespace Finished

variable {taskId : String} {scores : List K}

/-- A live process knows the scores of a finished task. -/
theorem scoresOf_eq (h : Finished evaluation state taskId scores) (hkeeps : state.Keeps evaluation)
    (hlive : state.live = some process) :
    scoresOf evaluation.settings.n process.scores (process.uidById taskId) = scores := by
  obtain ⟨hlength, result, hresult, ⟨record, hrecord, rfl⟩, hscores⟩ := h
  obtain ⟨_, _, _, hwritten⟩ := hkeeps.written result hresult
  have hfull : record.scoredSessions = evaluation.settings.n := by
    rw [(mem_writeResult (hwritten ▸ hrecord)).2.2.1, hscores record hrecord rfl, hlength]
  rw [(hkeeps.live process hlive).saved result hresult record hrecord hfull,
    hscores record hrecord rfl]

theorem taskId_mem (h : Finished evaluation state taskId scores)
    (hkeeps : state.Keeps evaluation) : taskId ∈ evaluation.samples.map (·.taskId) := by
  obtain ⟨-, result, hresult, ⟨record, hrecord, rfl⟩, -⟩ := h
  obtain ⟨_, _, _, hwritten⟩ := hkeeps.written result hresult
  exact (mem_writeResult (hwritten ▸ hrecord)).1

/-- A write by a process that knows the scores keeps the task finished. -/
theorem save (state : State K α) (process : Process K α)
    (hlength : scores.length = evaluation.settings.n)
    (htask : taskId ∈ evaluation.samples.map (·.taskId))
    (hscores : scoresOf evaluation.settings.n process.scores (process.uidById taskId) = scores) :
    Finished evaluation (state.save evaluation process) taskId scores := by
  refine ⟨hlength, _, rfl, exists_mem_writeResult htask, ?_⟩
  rintro record hrecord rfl
  rw [(mem_writeResult hrecord).2.1, hscores]

/-- A process that starts loads the task. -/
theorem start (h : Finished evaluation state taskId scores) (hkeeps : state.Keeps evaluation)
    {uidById : String → String} (hnodup : (uidsOf uidById evaluation.samples).Nodup)
    (hstart : state.start evaluation uidById = .ok next) :
    Finished evaluation next taskId scores := by
  have htask := h.taskId_mem hkeeps
  obtain ⟨hlength, result, hresult, ⟨record, hrecord, rfl⟩, hscores⟩ := h
  obtain ⟨loaded, hloaded, hstart⟩ := bind_eq_ok.mp hstart
  obtain ⟨stages, -, hstart⟩ := bind_eq_ok.mp hstart
  cases hstart
  obtain ⟨uidById', scores', statuses', hwritten⟩ := hkeeps.written result hresult
  have hids : ∀ r ∈ result.tasks, r.taskId ∈ evaluation.samples.map (·.taskId) := fun r hr =>
    (mem_writeResult (hwritten ▸ hr)).1
  have huids : (result.tasks.map fun r => uidById r.taskId).Nodup := by
    have hmap : (result.tasks.map fun r => uidById r.taskId) =
        (result.tasks.map (·.taskId)).map uidById := (List.map_map ..).symm
    rw [hmap, hwritten, writeResult_taskIds, List.map_map]
    exact hnodup
  obtain ⟨loaded', hok, htasks, -⟩ :=
    foldlM_loadTask evaluation.settings.n (∅, ∅) hids huids
  have hsettings : loadScores evaluation uidById state.result = .ok loaded' := by
    rw [Option.mem_def.mp hresult, loadScores, if_neg (by simp [hwritten, writeResult]), hok]
  rw [hsettings] at hloaded
  cases hloaded
  refine save state _ hlength htask ?_
  have hfull : record.scoredSessions = evaluation.settings.n := by
    rw [(mem_writeResult (hwritten ▸ hrecord)).2.2.1, hscores record hrecord rfl, hlength]
  show scoresOf _ loaded.1 (uidById record.taskId) = scores
  rw [scoresOf, htasks record hrecord hfull.ge, hscores record hrecord rfl, Option.getD_some,
    ← hlength, List.take_length]

/-- **No event touches a finished task**: its record keeps its scores, and it is not submitted. -/
theorem move (h : Finished evaluation state taskId scores) (hkeeps : state.Keeps evaluation)
    (hmove : Move evaluation state next) :
    Finished evaluation next taskId scores ∧
      ∃ new, next.submitted = new ++ state.submitted ∧ taskId ∉ new := by
  have hsame : ∃ new, state.submitted = new ++ state.submitted ∧ taskId ∉ new :=
    ⟨[], rfl, List.not_mem_nil⟩
  cases hmove with
  | start uidById next hnodup hstart =>
    refine ⟨h.start hkeeps hnodup hstart, ?_⟩
    obtain ⟨loaded, -, hstart⟩ := bind_eq_ok.mp hstart
    obtain ⟨stages, -, hstart⟩ := bind_eq_ok.mp hstart
    cases hstart
    exact hsame
  | enterStage process stage rest hlive =>
    have hknown := h.scoresOf_eq hkeeps hlive
    unfold State.enterStage
    simp only
    split_ifs
    · exact ⟨h, hsame⟩
    · -- only samples with too few scores are submitted, and the task has them all
      refine ⟨h, _, rfl, fun hmem => ?_⟩
      obtain ⟨sample, hsample, rfl⟩ := List.mem_map.mp hmem
      have hshort := (List.mem_filter.mp hsample).2
      rw [decide_eq_true_eq] at hshort
      have hfull := h.1
      rw [← hknown, scoresOf, List.length_take] at hfull
      omega
  | session => exact ⟨h, hsame⟩
  | status => exact ⟨h, hsame⟩
  | poll process stage pending count done hlive hphase =>
    have hknown := h.scoresOf_eq hkeeps hlive
    -- what was read for a full task is not read again
    have hread := (hkeeps.live process hlive).scoresOf_read hphase (hknown ▸ h.1)
    unfold State.poll
    by_cases hsave : (State.current (state.read process pending).scores : ℤ) ≠ count ∨ done
    · simp only [if_pos hsave]
      exact ⟨save state (state.read process pending) h.1
        (h.taskId_mem hkeeps) (hread.trans hknown), hsame⟩
    · simp only [if_neg hsave]
      exact ⟨h, hsame⟩
  | leaveStage process stage hlive =>
    unfold State.leaveStage
    simp only
    split_ifs <;> exact ⟨h, hsame⟩
  | finish process hlive =>
    exact ⟨save state process h.1 (h.taskId_mem hkeeps) (h.scoresOf_eq hkeeps hlive), hsame⟩
  | kill => exact ⟨h, hsame⟩

end Finished

/-- What every `result.json` is: one record for every sample, whose score is the mean over `n`
sessions with the missing ones as zero, as is the mean over all the samples. -/
def Complete (evaluation : Evaluation α) (result : Result K) : Prop :=
  result.tasks.map (·.taskId) = evaluation.samples.map (·.taskId) ∧
    (∀ record ∈ result.tasks, record.scoredSessions = record.sessionScores.length ∧
      record.sessionScores.length ≤ evaluation.settings.n ∧
      record.score = record.sessionScores.sum / (evaluation.settings.n : K)) ∧
    result.meanScore = (result.tasks.map (·.sessionScores.sum)).sum /
      ((evaluation.samples.length * evaluation.settings.n : ℕ) : K)

theorem State.Keeps.complete (h : state.Keeps evaluation) {result : Result K}
    (hresult : result ∈ state.result) : Complete evaluation result := by
  obtain ⟨uidById, scores, statuses, hwritten⟩ := h.written result hresult
  subst hwritten
  refine ⟨writeResult_taskIds .., fun record hrecord => ?_, writeResult_meanScore ..⟩
  obtain ⟨-, hscores, hcount, hscore⟩ := mem_writeResult hrecord
  have hlength : record.sessionScores.length ≤ evaluation.settings.n :=
    hscores ▸ length_scoresOf_le _ _ _
  refine ⟨hcount, hlength, ?_⟩
  rw [hscore, mean, sum_padded, length_padded hlength]

theorem keeps_of_reaches (h : Reaches (step evaluation) ({} : State K α) state) :
    state.Keeps evaluation := by
  have hinitial : State.Keeps evaluation ({} : State K α) := by
    refine ⟨?_, by simp, by simp⟩
    rintro uid session ⟨entry, hentry, -⟩
    cases hentry
  exact h.invariant hinitial fun _ _ _ ih hstep => ih.move (move_of_step hstep)

theorem Finished.reaches {taskId : String} {scores : List K}
    (h : Finished evaluation state taskId scores) (hkeeps : state.Keeps evaluation)
    (hreaches : Reaches (step evaluation) state next) :
    Finished evaluation next taskId scores ∧
      ∃ new, next.submitted = new ++ state.submitted ∧ taskId ∉ new := by
  suffices hall : next.Keeps evaluation ∧ Finished evaluation next taskId scores ∧
      ∃ new, next.submitted = new ++ state.submitted ∧ taskId ∉ new from hall.2
  refine hreaches.invariant (P := fun s => s.Keeps evaluation ∧
    Finished evaluation s taskId scores ∧
      ∃ new, s.submitted = new ++ state.submitted ∧ taskId ∉ new)
    ⟨hkeeps, h, [], rfl, List.not_mem_nil⟩ ?_
  rintro s event s' ⟨hs, hfinished, new, hnew, hnotMem⟩ hstep
  have hmove := move_of_step hstep
  obtain ⟨hfinished', new', hnew', hnotMem'⟩ := hfinished.move hs hmove
  refine ⟨hs.move hmove, hfinished', new' ++ new, ?_, ?_⟩
  · rw [hnew', hnew, List.append_assoc]
  · rw [List.mem_append, not_or]
    exact ⟨hnotMem', hnotMem⟩

/-- **Finished tasks stay finished.** The stages of a run have each sample once. In every state of
every sequence of runs, killed anywhere, with the sessions succeeding or failing in any order,
`result.json` has one record for every sample, with missing sessions as zero; and from a record
with all its sessions on, the task is never submitted again, and every later `result.json` has
the same session scores, score and number of sessions for it. -/
theorem evaluation_keeps_finished_tasks (evaluation : Evaluation α) (state : State K α)
    (hreaches : Reaches (step evaluation) {} state) :
    (∃ stages, evaluationStages evaluation.samples evaluation.panel = .ok stages ∧
      stages.flatten.Perm evaluation.samples) ∧
    ∀ result ∈ state.result, Complete evaluation result ∧
      ∀ record ∈ result.tasks, record.scoredSessions = evaluation.settings.n →
        ∀ later, Reaches (step evaluation) state later →
          (∃ new, later.submitted = new ++ state.submitted ∧ record.taskId ∉ new) ∧
          ∃ result' ∈ later.result, ∀ record' ∈ result'.tasks, record'.taskId = record.taskId →
            record'.sessionScores = record.sessionScores ∧ record'.score = record.score ∧
              record'.scoredSessions = record.scoredSessions := by
  have hkeeps := keeps_of_reaches hreaches
  refine ⟨?_, fun result hresult => ⟨hkeeps.complete hresult, fun record hrecord hfull later
    hlater => ?_⟩⟩
  · refine evaluationStages_perm evaluation.samples_nodup ?_ ?_
    · unfold Evaluation.panel
      split_ifs
      · exact evaluation.quickIds_nodup
      · exact List.nodup_nil
    · unfold Evaluation.panel
      split_ifs
      · exact evaluation.quickIds_subset
      · exact List.nil_subset _
  · obtain ⟨htaskIds, hrecords, -⟩ := hkeeps.complete hresult
    have hnodup : (result.tasks.map (·.taskId)).Nodup := htaskIds ▸ evaluation.samples_nodup
    have hfinished : Finished evaluation state record.taskId record.sessionScores := by
      refine ⟨(hrecords record hrecord).1.symm.trans hfull, result, hresult,
        ⟨record, hrecord, rfl⟩, fun other hother hid => ?_⟩
      rw [List.inj_on_of_nodup_map hnodup hother hrecord hid]
    obtain ⟨⟨-, result', hresult', -, hscores⟩, hsubmitted⟩ := hfinished.reaches hkeeps hlater
    refine ⟨hsubmitted, result', hresult', fun record' hrecord' hid => ?_⟩
    have hcomplete := (keeps_of_reaches (hreaches.trans hlater)).complete hresult'
    have hsame := hscores record' hrecord' hid
    refine ⟨hsame, ?_, ?_⟩
    · rw [(hcomplete.2.1 record' hrecord').2.2, (hrecords record hrecord).2.2, hsame]
    · rw [(hcomplete.2.1 record' hrecord').1, (hrecords record hrecord).1, hsame]

/-- Two tasks of one session, the second of them the quick panel. -/
def drill : Evaluation Unit where
  settings :=
    { modelPath := "student", n := 1, n_pos := by decide, taskConfigSha256 := "c"
      runtimeManifestSha256 := "m", quickFirst := true, split := "full" }
  samples := [⟨"a", ()⟩, ⟨"b", ()⟩]
  samples_nodup := by decide
  quickIds := ["b"]
  quickIds_nodup := by decide
  quickIds_subset := by decide

/-- The panel's session comes in. -/
def drillPartition : Partition ℚ := [(.trajectory "1b" "0" 0, ⟨"success", 1⟩)]

/-- The process of the drill before it polls. -/
def drillProcess : Process ℚ Unit where
  uidById := ("1" ++ ·)
  scores := ∅
  statuses := ∅
  stages := [[⟨"a", ()⟩]]
  index := 0
  phase := .polling [⟨"b", ()⟩] [⟨"b", ()⟩] (-1)

/-- The drill before its first poll. -/
def drillState : State ℚ Unit where
  result := some (writeResult drill.settings "full" drill.samples ("1" ++ ·) ∅ ∅)
  partition := drillPartition
  live := some drillProcess
  submitted := ["b"]

theorem sessionScores_drill : sessionScores (finalOf ["1b"] drillPartition) "1b" = [1] := by
  have hsessions : sessionsOf (finalOf ["1b"] drillPartition) "1b" = ["0"] := by
    have hset : ((finalOf ["1b"] drillPartition).keys.filter (·.1 = "1b")).image Prod.snd =
        {"0"} := by
      decide +kernel
    rw [sessionsOf, hset, Finset.sort_singleton]
  rw [sessionScores, hsessions]
  rfl

theorem drill_keeps_finished_task : ∃ state : State ℚ Unit, Reaches (step drill) {} state ∧
    ∀ later, Reaches (step drill) state later →
      ∃ new, later.submitted = new ++ ["b"] ∧ "b" ∉ new := by
  have hbefore : Transition.run (step drill) ({} : State ℚ Unit)
      [.start ("1" ++ ·), .enterStage, .session "1b" "0" [(0, ⟨"success", 1⟩)]] =
        some drillState := rfl
  have hreaches := (reaches_iff_run.mpr ⟨_, hbefore⟩).tail (.poll true) rfl
  refine ⟨_, hreaches, fun later hlater => ?_⟩
  have hscores : (drillState.read drillProcess [⟨"b", ()⟩]).scores.lookup "1b" = some [1] := by
    have hread : (readScores ["1b"] drillPartition).1.lookup "1b" = some [1] := by
      rw [lookup_readScores, sessionScores_drill]
      rfl
    exact Finmap.mem_lookup_union.mpr (Or.inl hread)
  have hrecord := ((evaluation_keeps_finished_tasks drill _ hreaches).2 _ rfl).2
    (taskRecord 1 ("1" ++ ·) (drillState.read drillProcess [⟨"b", ()⟩]).scores
      (drillState.read drillProcess [⟨"b", ()⟩]).statuses ⟨"b", ()⟩)
    (List.mem_map_of_mem (by simp [drill]))
  refine (hrecord ?_ later hlater).1
  show ((((drillState.read drillProcess [⟨"b", ()⟩]).scores.lookup "1b").getD []).take 1).length = 1
  rw [hscores]
  rfl

end ExternalEval
