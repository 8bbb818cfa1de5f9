import Mathlib.Algebra.Order.BigOperators.Group.List
import Mathlib.Tactic.NormNum
import CodingOpd.CodexEval.Scheduler

/-!
# The results of a phase

`_run` rewrites `result.json` each time it has collected a record. What it writes is the payload of
the records that it has, and a phase that returns has the same records in whatever order its tasks
end.

## Main definitions

* `Expected`: a dictionary of records holds records of the suite, each under its task
* `Scheduler.result`, `Scheduler.writes`: the payload of a state, and the states that are written
* `Scheduler.Consistent`: what a payload says of the records that are inherited and collected
* `Payload.map`: a payload whose records store something else

## Main results

* `Scheduler.consistent`: every payload is consistent
* `Scheduler.lowerBound_mono`: the lower bound of the mean score never decreases
* `Scheduler.result_eq_of_returned`: the payload that a phase ends with
* `Scheduler.results_of_run`: the results of a phase
-/

open Python Transition

namespace CodexEval

/-! ## Payloads -/

section Payloads

variable {V R S : Type}

/-- The record with something else stored in it. -/
def Record.map (f : R → S) (record : Record R) : Record S where
  taskId := record.taskId
  score := record.score
  status := record.status
  finished := record.finished
  runFingerprint := record.runFingerprint
  details := f record.details

/-- The payload with something else stored in its records. -/
def Payload.map (f : R → S) (payload : Payload V R) : Payload V S where
  complete := payload.complete
  runIdentity := payload.runIdentity
  runFingerprint := payload.runFingerprint
  numTasks := payload.numTasks
  completedTasks := payload.completedTasks
  pendingTasks := payload.pendingTasks
  scoredSessions := payload.scoredSessions
  meanScore := payload.meanScore
  meanScoreCompleted := payload.meanScoreCompleted
  meanScoreLowerBound := payload.meanScoreLowerBound
  resumeProvenance := payload.resumeProvenance
  tasks := payload.tasks.map (Record.map f)

variable {fingerprint : Identity V → String} {identity : Identity V} {taskIds : List String}
  {records later : Records R} {provenance : Option (Provenance V)}

/-- What is computed of the records does not look at what they store. -/
theorem resultPayload_map_congr {f : R → S}
    (h : (taskIds.filterMap records.lookup).map (Record.map f) =
      (taskIds.filterMap later.lookup).map (Record.map f)) :
    (resultPayload fingerprint identity taskIds records provenance).map f =
      (resultPayload fingerprint identity taskIds later provenance).map f := by
  have hlength : (taskIds.filterMap records.lookup).length =
      (taskIds.filterMap later.lookup).length := by
    simpa using congrArg List.length h
  have hscores : (taskIds.filterMap records.lookup).map (·.score) =
      (taskIds.filterMap later.lookup).map (·.score) := by
    simpa [Function.comp_def, Record.map] using congrArg (List.map Record.score) h
  have hcount : (taskIds.filterMap records.lookup).countP (·.status = .success) =
      (taskIds.filterMap later.lookup).countP (·.status = .success) := by
    have hmapped := congrArg (List.countP fun record : Record S => record.status = .success) h
    rw [List.countP_map, List.countP_map] at hmapped
    exact hmapped
  simp only [resultPayload, Payload.map, hlength, hscores, hcount, h]

/-- The records are of tasks that are expected, each under its own. -/
def Expected (taskIds : List String) (records : Records R) : Prop :=
  ∀ taskId record, records.lookup taskId = some record →
    record.taskId = taskId ∧ taskId ∈ taskIds

/-- The score of a task, zero while it has no record. -/
def scoreOf (records : Records R) (taskId : String) : ℚ :=
  (records.lookup taskId).elim 0 (·.score)

theorem sum_scores (taskIds : List String) (records : Records R) :
    ((taskIds.filterMap records.lookup).map (·.score)).sum =
      (taskIds.map (scoreOf records)).sum := by
  induction taskIds with
  | nil => rfl
  | cons taskId taskIds ih =>
    rw [List.map_cons, List.sum_cons, ← ih, scoreOf, List.filterMap_cons]
    cases records.lookup taskId with
    | none => exact (zero_add _).symm
    | some record =>
      rw [List.map_cons, List.sum_cons]
      rfl

/-- The lower bound counts a task without a record as zero. -/
theorem meanScoreLowerBound_eq :
    (resultPayload fingerprint identity taskIds records provenance).meanScoreLowerBound =
      (taskIds.map (scoreOf records)).sum / taskIds.length := by
  show (if taskIds.length ≠ 0 then _ / _ else 0) = _
  split
  case isTrue => rw [sum_scores]
  case isFalse hempty =>
    rw [not_not.mp hempty, Nat.cast_zero, div_zero]

/-- **The lower bound never decreases** while records are added and none has a negative score. -/
theorem meanScoreLowerBound_mono (h : ∀ taskId, scoreOf records taskId ≤ scoreOf later taskId) :
    (resultPayload fingerprint identity taskIds records provenance).meanScoreLowerBound ≤
      (resultPayload fingerprint identity taskIds later provenance).meanScoreLowerBound := by
  rw [meanScoreLowerBound_eq, meanScoreLowerBound_eq]
  apply div_le_div_of_nonneg_right _ (Nat.cast_nonneg _)
  exact List.sum_le_sum fun taskId _ => h taskId

/-- The mean of the records that are there. -/
theorem meanScoreCompleted_eq :
    (resultPayload fingerprint identity taskIds records provenance).meanScoreCompleted =
      if (resultPayload fingerprint identity taskIds records provenance).tasks = [] then none
      else
        some (((resultPayload fingerprint identity taskIds records provenance).tasks.map
          (·.score)).sum /
          (resultPayload fingerprint identity taskIds records provenance).tasks.length) := by
  simp only [resultPayload, ne_eq, List.map_eq_nil_iff, List.length_map, ite_not]

theorem length_ordered_le (taskIds : List String) (records : Records R) :
    (taskIds.filterMap records.lookup).length ≤ taskIds.length := List.length_filterMap_le _ _

theorem completed_add_pending :
    (resultPayload fingerprint identity taskIds records provenance).completedTasks +
      (resultPayload fingerprint identity taskIds records provenance).pendingTasks =
      (resultPayload fingerprint identity taskIds records provenance).numTasks :=
  Nat.add_sub_of_le (length_ordered_le taskIds records)

/-- **The mean score** is there when no task is pending, and then is the lower bound. -/
theorem meanScore_eq :
    (resultPayload fingerprint identity taskIds records provenance).meanScore =
      if (resultPayload fingerprint identity taskIds records provenance).pendingTasks = 0 then
        some (resultPayload fingerprint identity taskIds records provenance).meanScoreLowerBound
      else none := by
  have hle := length_ordered_le taskIds records
  have hscores : ((taskIds.filterMap records.lookup).map (·.score)).length =
      (taskIds.filterMap records.lookup).length := List.length_map _
  simp only [resultPayload, decide_eq_true_eq]
  by_cases hcomplete : (taskIds.filterMap records.lookup).length = taskIds.length
  · rw [if_pos (show taskIds.length - _ = 0 by omega)]
    by_cases hempty : (taskIds.filterMap records.lookup).map (·.score) = []
    · -- no task, and no score
      have hnone : taskIds.length = 0 := by
        rw [← hcomplete, ← hscores, hempty, List.length_nil]
      rw [if_neg fun h => h.2 hempty, if_pos hcomplete, if_neg (not_not.mpr hnone)]
    · have hsome : taskIds.length ≠ 0 := by
        rw [← hcomplete, ← hscores]
        exact fun h => hempty (List.length_eq_zero_iff.mp h)
      rw [if_pos ⟨hcomplete, hempty⟩, if_pos hsome, hscores, hcomplete]
  · rw [if_neg fun h => hcomplete h.1, if_neg hcomplete, if_neg (by omega)]

/-- **The records are listed in the order of the samples.** -/
theorem tasks_sublist (h : Expected taskIds records) :
    ((resultPayload fingerprint identity taskIds records provenance).tasks.map
      (·.taskId)).Sublist taskIds := by
  show ((taskIds.filterMap records.lookup).map (·.taskId)).Sublist taskIds
  have hids : (taskIds.filterMap records.lookup).map (·.taskId) =
      taskIds.filter fun taskId => (records.lookup taskId).isSome := by
    rw [List.map_filterMap, ← List.filterMap_eq_filter]
    apply List.filterMap_congr
    intro taskId _
    cases hlookup : records.lookup taskId with
    | none => simp [Option.guard, hlookup]
    | some record => simp [Option.guard, hlookup, (h taskId record hlookup).1]
  rw [hids]
  exact List.filter_sublist

theorem mem_tasks (h : Expected taskIds records) {record : Record R} :
    record ∈ (resultPayload fingerprint identity taskIds records provenance).tasks ↔
      records.lookup record.taskId = some record := by
  show record ∈ taskIds.filterMap records.lookup ↔ _
  rw [List.mem_filterMap]
  constructor
  · rintro ⟨taskId, -, hlookup⟩
    rwa [(h taskId record hlookup).1]
  · intro hlookup
    exact ⟨record.taskId, (h _ record hlookup).2, hlookup⟩

/-! ## Outcomes -/

/-- The score of the record that an outcome leaves. -/
def Outcome.score : Outcome R → ℚ
  | .success reward _ _ => reward
  | .error _ => 0

/-! ## The records that a phase starts with -/

theorem Expected.empty : Expected taskIds (∅ : Records R) := by
  intro taskId record hlookup
  rw [Finmap.lookup_empty] at hlookup
  cases hlookup

theorem Expected.insert (h : Expected taskIds records) {record : Record R}
    (hrecord : record.taskId ∈ taskIds) :
    Expected taskIds (records.insert record.taskId record) := by
  intro taskId found hlookup
  by_cases heq : taskId = record.taskId
  · rw [heq, Finmap.lookup_insert, Option.some_inj] at hlookup
    exact ⟨hlookup ▸ heq.symm, heq ▸ hrecord⟩
  · rw [Finmap.lookup_insert_of_ne _ heq] at hlookup
    exact h taskId found hlookup

theorem Expected.loadRecords {dir : RecordsDir R} {runFingerprint : String}
    (h : CodexEval.loadRecords dir taskIds runFingerprint = .ok records) :
    Expected taskIds records := by
  refine foldlM_invariant (P := Expected taskIds) .empty h ?_
  intro before file after hbefore hround
  unfold loadRecord at hround
  split_ifs at hround with htask
  cases hround
  exact hbefore.insert htask

theorem Expected.resumeRecords [DecidableEq V] [DecidableEq R] {args : Args V}
    {source : Option (RunDir V R)} {resumeProvenance : Option (Provenance V)}
    (h : CodexEval.resumeRecords fingerprint args source taskIds =
      .ok (records, resumeProvenance)) :
    Expected taskIds records := by
  cases source with
  | none =>
    cases h
    exact .empty
  | some source =>
    unfold CodexEval.resumeRecords at h
    dsimp only at h
    by_cases hpath : source.resultPath = args.resultPath
    · rw [if_pos hpath] at h
      cases h
    · by_cases hid : fingerprint source.result.runIdentity ≠ source.result.runFingerprint
      · rw [if_neg hpath, if_pos hid] at h
        cases h
      rw [if_neg hpath, if_neg hid] at h
      obtain ⟨-, -, h⟩ := bind_eq_ok.mp h
      obtain ⟨loaded, hloaded, h⟩ := bind_eq_ok.mp h
      obtain ⟨imported, himported, h⟩ := bind_eq_ok.mp h
      cases h
      refine foldlM_invariant (P := Expected taskIds) (.loadRecords hloaded) himported ?_
      intro before record after hbefore hround
      unfold importTask at hround
      split_ifs at hround with htask
      cases hround
      exact hbefore.insert (not_not.mp (not_or.mp htask).1)

/-- **What `main` starts a phase with** is expected. -/
theorem Expected.mainStart [DecidableEq V] [DecidableEq R] {args : Args V} {own : RecordsDir R}
    {source : Option (RunDir V R)} {run : RunDir V R}
    (h : CodexEval.mainStart fingerprint taskIds args own source = .ok (records, run)) :
    Expected taskIds records := by
  obtain ⟨loaded, hloaded, h⟩ := bind_eq_ok.mp h
  obtain ⟨⟨inherited, resumeProvenance⟩, hinherited, h⟩ := bind_eq_ok.mp h
  dsimp only at h
  split_ifs at h
  · cases h
    intro taskId record hlookup
    rw [← Option.mem_def, Finmap.mem_lookup_union] at hlookup
    rcases hlookup with hown | ⟨-, hsource⟩
    · exact Expected.loadRecords hloaded taskId record hown
    · exact Expected.resumeRecords hinherited taskId record hsource
  · cases h

end Payloads

namespace Scheduler

variable {V E : Type} {suite : Suite V} {phase : RunDir V (Details E)} {slots : Slots}
  {runFingerprint : String} {records : Records (Details E)} {recordsDir : RecordsDir (Details E)}
  {events events' : List (Event E)} {s t u : Scheduler (Details E)}

/-- What `_run` writes of its records. -/
def result (suite : Suite V) (phase : RunDir V (Details E)) (s : Scheduler (Details E)) :
    Payload V (Details E) :=
  resultPayload suite.fingerprint phase.result.runIdentity suite.taskIds s.records
    phase.result.resumeProvenance

/-- The event has rewritten `result.json`. -/
def wrote (s : Scheduler (Details E)) : Event E → Bool
  | .collect true => !s.raised
  | _ => false

/-- The states that `_run` writes along the events. -/
def writes (suite : Suite V) (runFingerprint : String) (s : Scheduler (Details E)) :
    List (Event E) → List (Scheduler (Details E))
  | [] => []
  | event :: events =>
    match s.step suite runFingerprint event with
    | none => []
    | some t => (if t.wrote event then [t] else []) ++ writes suite runFingerprint t events

/-- What a payload says of the records that the phase started with and those that are collected. -/
structure Consistent (suite : Suite V) (records : Records (Details E))
    (collected : List (String × Ending (Details E))) (payload : Payload V (Details E)) : Prop where
  numTasks_eq : payload.numTasks = suite.taskIds.length
  completed_add_pending : payload.completedTasks + payload.pendingTasks = payload.numTasks
  completed_eq : payload.completedTasks = payload.tasks.length
  in_order : (payload.tasks.map (·.taskId)).Sublist suite.taskIds
  mem_tasks : ∀ record, record ∈ payload.tasks ↔
    records.lookup record.taskId = some record ∨ (record.taskId, .returned record) ∈ collected
  scoredSessions_eq : payload.scoredSessions =
    (payload.tasks.filter fun record => record.status = .success).length
  /-- A task without a record counts as zero. -/
  meanScoreLowerBound_eq : payload.meanScoreLowerBound =
    (payload.tasks.map (·.score)).sum / suite.taskIds.length
  meanScoreCompleted_eq : payload.meanScoreCompleted =
    if payload.tasks = [] then none
    else some ((payload.tasks.map (·.score)).sum / payload.tasks.length)
  meanScore_eq : payload.meanScore =
    if payload.pendingTasks = 0 then some payload.meanScoreLowerBound else none

/-! ## Payloads along a run -/

/-- A state that is written is reached by the events before. -/
theorem exists_run_of_mem_writes (h : t ∈ writes suite runFingerprint s events) :
    ∃ before after, events = before ++ after ∧
      run (step suite runFingerprint) s before = some t := by
  induction events generalizing s with
  | nil => cases h
  | cons event events ih =>
    rw [writes] at h
    cases hstep : s.step suite runFingerprint event with
    | none =>
      rw [hstep] at h
      cases h
    | some next =>
      rw [hstep] at h
      rcases List.mem_append.mp h with hnow | hlater
      · have hnext : t = next := by
          split_ifs at hnow
          · exact List.mem_singleton.mp hnow
          · cases hnow
        refine ⟨[event], events, rfl, ?_⟩
        rw [hnext]
        simp only [run, hstep, Option.bind_some]
      · obtain ⟨before, after, rfl, hrun⟩ := ih hlater
        refine ⟨event :: before, after, rfl, ?_⟩
        rw [run, hstep, Option.bind_some, hrun]

/-- The states that are written are reached one from the other. -/
theorem pairwise_writes : (writes suite runFingerprint s events).Pairwise
    (Reaches (step suite runFingerprint)) := by
  induction events generalizing s with
  | nil => exact .nil
  | cons event events ih =>
    rw [writes]
    cases s.step suite runFingerprint event with
    | none => exact .nil
    | some next =>
      dsimp only
      split_ifs
      · refine List.Pairwise.cons (fun later hlater => ?_) ih
        obtain ⟨before, -, -, hrun⟩ := exists_run_of_mem_writes hlater
        exact reaches_iff_run.mpr ⟨before, hrun⟩
      · exact ih

/-- What is collected stays collected. -/
theorem collected_subset_of_reaches (h : Reaches (step suite runFingerprint) s t) :
    s.collected ⊆ t.collected := by
  refine h.invariant (P := fun t => s.collected ⊆ t.collected) (List.Subset.refl _) ?_
  intro before event after hbefore hstep
  cases move_of_step hstep with
  | acquire => exact hbefore
  | take => exact hbefore
  | ends => exact hbefore
  | interrupt => exact hbefore
  | @collect task done resultWritten =>
    have hcollected : (before.collectTask done task resultWritten).collected =
        before.collected ++ [task] := by
      obtain ⟨taskId, record | - | -⟩ := task
      · rfl
      · rfl
      · rfl
    rw [hcollected]
    exact List.subset_append_of_subset_left _ hbefore

namespace Holds

/-- The records that are known are those from the start and those collected. -/
theorem lookup_iff (h : Holds suite slots runFingerprint records recordsDir events s)
    {taskId : String} {record : Record (Details E)} :
    s.records.lookup taskId = some record ↔
      records.lookup taskId = some record ∨ (taskId, .returned record) ∈ s.collected := by
  by_cases hcollected : ∃ found, (taskId, .returned found) ∈ s.collected
  · obtain ⟨found, hfound⟩ := hcollected
    have hnone : records.lookup taskId = none := by
      have hpending := h.mem_pending (List.mem_append_left _ hfound)
      exact Finmap.lookup_eq_none.mpr (of_decide_eq_true (List.mem_filter.mp hpending).2)
    rw [hnone, h.lookup_collected taskId found hfound, Option.some_inj]
    constructor
    · rintro rfl
      exact Or.inr hfound
    · rintro (hstart | hmem)
      · cases hstart
      · exact Ending.returned.inj (h.ending_unique (List.mem_append_left _ hfound)
          (List.mem_append_left _ hmem))
  · rw [h.lookup_other taskId (not_exists.mp hcollected)]
    exact (or_iff_left fun hmem => hcollected ⟨record, hmem⟩).symm

theorem expected (h : Holds suite slots runFingerprint records recordsDir events s)
    (hstart : Expected suite.taskIds records) : Expected suite.taskIds s.records := by
  intro taskId record hlookup
  rcases h.lookup_iff.mp hlookup with hold | hcollected
  · exact hstart taskId record hold
  · have hending := List.mem_append_left s.done hcollected
    obtain ⟨event, -, hends⟩ := h.explained _ hending
    exact ⟨hends.taskId_eq, (List.mem_filter.mp (h.mem_pending hending)).1⟩

/-- **Every payload is consistent** with the records that are inherited and collected. -/
theorem consistent (h : Holds suite slots runFingerprint records recordsDir events s)
    (hstart : Expected suite.taskIds records) :
    Consistent suite records s.collected (result suite phase s) where
  numTasks_eq := rfl
  completed_add_pending := CodexEval.completed_add_pending
  completed_eq := rfl
  in_order := tasks_sublist (h.expected hstart)
  mem_tasks _ := (CodexEval.mem_tasks (h.expected hstart)).trans h.lookup_iff
  scoredSessions_eq := List.countP_eq_length_filter ..
  meanScoreLowerBound_eq := CodexEval.meanScoreLowerBound_eq.trans (by rw [← sum_scores]; rfl)
  meanScoreCompleted_eq := meanScoreCompleted_eq
  meanScore_eq := CodexEval.meanScore_eq

/-- Known records stay, and further ones have the scores that tasks have ended with. -/
theorem scoreOf_mono (hs : Holds suite slots runFingerprint records recordsDir events s)
    (ht : Holds suite slots runFingerprint records recordsDir events' t)
    (hcollected : s.collected ⊆ t.collected)
    (hscores : ∀ taskId record, (taskId, .returned record) ∈ t.collected → 0 ≤ record.score)
    (taskId : String) : scoreOf s.records taskId ≤ scoreOf t.records taskId := by
  unfold scoreOf
  cases hlookup : s.records.lookup taskId with
  | some record =>
    have hkept : t.records.lookup taskId = some record :=
      ht.lookup_iff.mpr ((hs.lookup_iff.mp hlookup).imp_right fun hmem => hcollected hmem)
    rw [hkept]
  | none =>
    cases hlater : t.records.lookup taskId with
    | none => exact le_rfl
    | some record =>
      rcases ht.lookup_iff.mp hlater with hold | hnew
      · rw [hs.lookup_iff.mpr (Or.inl hold)] at hlookup
        cases hlookup
      · exact hscores taskId record hnew

end Holds

/-! ## The end of a run -/

theorem writes_append_singleton {event : Event E}
    (hrun : run (step suite runFingerprint) s events = some t)
    (hstep : t.step suite runFingerprint event = some u) :
    writes suite runFingerprint s (events ++ [event]) =
      writes suite runFingerprint s events ++ if u.wrote event then [u] else [] := by
  induction events generalizing s with
  | nil =>
    cases hrun
    simp only [List.nil_append, writes, hstep, List.append_nil]
  | cons first events ih =>
    rw [run] at hrun
    obtain ⟨next, hnext, hrun⟩ := Option.bind_eq_some_iff.mp hrun
    rw [List.cons_append, writes, writes, hnext]
    dsimp only
    rw [ih hrun, List.append_assoc]

/-- An event that does not raise leaves the records alone, or is a turn that writes them. -/
theorem records_of_step {event : Event E} (hstep : s.step suite runFingerprint event = some t)
    (hraised : t.raised = false) :
    s.raised = false ∧ (t.wrote event = true ∨ t.wrote event = false ∧ t.records = s.records) := by
  cases move_of_step hstep with
  | acquire => exact ⟨hraised, Or.inr ⟨rfl, rfl⟩⟩
  | take => exact ⟨hraised, Or.inr ⟨rfl, rfl⟩⟩
  | ends hends =>
    refine ⟨hraised, Or.inr ⟨?_, rfl⟩⟩
    cases hends with
    | finish => rfl
    | mkdirFails => rfl
    | writeFails => rfl
    | cancel => rfl
  | @collect task done resultWritten hbefore =>
    refine ⟨hbefore, Or.inl ?_⟩
    obtain ⟨taskId, record | - | -⟩ := task
    · cases resultWritten with
      | true => rfl
      | false => cases hraised
    · cases hraised
    · cases hraised
  | interrupt => cases hraised

/-- **While nothing is raised**, `result.json` is the payload of the records. -/
theorem result_eq_last (hrun : run (step suite runFingerprint) s events = some t)
    (hraised : t.raised = false) :
    ((writes suite runFingerprint s events).getLast?.map (result suite phase)).getD
      (result suite phase s) = result suite phase t := by
  induction events using List.reverseRecOn generalizing t with
  | nil =>
    cases hrun
    rfl
  | append_singleton events event ih =>
    rw [run_append] at hrun
    obtain ⟨before, hbefore, hlast⟩ := Option.bind_eq_some_iff.mp hrun
    obtain ⟨after, hstep, hnil⟩ := Option.bind_eq_some_iff.mp hlast
    cases hnil
    rw [writes_append_singleton hbefore hstep]
    obtain ⟨hquiet, hwrote | ⟨hwrote, hrecords⟩⟩ := records_of_step hstep hraised
    · rw [if_pos hwrote, List.getLast?_concat]
      rfl
    · rw [hwrote, if_neg Bool.false_ne_true, List.append_nil, ih hbefore hquiet, result, result,
        hrecords]

/-- Each task has the same outcome in the events, where it has one in both. -/
def SameOutcomes (events events' : List (Event E)) : Prop :=
  ∀ taskId outcome outcome', .finish taskId outcome ∈ events → .finish taskId outcome' ∈ events' →
    outcome = outcome'

theorem Reports.score_eq {taskId : String} {backend : Backend} {outcome : Outcome E}
    {record : Record (Details E)} (h : Reports runFingerprint taskId backend outcome record) :
    record.score = outcome.score := by
  cases h <;> rfl

/-- Where two tasks of one name have the same outcome, their records differ in the backend only. -/
theorem Reports.extraInfo_eq {taskId : String} {backend backend' : Backend} {outcome : Outcome E}
    {record record' : Record (Details E)}
    (h : Reports runFingerprint taskId backend outcome record)
    (h' : Reports runFingerprint taskId backend' outcome record') :
    record.map Details.extraInfo = record'.map Details.extraInfo := by
  cases h <;> cases h' <;> rfl

namespace Holds

/-- The scores that are collected are those of outcomes. -/
theorem score_nonneg (h : Holds suite slots runFingerprint records recordsDir events s)
    (hscores : ∀ taskId outcome, .finish taskId outcome ∈ events → 0 ≤ outcome.score)
    {taskId : String} {record : Record (Details E)}
    (hmem : (taskId, .returned record) ∈ s.collected) : 0 ≤ record.score := by
  obtain ⟨outcome, backend, hevent, hreports⟩ := h.earned (List.mem_append_left _ hmem)
  rw [hreports.score_eq]
  exact hscores taskId outcome hevent

/-- When `_run` has returned, each pending task has the record of its outcome. -/
theorem earned_of_returned (h : Holds suite slots runFingerprint records recordsDir events s)
    (hreturned : s.Returned) {taskId : String} (hpending : taskId ∈ pending suite records) :
    ∃ record, s.records.lookup taskId = some record ∧
      Earned runFingerprint events taskId record := by
  obtain ⟨ending, hending⟩ := h.exists_ending hreturned.1 hpending
  rw [endings, hreturned.2.1, List.append_nil] at hending
  obtain ⟨record, hrecord⟩ := h.returned hreturned.2.2 _ hending
  dsimp only at hrecord
  subst hrecord
  exact ⟨record, h.lookup_collected taskId record hending,
    h.earned (List.mem_append_left _ hending)⟩

/-- A task of the suite has a record from the start, or is pending. -/
theorem lookup_of_returned (h : Holds suite slots runFingerprint records recordsDir events s)
    (hreturned : s.Returned) {taskId : String} (hmem : taskId ∈ suite.taskIds) :
    ∃ record, s.records.lookup taskId = some record ∧
      (records.lookup taskId = some record ∨ records.lookup taskId = none ∧
        Earned runFingerprint events taskId record) := by
  cases hlookup : records.lookup taskId with
  | some record => exact ⟨record, h.lookup_iff.mpr (Or.inl hlookup), Or.inl rfl⟩
  | none =>
    have hpending : taskId ∈ pending suite records :=
      List.mem_filter.mpr ⟨hmem, decide_eq_true (Finmap.lookup_eq_none.mp hlookup)⟩
    obtain ⟨record, hrecord, hearned⟩ := h.earned_of_returned hreturned hpending
    exact ⟨record, hrecord, Or.inr ⟨rfl, hearned⟩⟩

/-- **When `_run` has returned**, no task is pending. -/
theorem pendingTasks_of_returned
    (h : Holds suite slots runFingerprint records recordsDir events s) (hreturned : s.Returned) :
    (result suite phase s).pendingTasks = 0 := by
  show suite.taskIds.length - (suite.taskIds.filterMap s.records.lookup).length = 0
  have hall : ∀ taskId ∈ suite.taskIds, (s.records.lookup taskId).isSome = true := by
    intro taskId hmem
    obtain ⟨record, hrecord, -⟩ := h.lookup_of_returned hreturned hmem
    rw [hrecord]
    rfl
  rw [List.length_filterMap_eq_countP, List.countP_eq_length.mpr hall, Nat.sub_self]

/-- **The payload at the end** does not depend on the order in which the tasks end, apart from the
backends that they ran on. -/
theorem result_map_eq {s' : Scheduler (Details E)}
    (h : Holds suite slots runFingerprint records recordsDir events s)
    (h' : Holds suite slots runFingerprint records recordsDir events' s')
    (hreturned : s.Returned) (hreturned' : s'.Returned) (hsame : SameOutcomes events events') :
    (result suite phase s).map Details.extraInfo =
      (result suite phase s').map Details.extraInfo := by
  apply resultPayload_map_congr
  rw [List.map_filterMap, List.map_filterMap]
  apply List.filterMap_congr
  intro taskId hmem
  obtain ⟨record, hrecord, hfrom⟩ := h.lookup_of_returned hreturned hmem
  obtain ⟨record', hrecord', hfrom'⟩ := h'.lookup_of_returned hreturned' hmem
  rw [hrecord, hrecord']
  rcases hfrom with hold | ⟨hnone, outcome, backend, hevent, hreports⟩
  · rcases hfrom' with hold' | ⟨hnone', -⟩
    · rw [hold, Option.some_inj] at hold'
      rw [hold']
    · rw [hold] at hnone'
      cases hnone'
  · rcases hfrom' with hold' | ⟨-, outcome', backend', hevent', hreports'⟩
    · rw [hold'] at hnone
      cases hnone
    · rw [← hsame taskId outcome outcome' hevent hevent'] at hreports'
      rw [Option.map_some, Option.map_some, hreports.extraInfo_eq hreports']

end Holds

/-- The first `result.json` of a phase is the payload of the records that it starts with. -/
theorem result_of_mainStart [DecidableEq V] [DecidableEq E] {args : Args V}
    {own : RecordsDir (Details E)} {source : Option (RunDir V (Details E))} (slots : Slots)
    (h : mainStart suite.fingerprint suite.taskIds args own source = .ok (records, phase)) :
    result suite phase (start suite slots records phase.records) = phase.result := by
  obtain ⟨loaded, -, h⟩ := bind_eq_ok.mp h
  obtain ⟨⟨inherited, provenance⟩, -, h⟩ := bind_eq_ok.mp h
  dsimp only at h
  split_ifs at h
  · cases h
    rfl
  · cases h

/-- The state of a phase after events. -/
abbrev after (suite : Suite V) (slots : Slots) (phase : RunDir V (Details E))
    (records : Records (Details E)) (events : List (Event E)) : Option (Scheduler (Details E)) :=
  run (step suite phase.result.runFingerprint) (start suite slots records phase.records) events

/-- The states that a phase writes along events. -/
abbrev written (suite : Suite V) (slots : Slots) (phase : RunDir V (Details E))
    (records : Records (Details E)) (events : List (Event E)) : List (Scheduler (Details E)) :=
  writes suite phase.result.runFingerprint (start suite slots records phase.records) events

/-- **The results of a phase.** Every `result.json` that `_run` writes is consistent with the
records that are inherited and collected, and the lower bound of the mean score never decreases
from one to the next. When `_run` returns, the mean score of the last one is its lower bound, which
is the highest; the payload is the same but for the backends in whatever order the tasks end. -/
theorem results_of_run [DecidableEq V] [DecidableEq E] {args : Args V}
    {own : RecordsDir (Details E)} {source : Option (RunDir V (Details E))}
    (hstart : mainStart suite.fingerprint suite.taskIds args own source = .ok (records, phase))
    (hrun : after suite slots phase records events = some s)
    (hscores : ∀ taskId outcome, .finish taskId outcome ∈ events →
      0 ≤ outcome.score ∧ outcome.score ≤ 1) :
    (∀ t ∈ written suite slots phase records events,
      Consistent suite records t.collected (result suite phase t)) ∧
    (written suite slots phase records events).Pairwise (fun t u =>
      (result suite phase t).meanScoreLowerBound ≤ (result suite phase u).meanScoreLowerBound) ∧
    (s.Returned →
      ((written suite slots phase records events).getLast?.map (result suite phase)).getD
        phase.result = result suite phase s ∧
      (result suite phase s).meanScore = some (result suite phase s).meanScoreLowerBound ∧
      ∀ t ∈ written suite slots phase records events,
        (result suite phase t).meanScoreLowerBound ≤
          (result suite phase s).meanScoreLowerBound) ∧
    ∀ events' s', after suite slots phase records events' = some s' → s.Returned → s'.Returned →
      SameOutcomes events events' →
      (result suite phase s).map Details.extraInfo =
        (result suite phase s').map Details.extraInfo := by
  have hexpected := Expected.mainStart hstart
  have hfirst := result_of_mainStart slots hstart
  obtain ⟨rfl, -, hown⟩ := of_mainStart hstart
  have h := holds_of_run hown hrun
  have hmono : ∀ {before later t u}, later ⊆ events →
      after suite slots phase records before = some t →
      after suite slots phase records later = some u →
      Reaches (step suite phase.result.runFingerprint) t u →
      (result suite phase t).meanScoreLowerBound ≤ (result suite phase u).meanScoreLowerBound := by
    intro before later t u hsub hbefore hlater hreaches
    have hu := holds_of_run hown hlater
    refine meanScoreLowerBound_mono ((holds_of_run hown hbefore).scoreOf_mono hu
      (collected_subset_of_reaches hreaches) fun _ _ => hu.score_nonneg ?_)
    exact fun taskId outcome hmem => (hscores taskId outcome (hsub hmem)).1
  refine ⟨?_, ?_, ?_, ?_⟩
  · intro t ht
    obtain ⟨before, -, -, hbefore⟩ := exists_run_of_mem_writes ht
    exact (holds_of_run hown hbefore).consistent hexpected
  · refine pairwise_writes.imp_of_mem fun {t u} ht hu hreaches => ?_
    obtain ⟨before, -, -, hbefore⟩ := exists_run_of_mem_writes ht
    obtain ⟨later, rest, rfl, hlater⟩ := exists_run_of_mem_writes hu
    exact hmono (List.subset_append_left later rest) hbefore hlater hreaches
  · intro hreturned
    refine ⟨hfirst ▸ result_eq_last hrun hreturned.2.2, ?_, ?_⟩
    · rw [(h.consistent hexpected).meanScore_eq, if_pos (h.pendingTasks_of_returned hreturned)]
    · intro t ht
      obtain ⟨before, rest, rfl, hbefore⟩ := exists_run_of_mem_writes ht
      have hreaches : Reaches (step suite phase.result.runFingerprint) t s := by
        rw [after, run_append, hbefore, Option.bind_some] at hrun
        exact reaches_iff_run.mpr ⟨rest, hrun⟩
      exact hmono (List.Subset.refl _) hbefore hrun hreaches
  · intro events' s' hrun' hreturned hreturned' hsame
    exact h.result_map_eq (holds_of_run hown hrun') hreturned hreturned' hsame

/-- Two tasks. -/
def duo : Suite Unit where
  taskIds := ["a", "b"]
  taskIds_nodup := by decide
  fingerprint := fun _ => "duo"
  safeName := id
  safeName_injOn := fun _ _ _ _ h => h

/-- The run that the two tasks start from. -/
def duoPhase : RunDir Unit (Details Unit) :=
  ⟨"result.json", [], resultPayload duo.fingerprint ∅ duo.taskIds ∅ none⟩

/-- The two tasks, one behind the other. -/
def duoEvents (first second : String) (score score' : ℚ) : List (Event Unit) :=
  [.acquire first, .acquire second, .takeBackend first, .takeBackend second,
    .finish first (.success score true ()), .collect true,
    .finish second (.success score' true ()), .collect true]

theorem duo_results : ∃ s s',
    after duo pair duoPhase ∅ (duoEvents "a" "b" 1 (1 / 2)) = some s ∧
    after duo pair duoPhase ∅ (duoEvents "b" "a" (1 / 2) 1) = some s' ∧
    (result duo duoPhase s).meanScore = some (3 / 4) ∧
    (result duo duoPhase s).map Details.extraInfo =
      (result duo duoPhase s').map Details.extraInfo := by
  have hstart : mainStart duo.fingerprint duo.taskIds
      { identity := ∅, resultPath := "result.json" } ([] : RecordsDir (Details Unit)) none =
      .ok (∅, duoPhase) := rfl
  have hscores : ∀ taskId outcome, .finish taskId outcome ∈ duoEvents "a" "b" 1 (1 / 2) →
      0 ≤ outcome.score ∧ outcome.score ≤ 1 := by
    intro taskId outcome hmem
    simp only [duoEvents, List.mem_cons, Event.finish.injEq, reduceCtorEq, false_or, or_false,
      List.not_mem_nil] at hmem
    rcases hmem with ⟨-, rfl⟩ | ⟨-, rfl⟩
    · norm_num [Outcome.score]
    · norm_num [Outcome.score]
  have hsame : SameOutcomes (duoEvents "a" "b" 1 (1 / 2)) (duoEvents "b" "a" (1 / 2) 1) := by
    intro taskId outcome outcome' hmem hmem'
    simp only [duoEvents, List.mem_cons, Event.finish.injEq, reduceCtorEq, false_or, or_false,
      List.not_mem_nil] at hmem hmem'
    rcases hmem with ⟨rfl, rfl⟩ | ⟨rfl, rfl⟩
    · simpa [eq_comm] using hmem'
    · simpa [eq_comm] using hmem'
  have hrun : ∃ s, after duo pair duoPhase ∅ (duoEvents "a" "b" 1 (1 / 2)) = some s ∧
      s.Returned ∧ (result duo duoPhase s).meanScoreLowerBound = 3 / 4 :=
    ⟨_, rfl, ⟨⟨rfl, rfl⟩, rfl, rfl⟩, by decide +kernel⟩
  have hrun' : ∃ s, after duo pair duoPhase ∅ (duoEvents "b" "a" (1 / 2) 1) = some s ∧
      s.Returned := ⟨_, rfl, ⟨rfl, rfl⟩, rfl, rfl⟩
  obtain ⟨s, hs, hreturned, hmean⟩ := hrun
  obtain ⟨s', hs', hreturned'⟩ := hrun'
  obtain ⟨-, -, hfinal, horder⟩ := results_of_run hstart hs hscores
  exact ⟨s, s', hs, hs', hmean ▸ (hfinal hreturned).2.1, horder _ s' hs' hreturned hreturned' hsame⟩

end Scheduler

end CodexEval
