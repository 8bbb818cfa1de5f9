import CodingOpd.CodexEval.Scheduler
import CodingOpd.CodexEval.Survival

/-!
# The phases of a chain, scheduled

In a chain the tasks of a phase finish, and their records are collected, in any order. The scheduler
is what decides the order, and it knows ends of tasks that leave no record. It does nothing to the
files that a chain does not do: what holds of the records of a chain holds of those that a
scheduled phase leaves, wherever it is killed.

## Main definitions

* `Chain.Launched`: a phase of the chain starts
* `Scheduler.Simulates`: the chain is where the scheduler is

## Main results

* `Scheduler.reaches_chain`: a run of the scheduler is one of the chain
* `Scheduler.kept_of_run`: the records that the scheduler leaves are those of every later phase
-/

open Python Transition

namespace CodexEval

variable {V E R : Type} {suite : Suite V}

namespace Chain

variable [DecidableEq V] [DecidableEq R]

/-- A phase of a chain starts: its first one, or one that is launched after a kill. -/
inductive Launched (suite : Suite V) (chain : Chain V R) : Prop
  | first {args} : Chain.first suite args = .ok chain → Launched suite chain
  | launch {args first killed l} : Chain.first suite args = .ok first →
    Reaches (Chain.step suite) first killed → killed.live = none → l.Separate killed →
    killed.launch suite l = .ok chain → Launched suite chain

namespace Launched

variable {chain : Chain V R}

theorem survives (h : chain.Launched suite) : chain.Survives suite := by
  cases h with
  | first hfirst => exact survives_of_reaches hfirst (.refl _)
  | launch hfirst hreaches _ hseparate hlaunch =>
    exact (survives_of_reaches hfirst hreaches).launch hseparate hlaunch

/-- The process of the phase has the records that `main` finds. -/
theorem exists_mainStart (h : chain.Launched suite) : ∃ args own source records,
    mainStart suite.fingerprint suite.taskIds args own source = .ok (records, chain.current) ∧
      chain.live = some (startProcess suite records) := by
  cases h with
  | @first args hfirst =>
    obtain ⟨⟨records, run⟩, hstart, hchain⟩ := bind_eq_ok.mp hfirst
    cases hchain
    exact ⟨args, [], none, records, hstart, rfl⟩
  | @launch _ _ killed l _ _ _ _ hlaunch =>
    obtain ⟨⟨records, run⟩, hstart, hchain⟩ := bind_eq_ok.mp hlaunch
    cases hchain
    exact ⟨l.args killed, l.own killed, l.source killed, records, hstart, rfl⟩

end Launched

end Chain

namespace Scheduler

/-- The chain is where the scheduler is: the files are the same, every task that has not ended is
running, and every record that has not been collected is written. -/
structure Simulates (suite : Suite V) (runFingerprint : String) (s : Scheduler (Details E))
    (chain : Chain V (Details E)) (process : Process (Details E)) : Prop where
  live : chain.live = some process
  records_eq : chain.current.records = s.recordsDir
  runFingerprint_eq : chain.current.result.runFingerprint = runFingerprint
  fingerprint_eq : suite.fingerprint chain.current.result.runIdentity = runFingerprint
  running : ∀ taskId ∈ s.waiting ++ s.pool.users, taskId ∈ process.running
  written : ∀ taskId record, (taskId, .returned record) ∈ s.done → record ∈ process.written
  collected : s.raised = false → process.records = s.records

section

variable {slots : Slots} {runFingerprint : String} {records : Records (Details E)}
  {recordsDir : RecordsDir (Details E)} {events : List (Event E)} {s : Scheduler (Details E)}
  {chain : Chain V (Details E)} {process : Process (Details E)}

namespace Holds

/-- The task that ends is gone. -/
theorem not_mem_of_exit (h : Holds suite slots runFingerprint records recordsDir events s)
    {taskId : String} {waiting : List String} {pool : SlotPool String Backend}
    (hexit : Exit s taskId waiting pool) : taskId ∉ waiting ++ pool.users := by
  have hnodup := (List.nodup_append.mp (h.places.nodup_iff.mpr nodup_pending)).1
  rw [hexit.perm.nodup_iff, List.nodup_cons] at hnodup
  exact hnodup.1

/-- No other task has returned the record of the task that is collected. -/
theorem not_mem_done (h : Holds suite slots runFingerprint records recordsDir events s)
    {taskId : String} {record : Record (Details E)} {done : List (String × Ending (Details E))}
    (hdone : s.done = (taskId, .returned record) :: done) (id : String) :
    (id, .returned record) ∉ done := by
  intro hmem
  have hfirst : (taskId, .returned record) ∈ s.endings := by simp [endings, hdone]
  have hsecond : (id, .returned record) ∈ s.endings := by simp [endings, hdone, hmem]
  obtain ⟨_, -, hends⟩ := h.explained _ hfirst
  obtain ⟨_, -, hends'⟩ := h.explained _ hsecond
  have hid : id = taskId := hends'.taskId_eq.symm.trans hends.taskId_eq
  have hnodup := h.nodup_endings
  rw [endings, List.map_append, hdone, List.map_cons] at hnodup
  have hnotin := (List.nodup_cons.mp (List.nodup_append.mp hnodup).2.1).1
  exact hnotin (hid ▸ List.mem_map_of_mem hmem)

end Holds

namespace Simulates

/-- Where only tasks that have ended are gone, the chain need not move. -/
theorem stutter (h : Simulates suite runFingerprint s chain process) {t : Scheduler (Details E)}
    (hrecords : t.recordsDir = s.recordsDir)
    (hplaces : ∀ taskId ∈ t.waiting ++ t.pool.users, taskId ∈ s.waiting ++ s.pool.users)
    (hdone : ∀ taskId record, (taskId, .returned record) ∈ t.done →
      (taskId, .returned record) ∈ s.done)
    (hcollected : t.raised = false → s.raised = false ∧ t.records = s.records) :
    Simulates suite runFingerprint t chain process where
  live := h.live
  records_eq := h.records_eq.trans hrecords.symm
  runFingerprint_eq := h.runFingerprint_eq
  fingerprint_eq := h.fingerprint_eq
  running taskId hmem := h.running taskId (hplaces taskId hmem)
  written taskId record hmem := h.written taskId record (hdone taskId record hmem)
  collected hraised := (h.collected (hcollected hraised).1).trans (hcollected hraised).2.symm

/-- A phase of the chain starts where the scheduler does. -/
theorem start (hidentity : suite.fingerprint chain.current.result.runIdentity =
      chain.current.result.runFingerprint)
    (hlive : chain.live = some (Chain.startProcess suite records)) :
    Simulates suite chain.current.result.runFingerprint
      (Scheduler.start suite slots records chain.current.records) chain
      (Chain.startProcess suite records) where
  live := hlive
  records_eq := rfl
  runFingerprint_eq := rfl
  fingerprint_eq := hidentity
  running taskId hmem := by
    simpa [Scheduler.start, SlotPool.start, SlotPool.users, pending, Chain.startProcess] using hmem
  written := by simp [Scheduler.start]
  collected _ := rfl

variable [DecidableEq V] [DecidableEq E]

/-- A task that returns its record writes it in the chain too. -/
theorem finish (h : Simulates suite runFingerprint s chain process) {taskId : String}
    {outcome : Outcome (Details E)} {waiting : List String} {pool : SlotPool String Backend}
    (hexit : Exit s taskId waiting pool) (hgone : taskId ∉ waiting ++ pool.users) :
    ∃ next process, chain.step suite (.finish taskId outcome) = some next ∧
      Simulates suite runFingerprint
        (s.endTask suite waiting pool taskId (.returned (runOne runFingerprint taskId outcome)))
        next process := by
  have hrunning : taskId ∈ process.running :=
    h.running taskId (hexit.perm.mem_iff.mpr (List.mem_cons_self ..))
  refine ⟨chain.finish suite process taskId outcome, _, ?_,
    ⟨rfl, ?_, h.runFingerprint_eq, h.fingerprint_eq, ?_, ?_, h.collected⟩⟩
  · simp [Chain.step, h.live, hrunning]
  · simp [Chain.finish, Chain.write, endTask, h.records_eq, h.runFingerprint_eq]
  · intro id hid
    have hne : id ≠ taskId := fun heq => hgone (heq ▸ hid)
    simp only [runOne_taskId, List.mem_filter, decide_eq_true_eq]
    exact ⟨h.running id (hexit.perm.mem_iff.mpr (List.mem_cons_of_mem _ hid)), hne⟩
  · intro id record hmem
    rcases List.mem_append.mp hmem with hmem | hmem
    · exact List.mem_cons_of_mem _ (h.written id record hmem)
    · cases List.mem_singleton.mp hmem
      rw [h.runFingerprint_eq]
      exact List.mem_cons_self ..

/-- A record that `_run` collects, and rewrites `result.json` with, is collected in the chain. -/
theorem collect (h : Simulates suite runFingerprint s chain process) {taskId : String}
    {record : Record (Details E)} {done : List (String × Ending (Details E))}
    (hraised : s.raised = false) (hdone : s.done = (taskId, .returned record) :: done)
    (hothers : ∀ id, (id, .returned record) ∉ done) :
    ∃ next process, chain.step suite (.collect record) = some next ∧
      Simulates suite runFingerprint (s.collectTask done (taskId, .returned record) true)
        next process := by
  have hwritten : record ∈ process.written :=
    h.written taskId record (hdone ▸ List.mem_cons_self ..)
  refine ⟨chain.collect suite process record, _, ?_,
    ⟨rfl, h.records_eq, h.fingerprint_eq, h.fingerprint_eq, h.running, ?_, ?_⟩⟩
  · simp [Chain.step, h.live, hwritten]
  · intro id other hmem
    have hne : other ≠ record := fun heq => hothers id (heq ▸ hmem)
    simp only [List.mem_filter, decide_eq_true_eq]
    exact ⟨h.written id other (hdone ▸ List.mem_cons_of_mem _ hmem), hne⟩
  · intro _
    simp [collectTask, h.collected hraised]

/-- **A step of the scheduler is matched by the chain**, which finishes a task or collects a record
where the scheduler does, and stays where it is otherwise. -/
theorem step {t : Scheduler (Details E)} {event : Event E}
    (h : Simulates suite runFingerprint s chain process)
    (hholds : Holds suite slots runFingerprint records recordsDir events s)
    (hstep : s.step suite runFingerprint event = some t) :
    ∃ next process, Reaches (Chain.step suite) chain next ∧
      Simulates suite runFingerprint t next process := by
  have stays : ∀ {t : Scheduler (Details E)}, Simulates suite runFingerprint t chain process →
      ∃ next process, Reaches (Chain.step suite) chain next ∧
        Simulates suite runFingerprint t next process := fun ht => ⟨chain, process, .refl _, ht⟩
  cases move_of_step hstep with
  | acquire hwaiting hpool =>
    apply stays
    refine h.stutter rfl (fun id hid => ?_) (fun _ _ hmem => hmem) fun hraised => ⟨hraised, rfl⟩
    rw [SlotPool.users_acquire hpool, List.perm_middle.mem_iff, ← List.cons_append] at hid
    exact ((List.perm_cons_erase hwaiting).append_right _).mem_iff.mpr hid
  | take hpool =>
    apply stays
    refine h.stutter rfl (fun id hid => ?_) (fun _ _ hmem => hmem) fun hraised => ⟨hraised, rfl⟩
    exact ((SlotPool.users_take hpool).append_left _).mem_iff.mp hid
  | @ends _ taskId ending waiting pool hends hexit =>
    have hplaces : ∀ id ∈ waiting ++ pool.users, id ∈ s.waiting ++ s.pool.users := fun id hid =>
      hexit.perm.mem_iff.mpr (List.mem_cons_of_mem _ hid)
    cases ending with
    | returned record =>
      cases hends with
      | finish _ outcome backend =>
        obtain ⟨next, process, hfinish, hnext⟩ := h.finish hexit (hholds.not_mem_of_exit hexit)
        exact ⟨next, process, (Reaches.refl _).tail _ hfinish, hnext⟩
    | raised =>
      -- a task without a record goes on running in the chain, until the kill
      apply stays
      refine h.stutter rfl hplaces (fun id record hmem => ?_) fun hraised => ⟨hraised, rfl⟩
      simpa [endTask] using hmem
    | cancelled =>
      apply stays
      refine h.stutter rfl hplaces (fun id record hmem => ?_) fun hraised => ⟨hraised, rfl⟩
      simpa [endTask] using hmem
  | @collect task done resultWritten hraised hdone =>
    obtain ⟨taskId, ending⟩ := task
    have hrest : ∀ id record, (id, .returned record) ∈ done → (id, .returned record) ∈ s.done :=
      fun id record hmem => hdone ▸ List.mem_cons_of_mem _ hmem
    cases ending with
    | returned record =>
      cases resultWritten with
      | true =>
        have hothers := hholds.not_mem_done hdone
        obtain ⟨next, process, hcollect, hnext⟩ := h.collect hraised hdone hothers
        exact ⟨next, process, (Reaches.refl _).tail _ hcollect, hnext⟩
      | false =>
        exact stays (h.stutter rfl (fun _ hid => hid) hrest (by simp [collectTask]))
    | raised => exact stays (h.stutter rfl (fun _ hid => hid) hrest (by simp [collectTask]))
    | cancelled => exact stays (h.stutter rfl (fun _ hid => hid) hrest (by simp [collectTask]))
  | interrupt => exact stays (h.stutter rfl (fun _ hid => hid) (fun _ _ hmem => hmem) (by simp))

end Simulates

variable [DecidableEq V] [DecidableEq E]

/-- **A run of the scheduler is one of the chain**, from the start of a phase. -/
theorem reaches_chain (hlaunched : chain.Launched suite) (hlive : chain.live = some process)
    (hrun : Transition.run (step suite chain.current.result.runFingerprint)
      (start suite slots process.records chain.current.records) events = some s) :
    ∃ next process, Reaches (Chain.step suite) chain next ∧
      Simulates suite chain.current.result.runFingerprint s next process := by
  obtain ⟨args, own, source, records, hstart, hprocess⟩ := hlaunched.exists_mainStart
  obtain ⟨hrecords, hidentity, hown⟩ := of_mainStart hstart
  rw [← hrecords] at hown
  cases hlive.symm.trans hprocess
  -- the invariant tells the records of the tasks apart that the chain finishes and collects
  have hmatched := exists_reaches_of_run
    (R := fun events s next =>
      Holds suite slots chain.current.result.runFingerprint records chain.current.records events s ∧
        ∃ process, Simulates suite chain.current.result.runFingerprint s next process)
    hrun ⟨.start hown, _, .start hidentity hlive⟩ (by
      rintro events t event u next ⟨hholds, process, hnext⟩ hstep
      obtain ⟨later, process, hreaches, hlater⟩ := hnext.step hholds hstep
      exact ⟨later, hreaches, hholds.step hstep, process, hlater⟩)
  obtain ⟨next, hreaches, -, process, hnext⟩ := hmatched
  exact ⟨next, process, hreaches, hnext⟩

/-- **What a scheduled phase leaves is kept.** Wherever it is killed, every record file that is
there is a record of all the phases after, and its task is not run again. -/
theorem kept_of_run (hlaunched : chain.Launched suite) (hlive : chain.live = some process)
    (hrun : Transition.run (step suite chain.current.result.runFingerprint)
      (start suite slots process.records chain.current.records) events = some s) :
    ∃ killed, Reaches (Chain.step suite) chain killed ∧ killed.live = none ∧
      killed.current.records = s.recordsDir ∧
      ∀ f ∈ s.recordsDir, ∀ later, Reaches (Chain.step suite) killed later →
        ∀ process ∈ later.live,
          process.records.lookup f.2.taskId = some f.2 ∧ f.2.taskId ∉ process.running := by
  obtain ⟨next, process, hnext, hsimulates⟩ := reaches_chain hlaunched hlive hrun
  have hkilled := hnext.tail .kill rfl
  have hsurvives := hlaunched.survives.of_reaches hkilled
  refine ⟨_, hkilled, rfl, hsimulates.records_eq, ?_⟩
  intro f hf later hlater process hprocess
  rw [← hsimulates.records_eq] at hf
  have hwritten : f.2 ∈ writtenBy next.history (· = next.run) :=
    hsurvives.starts.own_holds.contents_eq ▸ ⟨f, hf, rfl⟩
  obtain ⟨entry, hentry, -, hrecord⟩ := hwritten
  have hlast := hsurvives.of_reaches hlater
  have hmem := Chain.history_subset_of_reaches hlater hentry
  have hphase : entry.phase < later.phase :=
    (hsurvives.phase_le entry hentry).trans_lt (Chain.phase_lt_of_reaches rfl hlater hprocess)
  rw [← hrecord]
  refine ⟨(hlast.mem_result hprocess hmem hphase).1, fun hrunning => ?_⟩
  exact ((hlast.live process hprocess).mem_running _).mp hrunning |>.2 entry hmem rfl

end

end Scheduler

end CodexEval
