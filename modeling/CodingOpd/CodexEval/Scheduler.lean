import CodingOpd.Library.SlotPool
import CodingOpd.Python.Integers
import CodingOpd.CodexEval.Chain

/-!
# The scheduler of a phase

`_run` creates a task for each sample that has no record, and collects them as they end. A task of
`_run_one` takes a permit of the semaphore, then a backend from the queue; it runs on the backend,
writes its record, and puts the backend and the permit back on every path out: after the record,
when a file cannot be written, and when it is cancelled, at whichever await that finds it.

## Main definitions

* `Slots`, `checkSlots`: the replicas and their task slots, as `main` checks them
* `Scheduler`, `Scheduler.step`: `_run` with its tasks, and the events between two awaits
* `Scheduler.Holds`: the invariant, of the state and the events so far
* `Scheduler.WithinSlots`: what holds of the slots at every moment

## Main results

* `Scheduler.holds_of_run`: the invariant after every run
* `Scheduler.sound_of_run`: slots are never exceeded nor left idle, and each task has its own record
-/

open Python Transition

namespace CodexEval

structure Backend where
  backendId : String
  socketPath : String
deriving DecidableEq, Repr

/-- The replicas, and the tasks that they take; `main` checks that they suffice. -/
structure Slots where
  modelSocket : List String
  concurrency : ℕ
  tasksPerReplica : ℕ
  concurrency_le : concurrency ≤ modelSocket.length * tasksPerReplica

/-- The checks of `main`; `parser.error` ends the process with its message. -/
def checkSlots (modelSocket : List String) (concurrency tasksPerReplica : ℤ) :
    Except String Slots :=
  if concurrency < 1 then .error "--concurrency must be positive"
  else if htasks : tasksPerReplica < 1 then .error "--tasks-per-replica must be positive"
  else if hslots : concurrency > modelSocket.length * tasksPerReplica then
    .error "--concurrency exceeds available replica task slots"
  else
    .ok
      { modelSocket
        concurrency := concurrency.toNat
        tasksPerReplica := tasksPerReplica.toNat
        concurrency_le := by
          obtain ⟨tasks, rfl⟩ := Int.eq_ofNat_of_zero_le (show 0 ≤ tasksPerReplica by omega)
          rw [Int.toNat_natCast, Int.toNat_le, Nat.cast_mul]
          exact not_lt.mp hslots }

/-- The slots that the checks let through are the arguments. -/
theorem of_checkSlots {modelSocket : List String} {concurrency tasksPerReplica : ℤ} {slots : Slots}
    (h : checkSlots modelSocket concurrency tasksPerReplica = .ok slots) :
    slots.modelSocket = modelSocket ∧ slots.concurrency = concurrency ∧
      slots.tasksPerReplica = tasksPerReplica ∧ 0 < slots.concurrency := by
  unfold checkSlots at h
  split at h
  · cases h
  · split at h
    · cases h
    · split at h
      · cases h
      · cases h
        refine ⟨rfl, ?_, ?_, ?_⟩ <;> simp only [Int.ofNat_toNat] <;> omega

namespace Slots

variable (slots : Slots)

/-- The backends of one round of the queue. -/
def replicas : List Backend :=
  slots.modelSocket.zipIdx.map fun (socketPath, index) => ⟨s!"replica-{index}", socketPath⟩

/-- `backend_queue` as `_run` fills it: a round for each task that a replica takes. -/
def backendQueue : List Backend :=
  (List.range slots.tasksPerReplica).flatMap fun _ => slots.replicas

theorem nodup_replicas : slots.replicas.Nodup := by
  apply List.Nodup.of_map Backend.backendId
  have hids : slots.replicas.map Backend.backendId =
      (slots.modelSocket.zipIdx.map Prod.snd).map fun index => s!"replica-{index}" := by
    rw [replicas, List.map_map, List.map_map]
    rfl
  rw [hids, List.zipIdx_map_snd]
  apply List.Nodup.map
  · -- the names differ as the numbers in them do
    intro i j hij
    have hrepr : Nat.repr i = Nat.repr j := (String.append_right_inj _).mp hij
    have hdigits : Nat.toDigits 10 i = Nat.toDigits 10 j := by
      rw [← Nat.toList_repr, ← Nat.toList_repr, hrepr]
    rw [← Option.some_inj, ← natOf_toDigits, ← natOf_toDigits, hdigits]
  · exact List.nodup_range'

@[simp] theorem length_backendQueue :
    slots.backendQueue.length = slots.modelSocket.length * slots.tasksPerReplica := by
  simp [backendQueue, replicas, Nat.mul_comm]

/-- A replica has no more places in the queue than the tasks it takes. -/
theorem count_backendQueue_le (backend : Backend) :
    slots.backendQueue.count backend ≤ slots.tasksPerReplica := by
  have hone := List.nodup_iff_count_le_one.mp slots.nodup_replicas backend
  have hcount : slots.backendQueue.count backend =
      slots.tasksPerReplica * slots.replicas.count backend := by
    simp [backendQueue, List.count_flatMap, Function.comp_def]
  rw [hcount]
  calc slots.tasksPerReplica * slots.replicas.count backend
      ≤ slots.tasksPerReplica * 1 := Nat.mul_le_mul_left _ hone
    _ = slots.tasksPerReplica := Nat.mul_one _

end Slots

variable {V E R : Type}

/-- What a record stores of the attempt. -/
structure Details (E : Type) where
  backend : Backend
  extraInfo : E
deriving DecidableEq

/-- The outcome with what the record adds to it. -/
def Outcome.map (f : E → R) : Outcome E → Outcome R
  | .success reward finished details => .success reward finished (f details)
  | .error details => .error (f details)

/-- How a task ends: it returns its record, it raises since a file cannot be written, or it is
cancelled. -/
inductive Ending (R : Type) where
  | returned (record : Record R)
  | raised
  | cancelled

/-- `_run` and its tasks, between two awaits. -/
structure Scheduler (R : Type) where
  /-- The tasks that have not acquired the semaphore. -/
  waiting : List String
  /-- `semaphore` and `backend_queue`, with the tasks that have taken of them. -/
  pool : SlotPool String Backend
  /-- The tasks that `as_completed` has still to hand out, in the order they ended. -/
  done : List (String × Ending R)
  collected : List (String × Ending R)
  recordsDir : RecordsDir R
  records : Records R
  /-- `_run` has raised. -/
  raised : Bool

/-- `pending` of `_run`. -/
def pending (suite : Suite V) (records : Records R) : List String :=
  suite.taskIds.filter (· ∉ records)

namespace Scheduler

inductive Event (E : Type) where
  /-- A task acquires the semaphore. -/
  | acquire (taskId : String)
  /-- `backend_queue.get` of a task. -/
  | takeBackend (taskId : String)
  /-- The log directory of the attempt cannot be made. -/
  | mkdirFails (taskId : String)
  /-- `get_task(resolved).run()` returns, or an `Exception` comes before; the record is written. -/
  | finish (taskId : String) (outcome : Outcome E)
  /-- The record of a task that has run cannot be written. -/
  | writeFails (taskId : String)
  /-- A `CancelledError` comes out of the await that the task is at. -/
  | cancel (taskId : String)
  /-- `_run` takes the next task that has ended; `result.json` can be written or not. -/
  | collect (resultWritten : Bool)
  /-- `_run` itself is cancelled. -/
  | interrupt

/-- The tasks that have ended, with how they did. -/
def endings (s : Scheduler R) : List (String × Ending R) := s.collected ++ s.done

/-- `_run` up to its loop. -/
def start (suite : Suite V) (slots : Slots) (records : Records R) (recordsDir : RecordsDir R) :
    Scheduler R where
  waiting := pending suite records
  pool := .start slots.concurrency slots.backendQueue
  done := []
  collected := []
  recordsDir
  records
  raised := false

section

variable (suite : Suite V) (runFingerprint : String)

/-- A task ends; one that returns has written its record. -/
def endTask (s : Scheduler R) (waiting : List String) (pool : SlotPool String Backend)
    (taskId : String) (ending : Ending R) : Scheduler R :=
  { s with
    waiting
    pool
    done := s.done ++ [(taskId, ending)]
    recordsDir :=
      match ending with
      | .returned record => s.recordsDir.write (suite.safeName taskId) record
      | .raised | .cancelled => s.recordsDir }

/-- One turn of the loop of `_run`: the task's record goes into `records`, and what it raised is
raised. -/
def collectTask (s : Scheduler R) (done : List (String × Ending R)) (task : String × Ending R)
    (resultWritten : Bool) : Scheduler R :=
  let s := { s with done, collected := s.collected ++ [task] }
  match task.2 with
  | .returned record =>
    { s with records := s.records.insert record.taskId record, raised := !resultWritten }
  | .raised | .cancelled => { s with raised := true }

/-- The state after an event; `none` where it cannot happen. -/
def step (s : Scheduler (Details E)) : Event E → Option (Scheduler (Details E))
  | .acquire taskId =>
    if taskId ∈ s.waiting then
      (s.pool.acquire taskId).map fun pool => { s with waiting := s.waiting.erase taskId, pool }
    else none
  | .takeBackend taskId => (s.pool.take taskId).map fun pool => { s with pool }
  | .mkdirFails taskId | .writeFails taskId =>
    (s.pool.release taskId).map fun (_, pool) => s.endTask suite s.waiting pool taskId .raised
  | .finish taskId outcome =>
    (s.pool.release taskId).map fun (backend, pool) =>
      s.endTask suite s.waiting pool taskId
        (.returned (runOne runFingerprint taskId (outcome.map (Details.mk backend))))
  | .cancel taskId =>
    -- at the semaphore, at the queue, or in the attempt
    if taskId ∈ s.waiting then
      some (s.endTask suite (s.waiting.erase taskId) s.pool taskId .cancelled)
    else if taskId ∈ s.pool.admitted then
      (s.pool.leave taskId).map fun pool => s.endTask suite s.waiting pool taskId .cancelled
    else
      (s.pool.release taskId).map fun (_, pool) =>
        s.endTask suite s.waiting pool taskId .cancelled
  | .collect resultWritten =>
    match s.raised, s.done with
    -- what ends after `_run` has raised is collected by nobody
    | false, task :: done => some (s.collectTask done task resultWritten)
    | _, _ => none
  | .interrupt => some { s with raised := true }

end

/-! ## What a step can do -/

/-- The event that a task ends with. -/
inductive Ends (runFingerprint : String) : Event E → String → Ending (Details E) → Prop
  | finish (taskId : String) (outcome : Outcome E) (backend : Backend) :
    Ends runFingerprint (.finish taskId outcome) taskId
      (.returned (runOne runFingerprint taskId (outcome.map (Details.mk backend))))
  | mkdirFails (taskId : String) : Ends runFingerprint (.mkdirFails taskId) taskId .raised
  | writeFails (taskId : String) : Ends runFingerprint (.writeFails taskId) taskId .raised
  | cancel (taskId : String) : Ends runFingerprint (.cancel taskId) taskId .cancelled

/-- Where a task can be when it ends, and what is left without it. -/
inductive Exit (s : Scheduler R) (taskId : String) :
    List String → SlotPool String Backend → Prop
  | waiting : taskId ∈ s.waiting → Exit s taskId (s.waiting.erase taskId) s.pool
  | admitted {pool} : s.pool.leave taskId = some pool → Exit s taskId s.waiting pool
  | holder {backend pool} : s.pool.release taskId = some (backend, pool) →
    Exit s taskId s.waiting pool

/-- All that a step can do. -/
inductive Move (suite : Suite V) (runFingerprint : String) (s : Scheduler (Details E)) :
    Event E → Scheduler (Details E) → Prop
  | acquire {taskId pool} : taskId ∈ s.waiting → s.pool.acquire taskId = some pool →
    Move suite runFingerprint s (.acquire taskId)
      { s with waiting := s.waiting.erase taskId, pool }
  | take {taskId pool} : s.pool.take taskId = some pool →
    Move suite runFingerprint s (.takeBackend taskId) { s with pool }
  | ends {event taskId ending waiting pool} : Ends runFingerprint event taskId ending →
    Exit s taskId waiting pool →
    Move suite runFingerprint s event (s.endTask suite waiting pool taskId ending)
  | collect {task done resultWritten} : s.raised = false → s.done = task :: done →
    Move suite runFingerprint s (.collect resultWritten) (s.collectTask done task resultWritten)
  | interrupt : Move suite runFingerprint s .interrupt { s with raised := true }

theorem move_of_step {suite : Suite V} {runFingerprint : String} {s t : Scheduler (Details E)}
    {event : Event E} (h : s.step suite runFingerprint event = some t) :
    Move suite runFingerprint s event t := by
  cases event with
  | acquire taskId =>
    by_cases hwaiting : taskId ∈ s.waiting
    · rw [step, if_pos hwaiting] at h
      obtain ⟨pool, hpool, rfl⟩ := Option.map_eq_some_iff.mp h
      exact .acquire hwaiting hpool
    · rw [step, if_neg hwaiting] at h
      cases h
  | takeBackend taskId =>
    obtain ⟨pool, hpool, rfl⟩ := Option.map_eq_some_iff.mp h
    exact .take hpool
  | mkdirFails taskId =>
    obtain ⟨⟨backend, pool⟩, hpool, rfl⟩ := Option.map_eq_some_iff.mp h
    exact .ends (.mkdirFails taskId) (.holder hpool)
  | writeFails taskId =>
    obtain ⟨⟨backend, pool⟩, hpool, rfl⟩ := Option.map_eq_some_iff.mp h
    exact .ends (.writeFails taskId) (.holder hpool)
  | finish taskId outcome =>
    obtain ⟨⟨backend, pool⟩, hpool, rfl⟩ := Option.map_eq_some_iff.mp h
    exact .ends (.finish taskId outcome backend) (.holder hpool)
  | cancel taskId =>
    by_cases hwaiting : taskId ∈ s.waiting
    · rw [step, if_pos hwaiting] at h
      cases h
      exact .ends (.cancel taskId) (.waiting hwaiting)
    · rw [step, if_neg hwaiting] at h
      -- a cancelled task holds nothing yet, or a slot, or a slot and a backend
      by_cases hadmitted : taskId ∈ s.pool.admitted
      · rw [if_pos hadmitted] at h
        obtain ⟨pool, hpool, rfl⟩ := Option.map_eq_some_iff.mp h
        exact .ends (.cancel taskId) (.admitted hpool)
      · rw [if_neg hadmitted] at h
        obtain ⟨⟨backend, pool⟩, hpool, rfl⟩ := Option.map_eq_some_iff.mp h
        exact .ends (.cancel taskId) (.holder hpool)
  | collect resultWritten =>
    rw [step] at h
    cases hraised : s.raised with
    | true => simp [hraised] at h
    | false =>
      cases hdone : s.done with
      | nil => simp [hraised, hdone] at h
      | cons task done =>
        simp only [hraised, hdone, Option.some.injEq] at h
        exact h ▸ .collect hraised hdone
  | interrupt =>
    cases h
    exact .interrupt

/-! ## The invariant -/

/-- The record file that a task leaves. -/
def file (suite : Suite V) (ending : String × Ending R) : Option (String × Record R) :=
  match ending.2 with
  | .returned record => some (suite.safeName ending.1, record)
  | .raised | .cancelled => none

/-- What holds of the state after the events so far: slots are conserved, each pending task is at
one place, each ending has its event, and directory and dictionary have the records of the tasks
that have ended. -/
structure Holds (suite : Suite V) (slots : Slots) (runFingerprint : String)
    (records : Records (Details E)) (recordsDir : RecordsDir (Details E)) (events : List (Event E))
    (s : Scheduler (Details E)) : Prop where
  balanced : s.pool.Balanced slots.concurrency slots.backendQueue
  places : (s.waiting ++ s.pool.users ++ s.endings.map Prod.fst).Perm (pending suite records)
  explained : ∀ ending ∈ s.endings, ∃ event ∈ events, Ends runFingerprint event ending.1 ending.2
  cancelled : ∀ taskId, .cancel taskId ∈ events → (taskId, .cancelled) ∈ s.endings
  files : (s.recordsDir.filter (·.2.taskId ∈ pending suite records)).Perm
    (s.endings.filterMap (file suite))
  others : ∀ file ∈ s.recordsDir, file.2.taskId ∉ pending suite records → file ∈ recordsDir
  lookup_collected : ∀ taskId record, (taskId, .returned record) ∈ s.collected →
    s.records.lookup taskId = some record
  lookup_other : ∀ taskId, (∀ record, (taskId, .returned record) ∉ s.collected) →
    s.records.lookup taskId = records.lookup taskId
  returned : s.raised = false → ∀ ending ∈ s.collected, ∃ record, ending.2 = .returned record

section

variable {suite : Suite V} {slots : Slots} {runFingerprint : String}
  {records : Records (Details E)} {recordsDir : RecordsDir (Details E)}

theorem nodup_pending : (pending suite records).Nodup := suite.taskIds_nodup.filter _

/-- A record that a task returns is its own. -/
theorem Ends.taskId_eq {event : Event E} {taskId : String} {record : Record (Details E)}
    (h : Ends runFingerprint event taskId (.returned record)) : record.taskId = taskId := by
  cases h
  exact runOne_taskId ..

namespace Exit

variable {s : Scheduler (Details E)} {taskId : String} {waiting : List String}
  {pool : SlotPool String Backend}

theorem balanced {permits : ℕ} {tokens : List Backend} (h : Exit s taskId waiting pool)
    (hpool : s.pool.Balanced permits tokens) : pool.Balanced permits tokens := by
  cases h with
  | waiting => exact hpool
  | admitted hleave => exact hpool.leave hleave
  | holder hrelease => exact hpool.release hrelease

/-- The task that ends is the one that is gone. -/
theorem perm (h : Exit s taskId waiting pool) :
    (s.waiting ++ s.pool.users).Perm (taskId :: (waiting ++ pool.users)) := by
  cases h with
  | waiting hmem => exact (List.perm_cons_erase hmem).append_right _
  | admitted hleave =>
    exact ((SlotPool.users_leave hleave).append_left _).trans List.perm_middle
  | holder hrelease =>
    exact ((SlotPool.users_release hrelease).append_left _).trans List.perm_middle

end Exit

namespace Holds

variable {events : List (Event E)} {s : Scheduler (Details E)}

theorem start (hown : ∀ file ∈ recordsDir, file.2.taskId ∈ records) :
    Holds suite slots runFingerprint records recordsDir []
      (Scheduler.start suite slots records recordsDir) := by
  refine ⟨.start, ?_, by simp [endings, Scheduler.start], by simp, ?_, fun _ hfile _ => hfile,
    by simp [Scheduler.start], fun _ _ => rfl, by simp [Scheduler.start]⟩
  · simp [Scheduler.start, SlotPool.start, SlotPool.users, endings]
  · -- the files that are there are of tasks that have records
    have hnone : recordsDir.filter (·.2.taskId ∈ pending suite records) = [] := by
      rw [List.filter_eq_nil_iff]
      intro file hfile
      simp [pending, hown file hfile]
    simp [Scheduler.start, endings, hnone]

theorem nodup_endings (h : Holds suite slots runFingerprint records recordsDir events s) :
    (s.endings.map Prod.fst).Nodup :=
  (List.nodup_append.mp (h.places.nodup_iff.mpr nodup_pending)).2.1

theorem mem_pending (h : Holds suite slots runFingerprint records recordsDir events s)
    {ending : String × Ending (Details E)} (hmem : ending ∈ s.endings) :
    ending.1 ∈ pending suite records := by
  apply h.places.mem_iff.mp
  exact List.mem_append_right _ (List.mem_map_of_mem hmem)

theorem ending_unique (h : Holds suite slots runFingerprint records recordsDir events s)
    {taskId : String} {a b : Ending (Details E)} (ha : (taskId, a) ∈ s.endings)
    (hb : (taskId, b) ∈ s.endings) : a = b := by
  have heq := List.inj_on_of_nodup_map h.nodup_endings ha hb rfl
  exact (Prod.mk.inj heq).2

/-- A task that ends has not ended before, and is one of the pending. -/
theorem of_exit (h : Holds suite slots runFingerprint records recordsDir events s)
    {taskId : String} {waiting : List String} {pool : SlotPool String Backend}
    (hexit : Exit s taskId waiting pool) :
    taskId ∈ pending suite records ∧ ∀ ending ∈ s.endings, ending.1 ≠ taskId := by
  have hplaces := (hexit.perm.append_right (s.endings.map Prod.fst)).symm.trans h.places
  have hnodup := hplaces.nodup_iff.mpr nodup_pending
  rw [List.cons_append, List.nodup_cons] at hnodup
  constructor
  · exact hplaces.mem_iff.mp (List.mem_cons_self ..)
  · intro ending hmem heq
    apply hnodup.1
    exact List.mem_append_right _ (heq ▸ List.mem_map_of_mem hmem)

theorem file_eq_some {ending : String × Ending R} {f : String × Record R}
    (h : file suite ending = some f) :
    f.1 = suite.safeName ending.1 ∧ ending.2 = .returned f.2 := by
  obtain ⟨taskId, record | - | -⟩ := ending
  · cases h
    exact ⟨rfl, rfl⟩
  · cases h
  · cases h

/-- The record of a task that ends adds its file, and replaces none of a pending task. -/
theorem files_write (h : Holds suite slots runFingerprint records recordsDir events s)
    {taskId : String} {record : Record (Details E)} (hpending : taskId ∈ pending suite records)
    (hnew : ∀ ending ∈ s.endings, ending.1 ≠ taskId) (hrecord : record.taskId = taskId) :
    ((s.recordsDir.write (suite.safeName taskId) record).filter
      (·.2.taskId ∈ pending suite records)).Perm
      ((suite.safeName taskId, record) :: s.endings.filterMap (file suite)) := by
  have hexpected : ∀ {id}, id ∈ pending suite records → id ∈ suite.taskIds := fun hmem =>
    (List.mem_filter.mp hmem).1
  have hkeep : (s.recordsDir.filter (·.2.taskId ∈ pending suite records)).filter
      (·.1 ≠ suite.safeName taskId) =
      s.recordsDir.filter (·.2.taskId ∈ pending suite records) := by
    rw [List.filter_eq_self]
    intro f hf
    obtain ⟨ending, hending, hfile⟩ := List.mem_filterMap.mp (h.files.mem_iff.mp hf)
    apply decide_eq_true
    rw [(file_eq_some hfile).1]
    intro hname
    exact hnew ending hending (suite.safeName_injOn _ (hexpected (h.mem_pending hending)) _
      (hexpected hpending) hname)
  apply ((List.perm_orderedInsert _ _ _).filter _).trans
  rw [List.filter_cons_of_pos (by simpa [hrecord] using hpending), List.filter_comm, hkeep]
  exact h.files.cons _

/-- A task that ends keeps the invariant. -/
theorem endTask (h : Holds suite slots runFingerprint records recordsDir events s)
    {event : Event E} {taskId : String} {ending : Ending (Details E)} {waiting : List String}
    {pool : SlotPool String Backend} (hends : Ends runFingerprint event taskId ending)
    (hexit : Exit s taskId waiting pool) :
    Holds suite slots runFingerprint records recordsDir (events ++ [event])
      (s.endTask suite waiting pool taskId ending) := by
  obtain ⟨hpending, hnew⟩ := h.of_exit hexit
  have hendings : (s.endTask suite waiting pool taskId ending).endings =
      s.endings ++ [(taskId, ending)] := (List.append_assoc ..).symm
  refine ⟨hexit.balanced h.balanced, ?_, ?_, ?_, ?_, ?_, h.lookup_collected, h.lookup_other,
    h.returned⟩
  · -- the task goes from its place to the ends
    rw [hendings, List.map_append]
    apply List.Perm.trans _ h.places
    apply List.Perm.trans _ (hexit.perm.symm.append_right _)
    rw [← List.append_assoc]
    exact List.perm_append_singleton _ _
  · rw [hendings]
    intro x hx
    rcases List.mem_append.mp hx with hx | hx
    · -- an earlier end keeps its event, and this one has the new event
      obtain ⟨e, he, hexplained⟩ := h.explained x hx
      exact ⟨e, List.mem_append_left _ he, hexplained⟩
    · cases List.mem_singleton.mp hx
      exact ⟨event, List.mem_append_right _ (List.mem_singleton_self _), hends⟩
  · rw [hendings]
    intro id hid
    rcases List.mem_append.mp hid with hid | hid
    · exact List.mem_append_left _ (h.cancelled id hid)
    · cases List.mem_singleton.mp hid
      cases hends
      exact List.mem_append_right _ (List.mem_singleton_self _)
  · rw [hendings, List.filterMap_append]
    cases ending with
    | returned record =>
      exact (h.files_write hpending hnew hends.taskId_eq).trans
        (List.perm_append_singleton _ _).symm
    | raised =>
      rw [List.filterMap_cons_none rfl, List.filterMap_nil, List.append_nil]
      exact h.files
    | cancelled =>
      rw [List.filterMap_cons_none rfl, List.filterMap_nil, List.append_nil]
      exact h.files
  · cases ending with
    | returned record =>
      intro f hf hother
      have hmem : f ∈ (suite.safeName taskId, record) ::
          s.recordsDir.filter (·.1 ≠ suite.safeName taskId) :=
        (List.perm_orderedInsert _ _ _).mem_iff.mp hf
      rcases List.mem_cons.mp hmem with rfl | hmem
      · exact absurd (hends.taskId_eq.symm ▸ hpending) hother
      · exact h.others f (List.mem_of_mem_filter hmem) hother
    | raised => exact h.others
    | cancelled => exact h.others

/-- An event that cancels no task adds nothing to the history. -/
theorem frame (h : Holds suite slots runFingerprint records recordsDir events s) {event : Event E}
    (hevent : ∀ taskId, event ≠ .cancel taskId) :
    Holds suite slots runFingerprint records recordsDir (events ++ [event]) s := by
  refine { h with explained := fun ending hending => ?_, cancelled := fun taskId hmem => ?_ }
  · obtain ⟨e, he, hends⟩ := h.explained ending hending
    exact ⟨e, List.mem_append_left _ he, hends⟩
  · rcases List.mem_append.mp hmem with hmem | hmem
    · exact h.cancelled taskId hmem
    · exact absurd (List.mem_singleton.mp hmem).symm (hevent taskId)

theorem acquire (h : Holds suite slots runFingerprint records recordsDir events s)
    {taskId : String} {pool : SlotPool String Backend} (hwaiting : taskId ∈ s.waiting)
    (hpool : s.pool.acquire taskId = some pool) :
    Holds suite slots runFingerprint records recordsDir events
      { s with waiting := s.waiting.erase taskId, pool } := by
  refine { h with balanced := h.balanced.acquire hpool, places := ?_ }
  apply List.Perm.trans _ h.places
  apply List.Perm.append_right
  show (s.waiting.erase taskId ++ pool.users).Perm (s.waiting ++ s.pool.users)
  rw [SlotPool.users_acquire hpool]
  apply List.perm_middle.trans
  exact (List.perm_cons_erase hwaiting).symm.append_right _

theorem take (h : Holds suite slots runFingerprint records recordsDir events s)
    {taskId : String} {pool : SlotPool String Backend} (hpool : s.pool.take taskId = some pool) :
    Holds suite slots runFingerprint records recordsDir events { s with pool } := by
  refine { h with balanced := h.balanced.take hpool, places := ?_ }
  apply List.Perm.trans _ h.places
  exact ((SlotPool.users_take hpool).append_left _).append_right _

/-- `as_completed` hands out a task that has ended. -/
theorem endings_collect {task : String × Ending R} {s : Scheduler R}
    {done : List (String × Ending R)} (hdone : s.done = task :: done) (records : Records R)
    (raised : Bool) :
    endings { s with done, collected := s.collected ++ [task], records, raised } = s.endings := by
  rw [endings, endings, hdone, List.append_assoc]
  rfl

/-- A task that raises what `_run` then raises. -/
theorem collectRaised (h : Holds suite slots runFingerprint records recordsDir events s)
    {task : String × Ending (Details E)} {done : List (String × Ending (Details E))}
    (hdone : s.done = task :: done) (htask : ∀ record, task.2 ≠ .returned record) :
    Holds suite slots runFingerprint records recordsDir events
      { s with done, collected := s.collected ++ [task], raised := true } := by
  have hendings := endings_collect hdone s.records true
  refine ⟨h.balanced, hendings.symm ▸ h.places, hendings.symm ▸ h.explained,
    hendings.symm ▸ h.cancelled, hendings.symm ▸ h.files, h.others, ?_, ?_, by simp⟩
  · intro taskId record hmem
    rcases List.mem_append.mp hmem with hmem | hmem
    · exact h.lookup_collected taskId record hmem
    · exact absurd (congrArg Prod.snd (List.mem_singleton.mp hmem)).symm (htask record)
  · intro taskId hnone
    exact h.lookup_other taskId fun record hmem => hnone record (List.mem_append_left _ hmem)

/-- A record that goes into `records`. -/
theorem collectReturned (h : Holds suite slots runFingerprint records recordsDir events s)
    {taskId : String} {record : Record (Details E)} {raised : Bool}
    {done : List (String × Ending (Details E))} (hraised : s.raised = false)
    (hdone : s.done = (taskId, .returned record) :: done) :
    Holds suite slots runFingerprint records recordsDir events
      { s with
        done
        collected := s.collected ++ [(taskId, .returned record)]
        records := s.records.insert record.taskId record
        raised } := by
  have hendings := endings_collect hdone (s.records.insert record.taskId record) raised
  have hmem : (taskId, .returned record) ∈ s.endings := by
    rw [endings, hdone]
    exact List.mem_append_right _ (List.mem_cons_self ..)
  have hid : record.taskId = taskId := by
    obtain ⟨event, -, hends⟩ := h.explained _ hmem
    exact hends.taskId_eq
  refine ⟨h.balanced, hendings.symm ▸ h.places, hendings.symm ▸ h.explained,
    hendings.symm ▸ h.cancelled, hendings.symm ▸ h.files, h.others, ?_, ?_, ?_⟩
  · intro id found hfound
    have hall : (id, .returned found) ∈ s.endings := hendings ▸ List.mem_append_left _ hfound
    show (s.records.insert record.taskId record).lookup id = some found
    by_cases heq : id = taskId
    · -- a task ends once, so this is its record
      subst heq
      cases h.ending_unique hmem hall
      rw [hid, Finmap.lookup_insert]
    · rw [hid, Finmap.lookup_insert_of_ne _ heq]
      rcases List.mem_append.mp hfound with hfound | hfound
      · exact h.lookup_collected id found hfound
      · exact absurd (congrArg Prod.fst (List.mem_singleton.mp hfound)) heq
  · intro id hnone
    have hne : id ≠ taskId := by
      rintro rfl
      exact hnone record (List.mem_append_right _ (List.mem_singleton_self _))
    show (s.records.insert record.taskId record).lookup id = records.lookup id
    rw [hid, Finmap.lookup_insert_of_ne _ hne]
    exact h.lookup_other id fun found hfound => hnone found (List.mem_append_left _ hfound)
  · intro _ ending hending
    rcases List.mem_append.mp hending with hending | hending
    · exact h.returned hraised ending hending
    · exact ⟨record, congrArg Prod.snd (List.mem_singleton.mp hending)⟩

/-- A task that `_run` collects keeps the invariant. -/
theorem collectTask (h : Holds suite slots runFingerprint records recordsDir events s)
    {resultWritten : Bool} {task : String × Ending (Details E)}
    {done : List (String × Ending (Details E))} (hraised : s.raised = false)
    (hdone : s.done = task :: done) :
    Holds suite slots runFingerprint records recordsDir events
      (s.collectTask done task resultWritten) := by
  obtain ⟨taskId, record | - | -⟩ := task
  · exact h.collectReturned hraised hdone
  · exact h.collectRaised hdone (by simp)
  · exact h.collectRaised hdone (by simp)

/-- **Every step keeps the invariant.** -/
theorem step {t : Scheduler (Details E)} {event : Event E}
    (h : Holds suite slots runFingerprint records recordsDir events s)
    (hstep : s.step suite runFingerprint event = some t) :
    Holds suite slots runFingerprint records recordsDir (events ++ [event]) t := by
  cases move_of_step hstep with
  | acquire hwaiting hpool => exact (h.acquire hwaiting hpool).frame (by simp)
  | take hpool => exact (h.take hpool).frame (by simp)
  | ends hends hexit => exact h.endTask hends hexit
  | collect hraised hdone => exact (h.collectTask hraised hdone).frame (by simp)
  | interrupt => exact { h.frame (by simp) with returned := by simp }

end Holds

/-- The invariant after every run. -/
theorem holds_of_run {events : List (Event E)} {s : Scheduler (Details E)}
    (hown : ∀ file ∈ recordsDir, file.2.taskId ∈ records)
    (hrun : Transition.run (step suite runFingerprint) (start suite slots records recordsDir)
      events = some s) :
    Holds suite slots runFingerprint records recordsDir events s := by
  apply run_invariant hrun (P := Holds suite slots runFingerprint records recordsDir)
  · exact .start hown
  · exact fun _ _ _ _ h hstep => h.step hstep

end

/-! ## The slots at every moment, and the records at the end -/

/-- Slots are never exceeded, and never idle while a task waits for one. -/
structure WithinSlots (slots : Slots) (s : Scheduler R) : Prop where
  held_le : ∀ backend, (s.pool.holders.map Prod.snd).count backend ≤ slots.tasksPerReplica
  running_le : s.pool.users.length ≤ slots.concurrency
  conserved : (s.pool.free ++ s.pool.holders.map Prod.snd).Perm slots.backendQueue
  admits : s.pool.users.length < slots.concurrency → 0 < s.pool.permits
  available : s.pool.admitted ≠ [] → s.pool.free ≠ []

/-- All tasks have ended. -/
def Finished (s : Scheduler R) : Prop := s.waiting = [] ∧ s.pool.users = []

/-- What a record has to say of an outcome: the verifier's reward after a run, and a zero after an
exception. -/
inductive Reports (runFingerprint taskId : String) (backend : Backend) :
    Outcome E → Record (Details E) → Prop
  | success (reward : ℚ) (finished : Bool) (extraInfo : E) :
    Reports runFingerprint taskId backend (.success reward finished extraInfo)
      { taskId
        score := reward
        status := .success
        finished
        runFingerprint
        details := ⟨backend, extraInfo⟩ }
  | error (extraInfo : E) :
    Reports runFingerprint taskId backend (.error extraInfo)
      { taskId
        score := 0
        status := .error
        finished := false
        runFingerprint
        details := ⟨backend, extraInfo⟩ }

/-- A record that reports an outcome which its task has finished with. -/
def Earned (runFingerprint : String) (events : List (Event E)) (taskId : String)
    (record : Record (Details E)) : Prop :=
  ∃ outcome backend, .finish taskId outcome ∈ events ∧
    Reports runFingerprint taskId backend outcome record

/-- `_run` has returned. -/
def Returned (s : Scheduler R) : Prop := s.Finished ∧ s.done = [] ∧ s.raised = false

section

variable {suite : Suite V} {slots : Slots} {runFingerprint : String}
  {records : Records (Details E)} {recordsDir : RecordsDir (Details E)} {events : List (Event E)}
  {s : Scheduler (Details E)}

theorem reports_runOne (taskId : String) (outcome : Outcome E) (backend : Backend) :
    Reports runFingerprint taskId backend outcome
      (runOne runFingerprint taskId (outcome.map (Details.mk backend))) := by
  cases outcome with
  | success reward finished extraInfo => exact .success reward finished extraInfo
  | error extraInfo => exact .error extraInfo

theorem Ends.earned {event : Event E} {taskId : String} {record : Record (Details E)}
    (h : Ends runFingerprint event taskId (.returned record)) (hmem : event ∈ events) :
    Earned runFingerprint events taskId record := by
  cases h with
  | finish _ outcome backend =>
    exact ⟨outcome, backend, hmem, reports_runOne taskId outcome backend⟩

namespace Holds

theorem withinSlots (h : Holds suite slots runFingerprint records recordsDir events s) :
    s.WithinSlots slots where
  held_le backend := (h.balanced.count_le backend).trans (slots.count_backendQueue_le backend)
  running_le := h.balanced.length_users_le
  conserved := h.balanced.tokens_perm
  admits := h.balanced.permits_pos
  available := by
    apply h.balanced.free_ne_nil
    rw [slots.length_backendQueue]
    exact slots.concurrency_le

/-- The tasks of a state in which all have ended. -/
theorem exists_ending (h : Holds suite slots runFingerprint records recordsDir events s)
    (hfinished : s.Finished) {taskId : String} (hpending : taskId ∈ pending suite records) :
    ∃ ending, (taskId, ending) ∈ s.endings := by
  have hmem := h.places.mem_iff.mpr hpending
  rw [hfinished.1, hfinished.2, List.nil_append, List.nil_append] at hmem
  obtain ⟨⟨id, ending⟩, hending, rfl⟩ := List.mem_map.mp hmem
  exact ⟨ending, hending⟩

/-- A returned record is of an outcome that its task finished with. -/
theorem earned (h : Holds suite slots runFingerprint records recordsDir events s)
    {taskId : String} {record : Record (Details E)}
    (hmem : (taskId, .returned record) ∈ s.endings) :
    Earned runFingerprint events taskId record := by
  obtain ⟨event, hevent, hends⟩ := h.explained _ hmem
  exact hends.earned hevent

/-- **The scheduler is never stuck**: while a task has not ended, one can go on. -/
theorem exists_step (h : Holds suite slots runFingerprint records recordsDir events s)
    (hpos : 0 < slots.concurrency) (hnot : ¬ s.Finished) (outcome : Outcome E) :
    ∃ taskId, (s.step suite runFingerprint (.acquire taskId)).isSome ∨
      (s.step suite runFingerprint (.takeBackend taskId)).isSome ∨
      (s.step suite runFingerprint (.finish taskId outcome)).isSome := by
  rcases List.eq_nil_or_concat' s.pool.admitted with hadmitted | ⟨_, taskId, hadmitted⟩
  · rcases List.eq_nil_or_concat' s.pool.holders with hholders | ⟨_, ⟨taskId, backend⟩, hholders⟩
    · -- no task has a permit, so one that waits can take it
      have husers : s.pool.users = [] := by simp [SlotPool.users, hadmitted, hholders]
      obtain ⟨taskId, hwaiting⟩ := List.exists_mem_of_ne_nil _ fun hnone => hnot ⟨hnone, husers⟩
      have hpermits := h.balanced.permits_pos (by simpa [husers] using hpos)
      refine ⟨taskId, Or.inl ?_⟩
      rw [Scheduler.step, if_pos hwaiting, SlotPool.acquire, if_pos hpermits]
      rfl
    · -- a task that has a backend can finish
      have hmem : (taskId, backend) ∈ s.pool.holders := by simp [hholders]
      obtain ⟨token, pool, hrelease⟩ := SlotPool.exists_release hmem
      refine ⟨taskId, Or.inr (Or.inr ?_)⟩
      rw [Scheduler.step, hrelease]
      rfl
  · -- a task that has a permit finds a backend
    have hmem : taskId ∈ s.pool.admitted := by simp [hadmitted]
    have hfree := h.withinSlots.available (List.ne_nil_of_mem hmem)
    obtain ⟨backend, free, hfree⟩ := List.exists_cons_of_ne_nil hfree
    have htake := SlotPool.take_eq_some.mpr ⟨hmem, backend, free, hfree, rfl⟩
    refine ⟨taskId, Or.inr (Or.inl ?_)⟩
    rw [Scheduler.step, htake]
    rfl

end Holds

end

/-- Two replicas with one task each. -/
def pair : Slots := ⟨["/0.sock", "/1.sock"], 2, 1, by decide⟩

end Scheduler

end CodexEval
