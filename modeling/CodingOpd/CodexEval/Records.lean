import Mathlib.Algebra.Order.Field.Rat
import Mathlib.Algebra.BigOperators.Group.List.Basic
import Mathlib.Data.String.Basic
import Mathlib.Data.List.Sort
import CodingOpd.CodexEval.Identity

/-!
# Task records and the start of a phase

A finished task leaves a record file in the run's records directory, and `result.json` repeats the
records the process knows of. `main` starts a phase from the two: the run's own record files, and
the records of the run that it resumes from.

## Main definitions

* `Record`, `RunDir`, `Payload`: a record, and the files of a run
* `loadRecords`, `resumeRecords`: the records of a run's own, and of its source
* `resultPayload`, `mainStart`: `result.json`, and `main` up to the first one of a phase
* `Indexes`: a dictionary of records holds the records of a set

## Main results

* `loadRecords_indexes`, `resumeRecords_indexes`: what a directory and a source load to
-/

open Python

namespace CodexEval

inductive Status where
  | success
  | error
deriving DecidableEq, Repr

/-- A task's record. `details` is what the evaluation only stores: times, backend, artifacts. -/
structure Record (R : Type) where
  taskId : String
  score : ℚ
  status : Status
  finished : Bool
  runFingerprint : String
  details : R
deriving DecidableEq

/-- A dictionary of records by task. -/
abbrev Records (R : Type) := Finmap fun _ : String => Record R

/-- The record files of a run, in the order of their names. -/
abbrev RecordsDir (R : Type) := List (String × Record R)

/-- `_atomic_write_json` of a record: the file of that name is replaced. -/
def RecordsDir.write {R : Type} (dir : RecordsDir R) (path : String) (record : Record R) :
    RecordsDir R :=
  (dir.filter (·.1 ≠ path)).orderedInsert (fun a b => a.1 ≤ b.1) (path, record)

/-- `resume_provenance`. -/
structure Provenance (V : Type) where
  sourceRunIdentity : Identity V
  sourceRunFingerprint : String
  inheritedFingerprints : Finset String
  inheritedTasks : ℕ
  reviewedSourceGitSha : Option String
  reviewedSourceTaskConfigSha256 : Option String

/-- The parts of `result.json` that are computed. -/
structure Payload (V R : Type) where
  complete : Bool
  runIdentity : Identity V
  runFingerprint : String
  numTasks : ℕ
  completedTasks : ℕ
  pendingTasks : ℕ
  scoredSessions : ℕ
  meanScore : Option ℚ
  meanScoreCompleted : Option ℚ
  meanScoreLowerBound : ℚ
  resumeProvenance : Option (Provenance V)
  tasks : List (Record R)

/-- The files of a run: `result.json`, and the records directory next to it. -/
structure RunDir (V R : Type) where
  resultPath : String
  records : RecordsDir R
  result : Payload V R

/-- The arguments that a phase is started with. -/
structure Args (V : Type) where
  identity : Identity V
  resultPath : String
  resumeSourceGitSha : Option String := none
  resumeSourceTaskConfigSha256 : Option String := none

section

variable {V R : Type}

/-- One file of the loop of `_load_records`. -/
def loadRecord (expectedTaskIds : List String) (runFingerprint : String) (records : Records R)
    (file : String × Record R) : Except PyError (Records R) :=
  if file.2.taskId ∉ expectedTaskIds then
    .error (.valueError "unexpected task record")
  else if file.2.runFingerprint ≠ runFingerprint then
    .error (.valueError "task record was produced by a different run configuration")
  else if file.2.taskId ∈ records then
    .error (.valueError "duplicate completed record")
  else
    .ok (records.insert file.2.taskId file.2)

/-- `_load_records`. -/
def loadRecords (dir : RecordsDir R) (expectedTaskIds : List String) (runFingerprint : String) :
    Except PyError (Records R) :=
  dir.foldlM (loadRecord expectedTaskIds runFingerprint) ∅

/-- One task of the source's `result.json` in the loop of `_resume_records`. -/
def importTask [DecidableEq R] (expectedTaskIds : List String) (allowed : Finset String)
    (records : Records R) (record : Record R) : Except PyError (Records R) :=
  if record.taskId ∉ expectedTaskIds ∨ record.runFingerprint ∉ allowed then
    .error (.valueError "invalid inherited task record")
  else if record.taskId ∈ records ∧ records.lookup record.taskId ≠ some record then
    .error (.valueError "resume source record disagrees with result")
  else
    .ok (records.insert record.taskId record)

/-- The provenance that `_resume_records` returns with the records. -/
def provenanceOf (args : Args V) (payload : Payload V R) (records : Records R) : Provenance V where
  sourceRunIdentity := payload.runIdentity
  sourceRunFingerprint := payload.runFingerprint
  inheritedFingerprints := (records.entries.map (·.2.runFingerprint)).toFinset
  inheritedTasks := records.keys.card
  reviewedSourceGitSha := args.resumeSourceGitSha
  reviewedSourceTaskConfigSha256 := args.resumeSourceTaskConfigSha256

/-- `_resume_records`. -/
def resumeRecords [DecidableEq V] [DecidableEq R] (fingerprint : Identity V → String)
    (args : Args V) (source : Option (RunDir V R)) (expectedTaskIds : List String) :
    Except PyError (Records R × Option (Provenance V)) :=
  match source with
  | none => .ok (∅, none)
  | some source => do
    if source.resultPath = args.resultPath then
      throw (.valueError "resume source must be a separate, stopped run")
    let payload := source.result
    if fingerprint payload.runIdentity ≠ payload.runFingerprint then
      throw (.valueError "resume source identity fingerprint is invalid")
    checkIdentity payload.runIdentity args.identity args.resumeSourceGitSha
      args.resumeSourceTaskConfigSha256
    let records ← loadRecords source.records expectedTaskIds payload.runFingerprint
    let inherited := payload.resumeProvenance.elim ∅ (·.inheritedFingerprints)
    let records ← payload.tasks.foldlM
      (importTask expectedTaskIds (insert payload.runFingerprint inherited)) records
    return (records, some (provenanceOf args payload records))

/-- `_result_payload`. -/
def resultPayload (fingerprint : Identity V → String) (identity : Identity V)
    (taskIds : List String) (records : Records R) (resumeProvenance : Option (Provenance V)) :
    Payload V R :=
  let ordered := taskIds.filterMap records.lookup
  let scores := ordered.map (·.score)
  let total := taskIds.length
  let complete : Bool := ordered.length = total
  { complete
    runIdentity := identity
    runFingerprint := fingerprint identity
    numTasks := total
    completedTasks := ordered.length
    pendingTasks := total - ordered.length
    scoredSessions := ordered.countP (·.status = .success)
    meanScore :=
      if complete ∧ scores ≠ [] then some (scores.sum / scores.length)
      else if complete then some 0 else none
    meanScoreCompleted := if scores ≠ [] then some (scores.sum / scores.length) else none
    meanScoreLowerBound := if total ≠ 0 then scores.sum / total else 0
    resumeProvenance
    tasks := ordered }

/-- `main` up to the first `result.json` of the phase: the records that the phase starts with, and
the files of its run. -/
def mainStart [DecidableEq V] [DecidableEq R] (fingerprint : Identity V → String)
    (taskIds : List String) (args : Args V) (own : RecordsDir R) (source : Option (RunDir V R)) :
    Except PyError (Records R × RunDir V R) := do
  let records ← loadRecords own taskIds (fingerprint args.identity)
  let (inherited, resumeProvenance) ← resumeRecords fingerprint args source taskIds
  if ¬ records.Disjoint inherited then
    throw (.valueError "completed inherited tasks were rerun in this phase")
  let records := records ∪ inherited
  return (records,
    { resultPath := args.resultPath
      records := own
      result := resultPayload fingerprint args.identity taskIds records resumeProvenance })

end

/-! ## What the dictionaries hold -/

section

variable {V R : Type}

/-- The dictionary holds the records of the set, each under its task. -/
def Indexes (records : Records R) (s : Set (Record R)) : Prop :=
  ∀ taskId record, records.lookup taskId = some record ↔ record ∈ s ∧ record.taskId = taskId

namespace Indexes

variable {records other : Records R} {s t : Set (Record R)}

theorem empty : Indexes (∅ : Records R) ∅ := by
  intro taskId record
  simp

theorem mem_iff (h : Indexes records s) {taskId : String} :
    taskId ∈ records ↔ ∃ record ∈ s, record.taskId = taskId := by
  rw [Finmap.mem_iff]
  exact exists_congr fun record => h taskId record

theorem lookup_of_mem (h : Indexes records s) {record : Record R} (hmem : record ∈ s) :
    records.lookup record.taskId = some record :=
  (h _ _).mpr ⟨hmem, rfl⟩

/-- A record of a new task, or one that is there already. -/
theorem insert (h : Indexes records s) (record : Record R)
    (hnew : ∀ known ∈ s, known.taskId = record.taskId → known = record) :
    Indexes (records.insert record.taskId record) (insert record s) := by
  intro taskId found
  by_cases htask : taskId = record.taskId
  · subst htask
    rw [Finmap.lookup_insert, Option.some_inj]
    constructor
    · rintro rfl
      exact ⟨Set.mem_insert _ _, rfl⟩
    · rintro ⟨rfl | hfound, hid⟩
      · rfl
      · exact (hnew found hfound hid).symm
  · rw [Finmap.lookup_insert_of_ne _ htask, h taskId found]
    constructor
    · rintro ⟨hfound, hid⟩
      exact ⟨Or.inr hfound, hid⟩
    · rintro ⟨rfl | hfound, hid⟩
      · exact absurd hid.symm htask
      · exact ⟨hfound, hid⟩

theorem union (h : Indexes records s) (h' : Indexes other t)
    (hdisjoint : ∀ a ∈ s, ∀ b ∈ t, a.taskId ≠ b.taskId) : Indexes (records ∪ other) (s ∪ t) := by
  intro taskId record
  rw [← Option.mem_def, Finmap.mem_lookup_union, Option.mem_def, Option.mem_def, h taskId record,
    h' taskId record, Set.mem_union]
  constructor
  · rintro (⟨hs, hid⟩ | ⟨-, ht, hid⟩)
    · exact ⟨Or.inl hs, hid⟩
    · exact ⟨Or.inr ht, hid⟩
  · rintro ⟨hs | ht, hid⟩
    · exact Or.inl ⟨hs, hid⟩
    · refine Or.inr ⟨fun hmem => ?_, ht, hid⟩
      obtain ⟨known, hknown, hknownId⟩ := h.mem_iff.mp hmem
      exact hdisjoint known hknown record ht (hknownId.trans hid.symm)

theorem disjoint (h : Indexes records s) (h' : Indexes other t)
    (hdisjoint : ∀ a ∈ s, ∀ b ∈ t, a.taskId ≠ b.taskId) : records.Disjoint other := by
  intro taskId hleft hright
  obtain ⟨a, ha, haId⟩ := h.mem_iff.mp hleft
  obtain ⟨b, hb, hbId⟩ := h'.mem_iff.mp hright
  exact hdisjoint a ha b hb (haId.trans hbId.symm)

/-- `ordered` of `_result_payload`. -/
theorem mem_filterMap_lookup (h : Indexes records s) {taskIds : List String}
    (hexpected : ∀ record ∈ s, record.taskId ∈ taskIds) {record : Record R} :
    record ∈ taskIds.filterMap records.lookup ↔ record ∈ s := by
  rw [List.mem_filterMap]
  constructor
  · rintro ⟨taskId, -, hlookup⟩
    exact ((h taskId record).mp hlookup).1
  · intro hmem
    exact ⟨record.taskId, hexpected record hmem, h.lookup_of_mem hmem⟩

/-- Tasks other than the record's contribute nothing of the record's task. -/
theorem filter_filterMap_of_notMem (h : Indexes records s) {taskIds : List String} {taskId : String}
    (hmem : taskId ∉ taskIds) :
    (taskIds.filterMap records.lookup).filter (·.taskId = taskId) = [] := by
  rw [List.filter_eq_nil_iff]
  intro record hrecord
  obtain ⟨other, hother, hlookup⟩ := List.mem_filterMap.mp hrecord
  rw [decide_eq_true_eq, ((h other record).mp hlookup).2]
  exact fun heq => hmem (heq ▸ hother)

/-- `ordered` has a record of the dictionary once, and no other of its task. -/
theorem filter_filterMap_lookup (h : Indexes records s) {taskIds : List String}
    (hnodup : taskIds.Nodup) {record : Record R} (hmem : record ∈ s)
    (hexpected : record.taskId ∈ taskIds) :
    (taskIds.filterMap records.lookup).filter (·.taskId = record.taskId) = [record] := by
  obtain ⟨before, after, rfl⟩ := List.append_of_mem hexpected
  rw [List.nodup_append, List.nodup_cons] at hnodup
  obtain ⟨-, ⟨hafter, -⟩, hbefore⟩ := hnodup
  have hbefore' : record.taskId ∉ before := fun hin =>
    hbefore _ hin _ (List.mem_cons_self ..) rfl
  rw [List.filterMap_append, List.filter_append, h.filter_filterMap_of_notMem hbefore',
    List.filterMap_cons, h.lookup_of_mem hmem, List.nil_append]
  show List.filter _ (record :: _) = _
  rw [List.filter_cons_of_pos (by simp), h.filter_filterMap_of_notMem hafter]

end Indexes

/-- The records of a directory's files. -/
def RecordsDir.contents (dir : RecordsDir R) : Set (Record R) :=
  {record | ∃ file ∈ dir, file.2 = record}

theorem RecordsDir.contents_cons (file : String × Record R) (dir : RecordsDir R) :
    RecordsDir.contents (file :: dir) = insert file.2 dir.contents := by
  ext record
  simp [contents, eq_comm]

/-- A directory with one file a task, all of the run's own, loads. -/
theorem loadRecords_indexes {dir : RecordsDir R} {expectedTaskIds : List String}
    {runFingerprint : String}
    (hfiles : ∀ file ∈ dir, file.2.taskId ∈ expectedTaskIds ∧
      file.2.runFingerprint = runFingerprint)
    (hnodup : (dir.map (·.2.taskId)).Nodup) :
    ∃ records, loadRecords dir expectedTaskIds runFingerprint = .ok records ∧
      Indexes records dir.contents := by
  suffices h : ∀ (records : Records R) (s : Set (Record R)), Indexes records s →
      (∀ known ∈ s, ∀ file ∈ dir, known.taskId ≠ file.2.taskId) →
      ∃ loaded, dir.foldlM (loadRecord expectedTaskIds runFingerprint) records = .ok loaded ∧
        Indexes loaded (s ∪ dir.contents) by
    obtain ⟨loaded, hloaded, hindexes⟩ := h ∅ ∅ Indexes.empty (by simp)
    exact ⟨loaded, hloaded, by rwa [Set.empty_union] at hindexes⟩
  induction dir with
  | nil =>
    intro records s hindexes _
    exact ⟨records, rfl, by simpa [RecordsDir.contents] using hindexes⟩
  | cons file dir ih =>
    intro records s hindexes hdisjoint
    obtain ⟨hexpected, hfingerprint⟩ := hfiles file (List.mem_cons_self ..)
    rw [List.map_cons, List.nodup_cons] at hnodup
    have hfresh : file.2.taskId ∉ records := by
      rw [hindexes.mem_iff]
      rintro ⟨known, hknown, hid⟩
      exact hdisjoint known hknown file (List.mem_cons_self ..) hid
    have hinsert := hindexes.insert file.2 fun known hknown hid =>
      absurd hid (hdisjoint known hknown file (List.mem_cons_self ..))
    obtain ⟨loaded, hloaded, hrest⟩ := ih (fun f hf => hfiles f (List.mem_cons_of_mem _ hf))
      hnodup.2 _ _ hinsert (by
        rintro known (rfl | hknown) f hf
        · intro hid
          exact hnodup.1 (List.mem_map.mpr ⟨f, hf, hid.symm⟩)
        · exact hdisjoint known hknown f (List.mem_cons_of_mem _ hf))
    refine ⟨loaded, ?_, ?_⟩
    · rw [List.foldlM_cons, loadRecord, if_neg (not_not.mpr hexpected),
        if_neg (not_not.mpr hfingerprint), if_neg hfresh]
      exact hloaded
    · rwa [RecordsDir.contents_cons, Set.union_insert, ← Set.insert_union]

/-- The files that load are of tasks in the dictionary. -/
theorem mem_of_loadRecords {dir : RecordsDir R} {expectedTaskIds : List String}
    {runFingerprint : String} {loaded : Records R}
    (h : loadRecords dir expectedTaskIds runFingerprint = .ok loaded) :
    ∀ file ∈ dir, file.2.taskId ∈ loaded := by
  suffices hall : ∀ records : Records R,
      dir.foldlM (loadRecord expectedTaskIds runFingerprint) records = .ok loaded →
      (∀ taskId ∈ records, taskId ∈ loaded) ∧ ∀ file ∈ dir, file.2.taskId ∈ loaded from
    (hall ∅ h).2
  clear h
  induction dir with
  | nil =>
    intro records h
    cases h
    exact ⟨fun _ => id, by simp⟩
  | cons file dir ih =>
    intro records h
    obtain ⟨next, hnext, hrest⟩ := bind_eq_ok.mp h
    obtain ⟨hkeep, hfiles⟩ := ih next hrest
    have hinsert : next = records.insert file.2.taskId file.2 := by
      unfold loadRecord at hnext
      split at hnext
      · cases hnext
      · split at hnext
        · cases hnext
        · split at hnext
          · cases hnext
          · exact (Except.ok.inj hnext).symm
    subst hinsert
    constructor
    · intro taskId hmem
      exact hkeep taskId (Finmap.mem_insert.mpr (Or.inr hmem))
    · intro f hf
      rcases List.mem_cons.mp hf with rfl | hf
      · exact hkeep _ (Finmap.mem_insert.mpr (Or.inl rfl))
      · exact hfiles f hf

/-- A phase starts in the run's own directory, and knows the tasks of its files. -/
theorem of_mainStart [DecidableEq V] [DecidableEq R] {fingerprint : Identity V → String}
    {taskIds : List String} {args : Args V} {own : RecordsDir R} {source : Option (RunDir V R)}
    {records : Records R} {run : RunDir V R}
    (h : mainStart fingerprint taskIds args own source = .ok (records, run)) :
    run.records = own ∧ fingerprint run.result.runIdentity = run.result.runFingerprint ∧
      ∀ file ∈ own, file.2.taskId ∈ records := by
  obtain ⟨loaded, hloaded, h⟩ := bind_eq_ok.mp h
  obtain ⟨⟨inherited, provenance⟩, -, h⟩ := bind_eq_ok.mp h
  by_cases hdisjoint : loaded.Disjoint inherited
  · simp only [hdisjoint, not_true_eq_false, if_false] at h
    cases h
    refine ⟨rfl, rfl, fun file hfile => ?_⟩
    exact Finmap.mem_union.mpr (Or.inl (mem_of_loadRecords hloaded file hfile))
  · simp only [hdisjoint, not_false_eq_true, if_true] at h
    cases h

/-- The tasks of a `result.json` that agrees with the records loaded are imported. -/
theorem importTasks_indexes [DecidableEq R] {expectedTaskIds : List String}
    {allowed : Finset String} {records : Records R} {tasks : List (Record R)}
    {s : Set (Record R)} (hindexes : Indexes records s)
    (htasks : ∀ record ∈ tasks, record.taskId ∈ expectedTaskIds ∧
      record.runFingerprint ∈ allowed)
    (hagree : ∀ a ∈ s ∪ {record | record ∈ tasks}, ∀ b ∈ s ∪ {record | record ∈ tasks},
      a.taskId = b.taskId → a = b) :
    ∃ imported, tasks.foldlM (importTask expectedTaskIds allowed) records = .ok imported ∧
      Indexes imported (s ∪ {record | record ∈ tasks}) := by
  induction tasks generalizing records s with
  | nil => exact ⟨records, rfl, by simpa using hindexes⟩
  | cons record tasks ih =>
    have hset : s ∪ {r | r ∈ record :: tasks} = insert record s ∪ {r | r ∈ tasks} := by
      ext r
      simp only [Set.mem_union, Set.mem_ofPred_eq, List.mem_cons, Set.mem_insert_iff]
      tauto
    rw [hset] at hagree ⊢
    obtain ⟨hexpected, hallowed⟩ := htasks record (List.mem_cons_self ..)
    have hknown : ∀ known ∈ s, known.taskId = record.taskId → known = record := fun known hmem =>
      hagree known (Or.inl (Or.inr hmem)) record (Or.inl (Or.inl rfl))
    obtain ⟨imported, himported, hrest⟩ := ih (hindexes.insert _ hknown)
      (fun r hr => htasks r (List.mem_cons_of_mem _ hr)) hagree
    refine ⟨imported, ?_, hrest⟩
    have hsame : ¬ (record.taskId ∈ records ∧ records.lookup record.taskId ≠ some record) := by
      rintro ⟨hmem, hne⟩
      obtain ⟨known, hmem, hid⟩ := hindexes.mem_iff.mp hmem
      rw [hknown known hmem hid] at hmem
      exact hne (hindexes.lookup_of_mem hmem)
    have hvalid : ¬ (record.taskId ∉ expectedTaskIds ∨ record.runFingerprint ∉ allowed) := by
      simp [hexpected, hallowed]
    rw [List.foldlM_cons, importTask, if_neg hvalid, if_neg hsame]
    exact himported

end

end CodexEval
