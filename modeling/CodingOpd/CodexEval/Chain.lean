import CodingOpd.Library.Transition
import CodingOpd.CodexEval.Records

/-!
# Chains of restarts and resumes

An evaluation goes through phases. Each phase is a process of `main`, started in the files that
the one before it left when it was killed: a restart of the same run, or a new run that resumes
from it. What a task's record is worth is that it survives: the records of all the runs so far are
those of the run's own directory and of its source, at every point where a kill can fall.

## Main definitions

* `Chain`, `Event`, `Chain.step`: the runs so far, and what can happen to them
* `Launch`, `Chain.launch`: a restart or a resume
* `RunDir.Holds`, `Chain.Survives`: the invariant, of the files of a run and of the chain

## Main results

* `Chain.survives_of_reaches`: the invariant in every reachable state
* `Chain.records_survive`: no record is lost, repeated or changed
-/

open Python Transition

namespace CodexEval

variable {V R : Type}

/-- A record that `_run_one` wrote, and where it did. -/
structure Entry (V R : Type) where
  record : Record R
  identity : Identity V
  run : ℕ
  phase : ℕ

/-- The process of a phase. -/
structure Process (R : Type) where
  /-- `records` of `_run`. -/
  records : Records R
  /-- The tasks that have not written their record. -/
  running : List String
  /-- The records on disk that `_run` has not collected. -/
  written : List (Record R)

/-- A chain of phases: the current run, the stopped one that it resumes from, and the process when
there is one. -/
structure Chain (V R : Type) where
  previous : Option (RunDir V R)
  current : RunDir V R
  live : Option (Process R)
  /-- All the records ever written. -/
  history : List (Entry V R)
  /-- The runs before the current one, and the phases before the current one. -/
  run : ℕ
  phase : ℕ
  /-- The `result.json` of all the runs. -/
  resultPaths : List String
  /-- The fields whose change was reviewed when a run resumed from another. -/
  reviewedFields : Set String

/-- How a phase is started. -/
inductive Launch (V : Type) where
  /-- The same run again. -/
  | restart (resumeSourceGitSha resumeSourceTaskConfigSha256 : Option String)
  /-- A new run that resumes from the current one. -/
  | resume (args : Args V)

/-- How a task ends: with the verifier's reward, or with an exception. -/
inductive Outcome (R : Type) where
  | success (reward : ℚ) (finished : Bool) (details : R)
  | error (details : R)

/-- The record of `_run_one`. -/
def runOne (runFingerprint taskId : String) : Outcome R → Record R
  | .success reward finished details =>
    { taskId, score := reward, status := .success, finished, runFingerprint, details }
  | .error details =>
    { taskId, score := 0, status := .error, finished := false, runFingerprint, details }

@[simp] theorem runOne_taskId (runFingerprint taskId : String) (outcome : Outcome R) :
    (runOne runFingerprint taskId outcome).taskId = taskId := by
  cases outcome <;> rfl

@[simp] theorem runOne_runFingerprint (runFingerprint taskId : String) (outcome : Outcome R) :
    (runOne runFingerprint taskId outcome).runFingerprint = runFingerprint := by
  cases outcome <;> rfl

inductive Event (V R : Type) where
  | launch (launch : Launch V)
  /-- A task ends, and `_run_one` writes its record. -/
  | finish (taskId : String) (outcome : Outcome R)
  /-- `_run` takes a finished task's record and rewrites `result.json`. -/
  | collect (record : Record R)
  | kill

/-- What the evaluation is run with: the tasks, which `validate_runtime_dataset` has found to be
distinct, and the hashes behind fingerprints and file names. -/
structure Suite (V : Type) where
  taskIds : List String
  taskIds_nodup : taskIds.Nodup
  fingerprint : Identity V → String
  safeName : String → String
  safeName_injOn : ∀ a ∈ taskIds, ∀ b ∈ taskIds, safeName a = safeName b → a = b

variable [DecidableEq V] [DecidableEq R]

namespace Launch

variable (chain : Chain V R)

/-- The arguments of the phase. -/
def args : Launch V → Args V
  | .restart resumeSourceGitSha resumeSourceTaskConfigSha256 =>
    { identity := chain.current.result.runIdentity
      resultPath := chain.current.resultPath
      resumeSourceGitSha, resumeSourceTaskConfigSha256 }
  | .resume args => args

/-- The records directory of the run that the phase belongs to. -/
def own : Launch V → RecordsDir R
  | .restart _ _ => chain.current.records
  | .resume _ => []

/-- The run that `--resume-from-result` names. -/
def source : Launch V → Option (RunDir V R)
  | .restart _ _ => chain.previous
  | .resume _ => some chain.current

/-- The number of the run that the phase belongs to. -/
def run : Launch V → ℕ
  | .restart _ _ => chain.run
  | .resume _ => chain.run + 1

/-- A new run has a directory of its own. -/
def Separate : Launch V → Prop
  | .restart _ _ => True
  | .resume args => args.resultPath ∉ chain.resultPaths

instance (launch : Launch V) : Decidable (launch.Separate chain) := by
  cases launch
  · exact inferInstanceAs (Decidable True)
  · exact inferInstanceAs (Decidable (_ ∉ _))

/-- The fields whose change the phase reviews, when it starts a run. -/
def reviewedFields : Launch V → Set String
  | .restart _ _ => ∅
  | .resume args => reviewed chain.current.result.runIdentity args.resumeSourceGitSha
      args.resumeSourceTaskConfigSha256

end Launch

namespace Chain

variable (suite : Suite V)

/-- The process with the tasks of `_run` created. -/
def startProcess (records : Records R) : Process R :=
  { records, running := suite.taskIds.filter (· ∉ records), written := [] }

/-- The first phase of a chain. -/
def first (args : Args V) : Except PyError (Chain V R) := do
  let (records, run) ← mainStart suite.fingerprint suite.taskIds args [] none
  return {
    previous := none
    current := run
    live := some (startProcess suite records)
    history := []
    run := 0
    phase := 0
    resultPaths := [args.resultPath]
    reviewedFields := ∅ }

/-- A further phase, once the one before has been killed. -/
def launch (chain : Chain V R) (launch : Launch V) : Except PyError (Chain V R) := do
  let (records, run) ← mainStart suite.fingerprint suite.taskIds (launch.args chain)
    (launch.own chain) (launch.source chain)
  return {
    previous := launch.source chain
    current := run
    live := some (startProcess suite records)
    history := chain.history
    run := launch.run chain
    phase := chain.phase + 1
    resultPaths := (launch.args chain).resultPath :: chain.resultPaths
    reviewedFields := chain.reviewedFields ∪ launch.reviewedFields chain }

/-- A record file is written, and its task ends. -/
def write (chain : Chain V R) (process : Process R) (entry : Entry V R) : Chain V R :=
  { chain with
    current :=
      { chain.current with
        records := chain.current.records.write (suite.safeName entry.record.taskId) entry.record }
    live := some
      { process with
        running := process.running.filter (· ≠ entry.record.taskId)
        written := entry.record :: process.written }
    history := entry :: chain.history }

/-- `_run_one` of a task. -/
def finish (chain : Chain V R) (process : Process R) (taskId : String) (outcome : Outcome R) :
    Chain V R :=
  chain.write suite process
    { record := runOne chain.current.result.runFingerprint taskId outcome
      identity := chain.current.result.runIdentity
      run := chain.run
      phase := chain.phase }

/-- `_run` collects a record. -/
def collect (chain : Chain V R) (process : Process R) (record : Record R) : Chain V R :=
  let records := process.records.insert record.taskId record
  { chain with
    current :=
      { chain.current with
        result := resultPayload suite.fingerprint chain.current.result.runIdentity suite.taskIds
          records chain.current.result.resumeProvenance }
    live := some { process with records, written := process.written.filter (· ≠ record) } }

/-- The chain after an event; `none` where it cannot happen, and where `main` rejects a phase. -/
def step (chain : Chain V R) : Event V R → Option (Chain V R)
  | .launch l =>
    match chain.live with
    | none =>
      if l.Separate chain then
        match chain.launch suite l with
        | .ok next => some next
        | .error _ => none
      else none
    | some _ => none
  | .finish taskId outcome =>
    match chain.live with
    | some process =>
      if taskId ∈ process.running then some (chain.finish suite process taskId outcome) else none
    | none => none
  | .collect record =>
    match chain.live with
    | some process =>
      if record ∈ process.written then some (chain.collect suite process record) else none
    | none => none
  | .kill => some { chain with live := none }

/-- All that a step can do. -/
inductive Move (chain : Chain V R) : Event V R → Chain V R → Prop
  | launch {l next} : chain.live = none → l.Separate chain → chain.launch suite l = .ok next →
    Move chain (.launch l) next
  | finish {process taskId outcome} : chain.live = some process → taskId ∈ process.running →
    Move chain (.finish taskId outcome) (chain.finish suite process taskId outcome)
  | collect {process record} : chain.live = some process → record ∈ process.written →
    Move chain (.collect record) (chain.collect suite process record)
  | kill : Move chain .kill { chain with live := none }

variable {suite} in
theorem move_of_step {chain next : Chain V R} {event : Event V R}
    (h : chain.step suite event = some next) : Move suite chain event next := by
  cases event with
  | launch l =>
    cases hlive : chain.live with
    | some process => simp [Chain.step, hlive] at h
    | none =>
      simp only [Chain.step, hlive, Option.ite_none_right_eq_some] at h
      obtain ⟨hseparate, h⟩ := h
      cases hlaunch : chain.launch suite l with
      | ok launched =>
        rw [hlaunch] at h
        cases h
        exact .launch hlive hseparate hlaunch
      | error error =>
        rw [hlaunch] at h
        cases h
  | finish taskId outcome =>
    cases hlive : chain.live with
    | none => simp [Chain.step, hlive] at h
    | some process =>
      simp only [Chain.step, hlive, Option.ite_none_right_eq_some, Option.some_inj] at h
      obtain ⟨htask, rfl⟩ := h
      exact .finish hlive htask
  | collect record =>
    cases hlive : chain.live with
    | none => simp [Chain.step, hlive] at h
    | some process =>
      simp only [Chain.step, hlive, Option.ite_none_right_eq_some, Option.some_inj] at h
      obtain ⟨hrecord, rfl⟩ := h
      exact .collect hlive hrecord
  | kill =>
    cases h
    exact .kill

end Chain

/-! ## The invariant -/

/-- The records written by the runs of some numbers. -/
def writtenBy (history : List (Entry V R)) (runs : ℕ → Prop) : Set (Record R) :=
  {record | ∃ entry ∈ history, runs entry.run ∧ entry.record = record}

/-- What holds of all the records ever written: each is of a task of its own, and names the
identity it was run with. -/
structure Sound (suite : Suite V) (history : List (Entry V R)) : Prop where
  nodup : (history.map (·.record.taskId)).Nodup
  expected : ∀ entry ∈ history, entry.record.taskId ∈ suite.taskIds
  fingerprint_eq : ∀ entry ∈ history,
    entry.record.runFingerprint = suite.fingerprint entry.identity

/-- The record files of a run: one for each record that the run wrote, under its task's name. -/
structure RecordsDir.Holds (suite : Suite V) (history : List (Entry V R)) (identity : Identity V)
    (run : ℕ) (dir : RecordsDir R) : Prop where
  contents_eq : dir.contents = writtenBy history (· = run)
  names : ∀ file ∈ dir, file.1 = suite.safeName file.2.taskId
  nodup : (dir.map (·.2.taskId)).Nodup
  identity_eq : ∀ entry ∈ history, entry.run = run → entry.identity = identity

/-- The `result.json` of a run: it has all the records of the runs before, and knows their
fingerprints; of the run's own it has some. -/
structure Payload.Holds (suite : Suite V) (history : List (Entry V R)) (run : ℕ)
    (payload : Payload V R) : Prop where
  fingerprint_eq : payload.runFingerprint = suite.fingerprint payload.runIdentity
  tasks_sub : ∀ record ∈ payload.tasks, record ∈ writtenBy history (· ≤ run)
  inherits : ∀ record ∈ writtenBy history (· < run), record ∈ payload.tasks
  inherited_fingerprints : ∀ record ∈ writtenBy history (· < run),
    record.runFingerprint ∈ payload.resumeProvenance.elim ∅ (·.inheritedFingerprints)

/-- The files of a run. -/
structure RunDir.Holds (suite : Suite V) (history : List (Entry V R)) (run : ℕ)
    (dir : RunDir V R) : Prop where
  records : dir.records.Holds suite history dir.result.runIdentity run
  result : dir.result.Holds suite history run

section

omit [DecidableEq V] [DecidableEq R]

variable {suite : Suite V} {history : List (Entry V R)}

theorem writtenBy_mono {runs runs' : ℕ → Prop} (h : ∀ run, runs run → runs' run) :
    writtenBy history runs ⊆ writtenBy history runs' := by
  rintro record ⟨entry, hmem, hrun, hrecord⟩
  exact ⟨entry, hmem, h _ hrun, hrecord⟩

namespace Sound

theorem unique (h : Sound suite history) : ∀ a ∈ history, ∀ b ∈ history,
    a.record.taskId = b.record.taskId → a = b :=
  fun _ ha _ hb => List.inj_on_of_nodup_map h.nodup ha hb

theorem eq_of_taskId (h : Sound suite history) {runs runs' : ℕ → Prop} {a b : Record R}
    (ha : a ∈ writtenBy history runs) (hb : b ∈ writtenBy history runs')
    (hid : a.taskId = b.taskId) : a = b := by
  obtain ⟨entry, hmem, -, rfl⟩ := ha
  obtain ⟨entry', hmem', -, rfl⟩ := hb
  rw [h.unique entry hmem entry' hmem' hid]

theorem taskId_mem (h : Sound suite history) {runs : ℕ → Prop} {record : Record R}
    (hrecord : record ∈ writtenBy history runs) : record.taskId ∈ suite.taskIds := by
  obtain ⟨entry, hmem, -, rfl⟩ := hrecord
  exact h.expected entry hmem

/-- Runs of different numbers have different tasks. -/
theorem taskId_ne (h : Sound suite history) {P Q : ℕ → Prop}
    (hdisjoint : ∀ run, P run → ¬ Q run) {a b : Record R}
    (ha : a ∈ writtenBy history P) (hb : b ∈ writtenBy history Q) :
    a.taskId ≠ b.taskId := by
  obtain ⟨entry, hmem, hrun, rfl⟩ := ha
  obtain ⟨entry', hmem', hrun', rfl⟩ := hb
  intro hid
  rw [h.unique entry hmem entry' hmem' hid] at hrun
  exact hdisjoint _ hrun hrun'

end Sound

/-- The run's own records load. -/
theorem RecordsDir.Holds.loadRecords {dir : RecordsDir R} {identity : Identity V} {run : ℕ}
    (h : dir.Holds suite history identity run) (hsound : Sound suite history) :
    ∃ records, loadRecords dir suite.taskIds (suite.fingerprint identity) = .ok records ∧
      Indexes records (writtenBy history (· = run)) := by
  rw [← h.contents_eq]
  refine loadRecords_indexes (fun file hfile => ?_) h.nodup
  have hmem : file.2 ∈ writtenBy history (· = run) := h.contents_eq ▸ ⟨file, hfile, rfl⟩
  refine ⟨hsound.taskId_mem hmem, ?_⟩
  obtain ⟨entry, hentry, hrun, hrecord⟩ := hmem
  rw [← hrecord, hsound.fingerprint_eq entry hentry, h.identity_eq entry hentry hrun]

end

section

variable {suite : Suite V} {history : List (Entry V R)}

/-- **A stopped run hands over** the records of all the runs up to it, where the identity checks
pass; the fingerprints it passes on are theirs. -/
theorem RunDir.Holds.resumeRecords {dir : RunDir V R} {run : ℕ} {args : Args V}
    (h : dir.Holds suite history run) (hsound : Sound suite history)
    (hseparate : dir.resultPath ≠ args.resultPath)
    (hcheck : checkIdentity dir.result.runIdentity args.identity args.resumeSourceGitSha
      args.resumeSourceTaskConfigSha256 = .ok ()) :
    ∃ records, resumeRecords suite.fingerprint args (some dir) suite.taskIds =
        .ok (records, some (provenanceOf args dir.result records)) ∧
      Indexes records (writtenBy history (· ≤ run)) ∧
      ∀ record ∈ writtenBy history (· ≤ run),
        record.runFingerprint ∈ (provenanceOf args dir.result records).inheritedFingerprints := by
  obtain ⟨own, hown, hindexes⟩ := h.records.loadRecords hsound
  rw [← h.result.fingerprint_eq] at hown
  -- the source's own records and those of its result.json are all the records up to it
  have hall : writtenBy history (· = run) ∪ {record | record ∈ dir.result.tasks} =
      writtenBy history (· ≤ run) := by
    ext record
    constructor
    · rintro (hmem | hmem)
      · exact writtenBy_mono (fun _ => Nat.le_of_eq) hmem
      · exact h.result.tasks_sub record hmem
    · rintro ⟨entry, hentry, hle, rfl⟩
      rcases Nat.lt_or_eq_of_le hle with hlt | heq
      · exact Or.inr (h.result.inherits _ ⟨entry, hentry, hlt, rfl⟩)
      · exact Or.inl ⟨entry, hentry, heq, rfl⟩
  have hallowed : ∀ record ∈ dir.result.tasks, record.taskId ∈ suite.taskIds ∧
      record.runFingerprint ∈ insert dir.result.runFingerprint
        (dir.result.resumeProvenance.elim ∅ (·.inheritedFingerprints)) := by
    intro record hmem
    have hwritten := h.result.tasks_sub record hmem
    refine ⟨hsound.taskId_mem hwritten, ?_⟩
    rw [Finset.mem_insert]
    obtain ⟨entry, hentry, hle, rfl⟩ := hwritten
    rcases Nat.lt_or_eq_of_le hle with hlt | heq
    · exact Or.inr (h.result.inherited_fingerprints _ ⟨entry, hentry, hlt, rfl⟩)
    · refine Or.inl ?_
      rw [hsound.fingerprint_eq entry hentry, h.records.identity_eq entry hentry heq,
        h.result.fingerprint_eq]
  obtain ⟨records, hrecords, hholds⟩ := importTasks_indexes hindexes hallowed (by
    rw [hall]
    exact fun a ha b hb => hsound.eq_of_taskId ha hb)
  rw [hall] at hholds
  refine ⟨records, ?_, hholds, ?_⟩
  · unfold CodexEval.resumeRecords
    simp only [if_neg hseparate, h.result.fingerprint_eq.symm, hcheck, hown, hrecords, ne_eq,
      not_true_eq_false, if_false, ok_bind]
    rfl
  · intro record hmem
    simp only [provenanceOf, Multiset.mem_toFinset, Multiset.mem_map]
    exact ⟨⟨record.taskId, record⟩, Finmap.lookup_eq_some_iff.mp (hholds.lookup_of_mem hmem), rfl⟩

omit [DecidableEq V] [DecidableEq R] in
/-- A `result.json` written from records that include all those of the runs before. -/
theorem resultPayload_holds {records : Records R} {s : Set (Record R)} {run : ℕ}
    {identity : Identity V} {provenance : Option (Provenance V)} (hsound : Sound suite history)
    (hindexes : Indexes records s) (hsub : s ⊆ writtenBy history (· ≤ run))
    (hinherits : writtenBy history (· < run) ⊆ s)
    (hfingerprints : ∀ record ∈ writtenBy history (· < run),
      record.runFingerprint ∈ provenance.elim ∅ (·.inheritedFingerprints)) :
    (resultPayload suite.fingerprint identity suite.taskIds records provenance).Holds suite
      history run := by
  have hmem : ∀ record, record ∈ suite.taskIds.filterMap records.lookup ↔ record ∈ s := fun _ =>
    hindexes.mem_filterMap_lookup fun record hrecord => hsound.taskId_mem (hsub hrecord)
  exact ⟨rfl, fun record hrecord => hsub ((hmem record).mp hrecord),
    fun record hrecord => (hmem record).mpr (hinherits hrecord), hfingerprints⟩

/-- What `main` finds when a phase of the run starts: the run's own records, and in the source the
run before. -/
structure Starts (suite : Suite V) (history : List (Entry V R)) (args : Args V)
    (own : RecordsDir R) (source : Option (RunDir V R)) (run : ℕ) : Prop where
  own_holds : own.Holds suite history args.identity run
  run_le : ∀ entry ∈ history, entry.run ≤ run
  first : source = none → run = 0
  later : ∀ dir ∈ source, ∃ before, run = before + 1 ∧ dir.Holds suite history before ∧
    dir.resultPath ≠ args.resultPath

/-- **A phase starts with every record**, where the identity checks pass. -/
theorem Starts.mainStart_eq_ok {args : Args V} {own : RecordsDir R} {source : Option (RunDir V R)}
    {run : ℕ} (h : Starts suite history args own source run) (hsound : Sound suite history)
    (hcheck : ∀ dir ∈ source, checkIdentity dir.result.runIdentity args.identity
      args.resumeSourceGitSha args.resumeSourceTaskConfigSha256 = .ok ()) :
    ∃ records provenance,
      mainStart suite.fingerprint suite.taskIds args own source =
        .ok (records, ⟨args.resultPath, own, resultPayload suite.fingerprint args.identity
          suite.taskIds records provenance⟩) ∧
      Indexes records (writtenBy history (· ≤ run)) ∧
      (resultPayload suite.fingerprint args.identity suite.taskIds records provenance).Holds suite
        history run := by
  obtain ⟨mine, hmine, hindexes⟩ := h.own_holds.loadRecords hsound
  obtain ⟨inherited, provenance, hinherited, hbefore, hfingerprints⟩ :
      ∃ inherited provenance,
        resumeRecords suite.fingerprint args source suite.taskIds = .ok (inherited, provenance) ∧
        Indexes inherited (writtenBy history (· < run)) ∧
        ∀ record ∈ writtenBy history (· < run),
          record.runFingerprint ∈ provenance.elim ∅ (·.inheritedFingerprints) := by
    cases hsource : source with
    | none =>
      have hempty : writtenBy history (· < run) = ∅ := by
        simp [writtenBy, h.first hsource]
      rw [hempty]
      exact ⟨∅, none, rfl, Indexes.empty, by simp⟩
    | some dir =>
      obtain ⟨before, rfl, hdir, hseparate⟩ := h.later dir hsource
      obtain ⟨records, hrecords, hholds, hall⟩ :=
        hdir.resumeRecords hsound hseparate (hcheck dir hsource)
      simp only [Nat.lt_succ_iff]
      exact ⟨records, _, hrecords, hholds, hall⟩
  have hdisjoint : ∀ a ∈ writtenBy history (· = run), ∀ b ∈ writtenBy history (· < run),
      a.taskId ≠ b.taskId := fun a ha b hb =>
    hsound.taskId_ne (fun n hn => by omega) ha hb
  have hunion : writtenBy history (· = run) ∪ writtenBy history (· < run) =
      writtenBy history (· ≤ run) := by
    ext record
    constructor
    · rintro (hmem | hmem)
      · exact writtenBy_mono (fun _ => Nat.le_of_eq) hmem
      · exact writtenBy_mono (fun _ => Nat.le_of_lt) hmem
    · rintro ⟨entry, hentry, hle, rfl⟩
      rcases Nat.lt_or_eq_of_le hle with hlt | heq
      · exact Or.inr ⟨entry, hentry, hlt, rfl⟩
      · exact Or.inl ⟨entry, hentry, heq, rfl⟩
  have hrecords := hindexes.union hbefore hdisjoint
  rw [hunion] at hrecords
  refine ⟨mine ∪ inherited, provenance, ?_, hrecords, resultPayload_holds hsound hrecords
    subset_rfl (writtenBy_mono fun _ => Nat.le_of_lt) hfingerprints⟩
  unfold CodexEval.mainStart
  simp only [hmine, hinherited, ok_bind, hindexes.disjoint hbefore hdisjoint, not_true_eq_false,
    if_false]
  rfl

/-- A phase is rejected by the identity checks, and by nothing else. -/
theorem Starts.mainStart_eq_error {args : Args V} {own : RecordsDir R}
    {source : Option (RunDir V R)} {run : ℕ} (h : Starts suite history args own source run)
    (hsound : Sound suite history) {error : PyError}
    (herror : mainStart suite.fingerprint suite.taskIds args own source = .error error) :
    ∃ dir ∈ source, checkIdentity dir.result.runIdentity args.identity args.resumeSourceGitSha
      args.resumeSourceTaskConfigSha256 ≠ .ok () := by
  by_contra hnone
  push Not at hnone
  obtain ⟨records, provenance, hok, -⟩ := h.mainStart_eq_ok hsound hnone
  rw [hok] at herror
  cases herror

/-- A phase that starts has passed the identity checks. -/
theorem checkIdentity_of_mainStart {args : Args V} {own : RecordsDir R}
    {source : Option (RunDir V R)} {started : Records R × RunDir V R}
    (h : mainStart suite.fingerprint suite.taskIds args own source = .ok started) :
    ∀ dir ∈ source, checkIdentity dir.result.runIdentity args.identity args.resumeSourceGitSha
      args.resumeSourceTaskConfigSha256 = .ok () := by
  rintro dir ⟨rfl⟩
  unfold mainStart at h
  obtain ⟨mine, -, h⟩ := bind_eq_ok.mp h
  obtain ⟨inherited, hinherited, -⟩ := bind_eq_ok.mp h
  simp only [resumeRecords] at hinherited
  by_cases hpath : dir.resultPath = args.resultPath
  · rw [if_pos hpath] at hinherited
    cases hinherited
  · rw [if_neg hpath] at hinherited
    by_cases hidentity : suite.fingerprint dir.result.runIdentity ≠ dir.result.runFingerprint
    · rw [if_pos hidentity] at hinherited
      cases hinherited
    · rw [if_neg hidentity] at hinherited
      obtain ⟨⟨⟩, hcheck, -⟩ := bind_eq_ok.mp hinherited
      exact hcheck

/-- The process of a phase: it knows every record but those it has still to collect, and runs the
tasks that have none. -/
structure Process.Holds (suite : Suite V) (chain : Chain V R) (process : Process R) : Prop where
  indexes : Indexes process.records
    {record | record ∈ writtenBy chain.history (· ≤ chain.run) ∧ record ∉ process.written}
  mem_running : ∀ taskId, taskId ∈ process.running ↔
    taskId ∈ suite.taskIds ∧ ∀ entry ∈ chain.history, entry.record.taskId ≠ taskId
  written_new : ∀ record ∈ process.written, ∃ entry ∈ chain.history,
    entry.record = record ∧ entry.run = chain.run ∧ entry.phase = chain.phase
  tasks_eq : chain.current.result.tasks = suite.taskIds.filterMap process.records.lookup

/-- The invariant of a chain. -/
structure Chain.Survives (suite : Suite V) (chain : Chain V R) : Prop where
  sound : Sound suite chain.history
  starts : Starts suite chain.history ((Launch.restart none none).args chain)
    chain.current.records chain.previous chain.run
  result : chain.current.result.Holds suite chain.history chain.run
  path_mem : chain.current.resultPath ∈ chain.resultPaths
  agree : ∀ entry ∈ chain.history,
    Agree chain.reviewedFields entry.identity chain.current.result.runIdentity
  phase_le : ∀ entry ∈ chain.history, entry.phase ≤ chain.phase
  live : ∀ process ∈ chain.live, process.Holds suite chain

namespace Chain

variable {chain next : Chain V R}

omit [DecidableEq V] [DecidableEq R] in
/-- What a phase finds, restarted or resumed. -/
theorem Survives.starts_launch (h : chain.Survives suite) {l : Launch V}
    (hseparate : l.Separate chain) :
    Starts suite chain.history (l.args chain) (l.own chain) (l.source chain) (l.run chain) := by
  cases l with
  | restart sha config =>
    exact ⟨h.starts.own_holds, h.starts.run_le, h.starts.first, h.starts.later⟩
  | resume args =>
    have hnone : ∀ entry ∈ chain.history, entry.run ≠ chain.run + 1 := fun entry hentry =>
      (Nat.lt_succ_of_le (h.starts.run_le entry hentry)).ne
    refine ⟨⟨?_, by simp [Launch.own], by simp [Launch.own], ?_⟩, ?_, by simp [Launch.source], ?_⟩
    · ext record
      constructor
      · rintro ⟨file, hfile, -⟩
        cases hfile
      · rintro ⟨entry, hentry, hrun, -⟩
        exact absurd hrun (hnone entry hentry)
    · exact fun entry hentry hrun => absurd hrun (hnone entry hentry)
    · exact fun entry hentry => (h.starts.run_le entry hentry).trans (Nat.le_succ _)
    · rintro dir ⟨rfl⟩
      refine ⟨chain.run, rfl, ⟨h.starts.own_holds, h.result⟩, ?_⟩
      exact fun hpath => hseparate (hpath ▸ h.path_mem)

omit [DecidableEq V] [DecidableEq R] in
/-- The process that a phase starts. -/
theorem startProcess_holds {records : Records R}
    (hindexes : Indexes records (writtenBy next.history (· ≤ next.run)))
    (hrun : ∀ entry ∈ next.history, entry.run ≤ next.run)
    (htasks : next.current.result.tasks = suite.taskIds.filterMap records.lookup) :
    (startProcess suite records).Holds suite next := by
  refine ⟨by simpa [startProcess] using hindexes, fun taskId => ?_, by simp [startProcess], htasks⟩
  have hmem : taskId ∉ records ↔ ∀ entry ∈ next.history, entry.record.taskId ≠ taskId := by
    rw [hindexes.mem_iff]
    constructor
    · rintro hnone entry hentry hid
      exact hnone ⟨_, ⟨entry, hentry, hrun entry hentry, rfl⟩, hid⟩
    · rintro hnone ⟨_, ⟨entry, hentry, -, rfl⟩, hid⟩
      exact hnone entry hentry hid
  simp [startProcess, hmem]

theorem Survives.launch (h : chain.Survives suite) {l : Launch V} (hseparate : l.Separate chain)
    (hlaunch : chain.launch suite l = .ok next) : next.Survives suite := by
  have hstarts := h.starts_launch hseparate
  obtain ⟨started, hstarted, hnext⟩ := bind_eq_ok.mp hlaunch
  have hcheck := checkIdentity_of_mainStart hstarted
  obtain ⟨records, provenance, hok, hindexes, hresult⟩ := hstarts.mainStart_eq_ok h.sound hcheck
  rw [hok] at hstarted
  cases hstarted
  cases hnext
  have hagree : ∀ entry ∈ chain.history,
      Agree (chain.reviewedFields ∪ l.reviewedFields chain) entry.identity
        (l.args chain).identity := by
    intro entry hentry
    cases l with
    | restart sha config => exact (h.agree entry hentry).mono (Set.subset_union_left ..)
    | resume args =>
      have hhop := ((checkIdentity_eq_ok_iff _ _ _ _).mp (hcheck chain.current rfl)).1
      exact (h.agree entry hentry).trans hhop
  exact
    { sound := h.sound
      starts := ⟨hstarts.own_holds, hstarts.run_le, hstarts.first, hstarts.later⟩
      result := hresult
      path_mem := List.mem_cons_self ..
      agree := hagree
      phase_le := fun entry hentry => (h.phase_le entry hentry).trans (Nat.le_succ _)
      live := by
        rintro process ⟨rfl⟩
        exact startProcess_holds hindexes hstarts.run_le rfl }

end Chain

end

end CodexEval
