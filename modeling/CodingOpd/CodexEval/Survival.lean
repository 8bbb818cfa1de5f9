import CodingOpd.CodexEval.Chain

/-!
# Survival of the records

Within a phase, a finished task adds a record of a new task to the run's directory, and a
collected one moves from the directory into `result.json`; a kill loses the process alone. With
the start of a phase, these are all the steps of a chain.

## Main results

* `Chain.survives_of_reaches`: the invariant in every reachable state
* `Chain.records_survive`: no record is lost, repeated or changed, and what a phase is rejected for
-/

open Python Transition

namespace CodexEval

variable {V R : Type} [DecidableEq V] [DecidableEq R] {suite : Suite V}

section

omit [DecidableEq V] [DecidableEq R]

variable {history : List (Entry V R)} {entry : Entry V R}

theorem writtenBy_cons_of_not {runs : ℕ → Prop} (h : ¬ runs entry.run) :
    writtenBy (entry :: history) runs = writtenBy history runs := by
  ext record
  constructor
  · rintro ⟨e, he, hruns, rfl⟩
    rcases List.mem_cons.mp he with rfl | he
    · exact absurd hruns h
    · exact ⟨e, he, hruns, rfl⟩
  · rintro ⟨e, he, hruns, rfl⟩
    exact ⟨e, List.mem_cons_of_mem _ he, hruns, rfl⟩

theorem writtenBy_cons {runs : ℕ → Prop} (h : runs entry.run) :
    writtenBy (entry :: history) runs = insert entry.record (writtenBy history runs) := by
  ext record
  constructor
  · rintro ⟨e, he, hruns, rfl⟩
    rcases List.mem_cons.mp he with rfl | he
    · exact Or.inl rfl
    · exact Or.inr ⟨e, he, hruns, rfl⟩
  · rintro (rfl | ⟨e, he, hruns, rfl⟩)
    · exact ⟨entry, List.mem_cons_self .., h, rfl⟩
    · exact ⟨e, List.mem_cons_of_mem _ he, hruns, rfl⟩

/-- A record of a new task. -/
theorem Sound.cons (h : Sound suite history)
    (hnew : ∀ e ∈ history, e.record.taskId ≠ entry.record.taskId)
    (hexpected : entry.record.taskId ∈ suite.taskIds)
    (hfingerprint : entry.record.runFingerprint = suite.fingerprint entry.identity) :
    Sound suite (entry :: history) := by
  refine ⟨?_, ?_, ?_⟩
  · rw [List.map_cons, List.nodup_cons]
    refine ⟨fun hmem => ?_, h.nodup⟩
    obtain ⟨e, he, hid⟩ := List.mem_map.mp hmem
    exact hnew e he hid
  · exact List.forall_mem_cons.mpr ⟨hexpected, h.expected⟩
  · exact List.forall_mem_cons.mpr ⟨hfingerprint, h.fingerprint_eq⟩

theorem RecordsDir.mem_write {dir : RecordsDir R} {path : String} {record : Record R}
    {file : String × Record R} :
    file ∈ dir.write path record ↔ file = (path, record) ∨ file ∈ dir ∧ file.1 ≠ path := by
  simp [write, List.mem_orderedInsert]

/-- A record under a new name adds a file and replaces none. -/
theorem RecordsDir.Holds.write {dir : RecordsDir R} {identity : Identity V} {run : ℕ}
    (h : dir.Holds suite history identity run)
    (hexpected : ∀ e ∈ history, e.record.taskId ∈ suite.taskIds)
    (htask : entry.record.taskId ∈ suite.taskIds)
    (hnew : ∀ e ∈ history, e.record.taskId ≠ entry.record.taskId) (hrun : entry.run = run)
    (hidentity : entry.identity = identity) :
    (dir.write (suite.safeName entry.record.taskId) entry.record).Holds suite (entry :: history)
      identity run := by
  have hfresh : ∀ file ∈ dir, file.1 ≠ suite.safeName entry.record.taskId := by
    intro file hfile hname
    obtain ⟨e, he, -, hrecord⟩ : file.2 ∈ writtenBy history (· = run) :=
      h.contents_eq ▸ ⟨file, hfile, rfl⟩
    rw [h.names file hfile, ← hrecord] at hname
    exact hnew e he (suite.safeName_injOn _ (hexpected e he) _ htask hname)
  have hperm : (dir.write (suite.safeName entry.record.taskId) entry.record).Perm
      ((suite.safeName entry.record.taskId, entry.record) :: dir) := by
    have hfilter : dir.filter (·.1 ≠ suite.safeName entry.record.taskId) = dir :=
      List.filter_eq_self.mpr fun file hfile => decide_eq_true (hfresh file hfile)
    rw [RecordsDir.write, hfilter]
    exact List.perm_orderedInsert _ _ _
  refine ⟨?_, fun file hfile => ?_, ?_,
    List.forall_mem_cons.mpr ⟨fun _ => hidentity, h.identity_eq⟩⟩
  · rw [writtenBy_cons hrun, ← h.contents_eq]
    ext record
    simp only [contents, Set.mem_ofPred_eq, hperm.mem_iff, List.mem_cons, exists_eq_or_imp,
      Set.mem_insert_iff]
    exact or_congr_left eq_comm
  · rcases mem_write.mp hfile with rfl | ⟨hfile, -⟩
    · rfl
    · exact h.names file hfile
  · rw [(hperm.map _).nodup_iff, List.map_cons, List.nodup_cons]
    refine ⟨fun hmem => ?_, h.nodup⟩
    obtain ⟨file, hfile, hid⟩ := List.mem_map.mp hmem
    obtain ⟨e, he, -, hrecord⟩ : file.2 ∈ writtenBy history (· = run) :=
      h.contents_eq ▸ ⟨file, hfile, rfl⟩
    exact hnew e he (hrecord ▸ hid)

/-- A later run's record is none of the files of this one. -/
theorem RunDir.Holds.cons {dir : RunDir V R} {run : ℕ} (h : dir.Holds suite history run)
    (hlater : run < entry.run) : dir.Holds suite (entry :: history) run := by
  have heq : writtenBy (entry :: history) (· = run) = writtenBy history (· = run) :=
    writtenBy_cons_of_not hlater.ne'
  have hlt : writtenBy (entry :: history) (· < run) = writtenBy history (· < run) :=
    writtenBy_cons_of_not (Nat.not_lt_of_gt hlater)
  have hle : writtenBy (entry :: history) (· ≤ run) = writtenBy history (· ≤ run) :=
    writtenBy_cons_of_not (Nat.not_le_of_gt hlater)
  refine ⟨⟨heq ▸ h.records.contents_eq, h.records.names, h.records.nodup, ?_⟩,
    ⟨h.result.fingerprint_eq, hle ▸ h.result.tasks_sub, hlt ▸ h.result.inherits,
      hlt ▸ h.result.inherited_fingerprints⟩⟩
  exact List.forall_mem_cons.mpr ⟨fun hrun => absurd hrun hlater.ne', h.records.identity_eq⟩

end

namespace Chain

variable {chain next : Chain V R}

omit [DecidableEq V] [DecidableEq R] in
/-- A record file of a task that has none. -/
theorem Survives.write (h : chain.Survives suite) {process : Process R}
    (hlive : chain.live = some process) {entry : Entry V R}
    (htask : entry.record.taskId ∈ process.running)
    (hfingerprint : entry.record.runFingerprint = suite.fingerprint entry.identity)
    (hidentity : entry.identity = chain.current.result.runIdentity)
    (hrun : entry.run = chain.run) (hphase : entry.phase = chain.phase) :
    (chain.write suite process entry).Survives suite := by
  have hprocess := h.live process hlive
  obtain ⟨hexpected, hnew⟩ := (hprocess.mem_running _).mp htask
  have hbefore : writtenBy (entry :: chain.history) (· < chain.run) =
      writtenBy chain.history (· < chain.run) := writtenBy_cons_of_not (Nat.not_lt.mpr hrun.ge)
  have hle : writtenBy (entry :: chain.history) (· ≤ chain.run) =
      insert entry.record (writtenBy chain.history (· ≤ chain.run)) := writtenBy_cons hrun.le
  refine
    { sound := h.sound.cons hnew hexpected hfingerprint
      starts := ⟨h.starts.own_holds.write h.sound.expected hexpected hnew hrun hidentity,
        List.forall_mem_cons.mpr ⟨hrun.le, h.starts.run_le⟩, h.starts.first, fun dir hdir => ?_⟩
      result := ⟨h.result.fingerprint_eq, fun r hr => ?_, ?_, ?_⟩
      path_mem := h.path_mem
      agree := List.forall_mem_cons.mpr ⟨hidentity ▸ Agree.refl _ _, h.agree⟩
      phase_le := List.forall_mem_cons.mpr ⟨hphase.le, h.phase_le⟩
      live := ?_ }
  · obtain ⟨before, hbefore, hholds, hpath⟩ := h.starts.later dir hdir
    exact ⟨before, hbefore, hholds.cons (by omega), hpath⟩
  · show r ∈ writtenBy (entry :: chain.history) (· ≤ chain.run)
    rw [hle]
    exact Or.inr (h.result.tasks_sub r hr)
  · show ∀ r ∈ writtenBy (entry :: chain.history) (· < chain.run), _
    rw [hbefore]
    exact h.result.inherits
  · show ∀ r ∈ writtenBy (entry :: chain.history) (· < chain.run), _
    rw [hbefore]
    exact h.result.inherited_fingerprints
  · -- the task leaves those that run, as its record is written
    rintro _ ⟨rfl⟩
    have hfresh : entry.record ∉ writtenBy chain.history (· ≤ chain.run) := by
      rintro ⟨e, he, -, hrecord⟩
      exact hnew e he (congrArg Record.taskId hrecord)
    refine ⟨?_, fun taskId => ?_, List.forall_mem_cons.mpr ⟨?_, fun r hr => ?_⟩, hprocess.tasks_eq⟩
    · -- the new record is on disk, and not among those collected
      have hset : {r | r ∈ writtenBy (entry :: chain.history) (· ≤ chain.run) ∧
          r ∉ entry.record :: process.written} =
          {r | r ∈ writtenBy chain.history (· ≤ chain.run) ∧ r ∉ process.written} := by
        rw [hle]
        ext r
        simp only [Set.mem_ofPred_eq, Set.mem_insert_iff, List.mem_cons, not_or]
        constructor
        · rintro ⟨rfl | hr, hne, hnot⟩
          · exact absurd rfl hne
          · exact ⟨hr, hnot⟩
        · rintro ⟨hr, hnot⟩
          exact ⟨Or.inr hr, fun heq => hfresh (heq ▸ hr), hnot⟩
      exact hset ▸ hprocess.indexes
    · show taskId ∈ process.running.filter (· ≠ entry.record.taskId) ↔ taskId ∈ suite.taskIds ∧
        ∀ e ∈ entry :: chain.history, e.record.taskId ≠ taskId
      rw [List.mem_filter, hprocess.mem_running, List.forall_mem_cons, decide_eq_true_eq]
      constructor
      · rintro ⟨⟨hmem, hall⟩, hne⟩
        exact ⟨hmem, hne.symm, hall⟩
      · rintro ⟨hmem, hne, hall⟩
        exact ⟨⟨hmem, hall⟩, hne.symm⟩
    · exact ⟨entry, List.mem_cons_self .., rfl, hrun, hphase⟩
    · obtain ⟨e, he, hrest⟩ := hprocess.written_new r hr
      exact ⟨e, List.mem_cons_of_mem _ he, hrest⟩

omit [DecidableEq V] [DecidableEq R] in
theorem Survives.finish (h : chain.Survives suite) {process : Process R}
    (hlive : chain.live = some process) {taskId : String} (htask : taskId ∈ process.running)
    (outcome : Outcome R) : (chain.finish suite process taskId outcome).Survives suite := by
  refine h.write hlive ?_ ?_ rfl rfl rfl
  · simpa using htask
  · exact (runOne_runFingerprint ..).trans h.result.fingerprint_eq

omit [DecidableEq V] in
/-- `_run` collects a record that is on disk. -/
theorem Survives.collect (h : chain.Survives suite) {process : Process R}
    (hlive : chain.live = some process) {record : Record R} (hrecord : record ∈ process.written) :
    (chain.collect suite process record).Survives suite := by
  have hprocess := h.live process hlive
  obtain ⟨entry, hentry, rfl, hrun, -⟩ := hprocess.written_new record hrecord
  have hwritten : entry.record ∈ writtenBy chain.history (· ≤ chain.run) :=
    ⟨entry, hentry, hrun.le, rfl⟩
  have hindexes : Indexes (process.records.insert entry.record.taskId entry.record)
      {r | r ∈ writtenBy chain.history (· ≤ chain.run) ∧
        r ∉ process.written.filter (· ≠ entry.record)} := by
    have hset : {r | r ∈ writtenBy chain.history (· ≤ chain.run) ∧
        r ∉ process.written.filter (· ≠ entry.record)} = insert entry.record
        {r | r ∈ writtenBy chain.history (· ≤ chain.run) ∧ r ∉ process.written} := by
      ext r
      simp only [Set.mem_ofPred_eq, Set.mem_insert_iff, List.mem_filter, decide_eq_true_eq,
        not_and_or, not_not]
      constructor
      · rintro ⟨hr, hnot | heq⟩
        · exact Or.inr ⟨hr, hnot⟩
        · exact Or.inl heq
      · rintro (rfl | ⟨hr, hnot⟩)
        · exact ⟨hwritten, Or.inr rfl⟩
        · exact ⟨hr, Or.inl hnot⟩
    rw [hset]
    exact hprocess.indexes.insert _ fun known hknown hid =>
      h.sound.eq_of_taskId hknown.1 hwritten hid
  -- what is not collected yet is of the current run, so nothing inherited is missing
  have hinherits : writtenBy chain.history (· < chain.run) ⊆
      {r | r ∈ writtenBy chain.history (· ≤ chain.run) ∧
        r ∉ process.written.filter (· ≠ entry.record)} := by
    intro r hr
    refine ⟨writtenBy_mono (fun _ => Nat.le_of_lt) hr, fun hmem => ?_⟩
    obtain ⟨e, he, rfl, hcurrent, -⟩ := hprocess.written_new r (List.mem_filter.mp hmem).1
    exact h.sound.taskId_ne (P := (· < chain.run)) (Q := (· = chain.run))
      (fun n hn => hn.ne) hr ⟨e, he, hcurrent, rfl⟩ rfl
  exact
    { sound := h.sound
      starts := ⟨h.starts.own_holds, h.starts.run_le, h.starts.first, h.starts.later⟩
      result := resultPayload_holds h.sound hindexes (fun r hr => hr.1) hinherits
        h.result.inherited_fingerprints
      path_mem := h.path_mem
      agree := h.agree
      phase_le := h.phase_le
      live := by
        rintro _ ⟨rfl⟩
        exact ⟨hindexes, hprocess.mem_running,
          fun r hr => hprocess.written_new r (List.mem_filter.mp hr).1, rfl⟩ }

/-- The first phase of a chain has nothing to load. -/
theorem survives_first {args : Args V} (h : Chain.first suite args = .ok chain) :
    chain.Survives suite := by
  have hsound : Sound suite ([] : List (Entry V R)) := ⟨List.nodup_nil, by simp, by simp⟩
  have hnothing : ∀ runs, writtenBy ([] : List (Entry V R)) runs = ∅ := by
    intro runs
    simp [writtenBy]
  have hstarts : Starts suite ([] : List (Entry V R)) args [] none 0 := by
    refine ⟨⟨?_, by simp, by simp, by simp⟩, by simp, fun _ => rfl, by simp⟩
    rw [hnothing]
    simp [RecordsDir.contents]
  obtain ⟨records, provenance, hok, hindexes, hresult⟩ :=
    hstarts.mainStart_eq_ok hsound (by simp)
  obtain ⟨started, hstarted, hchain⟩ := bind_eq_ok.mp h
  rw [hok] at hstarted
  cases hstarted
  cases hchain
  exact
    { sound := hsound
      starts := ⟨hstarts.own_holds, hstarts.run_le, hstarts.first, hstarts.later⟩
      result := hresult
      path_mem := List.mem_cons_self ..
      agree := by simp
      phase_le := by simp
      live := by
        rintro process ⟨rfl⟩
        exact startProcess_holds hindexes (by simp) rfl }

/-- Every event preserves the invariant. -/
theorem Survives.step (h : chain.Survives suite) {event : Event V R}
    (hstep : chain.step suite event = some next) : next.Survives suite := by
  cases move_of_step hstep with
  | launch _ hseparate hlaunch => exact h.launch hseparate hlaunch
  | @finish _ _ outcome hlive htask => exact h.finish hlive htask outcome
  | collect hlive hrecord => exact h.collect hlive hrecord
  | kill => exact { h with live := by simp }

theorem Survives.of_reaches (h : chain.Survives suite)
    (hreaches : Reaches (Chain.step suite) chain next) : next.Survives suite :=
  hreaches.invariant h fun _ _ _ ih hstep => ih.step hstep

theorem survives_of_reaches {args : Args V} {start : Chain V R}
    (hfirst : Chain.first suite args = .ok start) (h : Reaches (Chain.step suite) start chain) :
    chain.Survives suite :=
  (survives_first hfirst).of_reaches h

/-- What is written stays written. -/
theorem history_subset_of_reaches (h : Reaches (Chain.step suite) chain next) :
    chain.history ⊆ next.history := by
  refine h.invariant (P := fun next => chain.history ⊆ next.history) (List.Subset.refl _) ?_
  intro middle event next hsubset hstep
  cases move_of_step hstep with
  | launch _ _ hlaunch =>
    obtain ⟨started, -, hnext⟩ := bind_eq_ok.mp hlaunch
    cases hnext
    exact hsubset
  | finish => exact List.subset_cons_of_subset _ hsubset
  | collect => exact hsubset
  | kill => exact hsubset

/-- A process after a kill is one of a later phase. -/
theorem phase_lt_of_reaches (hkilled : chain.live = none)
    (h : Reaches (Chain.step suite) chain next) {process : Process R}
    (hlive : next.live = some process) : chain.phase < next.phase := by
  have hphases : chain.phase ≤ next.phase ∧
      (next.live.isSome → chain.phase < next.phase) := by
    refine h.invariant (P := fun next => chain.phase ≤ next.phase ∧
      (next.live.isSome → chain.phase < next.phase)) ⟨le_rfl, by simp [hkilled]⟩ ?_
    rintro middle event next ⟨hle, hlt⟩ hstep
    cases move_of_step hstep with
    | launch _ _ hlaunch =>
      obtain ⟨started, -, hnext⟩ := bind_eq_ok.mp hlaunch
      cases hnext
      exact ⟨hle.trans (Nat.le_succ _), fun _ => Nat.lt_succ_of_le hle⟩
    | finish hprocess => exact ⟨hle, fun _ => hlt (by simp [hprocess])⟩
    | collect hprocess => exact ⟨hle, fun _ => hlt (by simp [hprocess])⟩
    | kill => exact ⟨hle, by simp⟩
  exact hphases.2 (by simp [hlive])

omit [DecidableEq V] [DecidableEq R] in
/-- A record of an earlier phase is in the record set of the process, and once in its
`result.json`. -/
theorem Survives.mem_result (h : chain.Survives suite) {process : Process R}
    (hlive : chain.live = some process) {entry : Entry V R} (hentry : entry ∈ chain.history)
    (hphase : entry.phase < chain.phase) :
    process.records.lookup entry.record.taskId = some entry.record ∧
      chain.current.result.tasks.filter (·.taskId = entry.record.taskId) = [entry.record] := by
  have hprocess := h.live process hlive
  have hold : entry.record ∉ process.written := by
    intro hmem
    obtain ⟨e, he, hrecord, -, hnow⟩ := hprocess.written_new _ hmem
    have := h.sound.unique e he entry hentry (congrArg Record.taskId hrecord)
    rw [this] at hnow
    exact hphase.ne hnow
  have hmem : entry.record ∈ {r | r ∈ writtenBy chain.history (· ≤ chain.run) ∧
      r ∉ process.written} :=
    ⟨⟨entry, hentry, h.starts.run_le entry hentry, rfl⟩, hold⟩
  refine ⟨hprocess.indexes.lookup_of_mem hmem, ?_⟩
  rw [hprocess.tasks_eq]
  exact hprocess.indexes.filter_filterMap_lookup suite.taskIds_nodup hmem
    (h.sound.expected entry hentry)

/-- **Records survive.** Along any chain of phases, restarts of a run and new runs that resume from
the one before, killed at any point and with the tasks finishing in any order:
no task has two records; a record keeps the fingerprint of the identity it was written under,
which agrees with the current one on every field that is neither a resource nor was reviewed at
some hop; its task is never run again, and in every later phase the record set has it, unchanged
and once. A phase is rejected only for a field that differs from the source's and is neither a
resource nor reviewed, for a reviewed task configuration that is not the source's, or for a
`serving_config` that is no object. -/
theorem records_survive (suite : Suite V) (args : Args V) (start chain : Chain V R)
    (hfirst : Chain.first suite args = .ok start)
    (hreaches : Reaches (Chain.step suite) start chain) :
    (chain.history.map (·.record.taskId)).Nodup ∧
    (∀ entry ∈ chain.history,
      entry.record.runFingerprint = suite.fingerprint entry.identity ∧
      Agree chain.reviewedFields entry.identity chain.current.result.runIdentity ∧
      ∀ process ∈ chain.live,
        entry.record.taskId ∉ process.running ∧
        (entry.phase < chain.phase →
          process.records.lookup entry.record.taskId = some entry.record ∧
          chain.current.result.tasks.filter (·.taskId = entry.record.taskId) = [entry.record])) ∧
    ∀ launch error, launch.Separate chain → chain.launch suite launch = .error error →
      ∃ source ∈ launch.source chain,
        (∃ field, field ∉ resourceKeys ∧
          field ∉ reviewed source.result.runIdentity (launch.args chain).resumeSourceGitSha
            (launch.args chain).resumeSourceTaskConfigSha256 ∧
          semantics field (source.result.runIdentity.lookup field) ≠
            semantics field ((launch.args chain).identity.lookup field)) ∨
        ((launch.args chain).resumeSourceTaskConfigSha256 ≠ none ∧
          ¬ ConfigReviewed source.result.runIdentity
            (launch.args chain).resumeSourceTaskConfigSha256) ∨
        ¬ ServingObject source.result.runIdentity ∨
        ¬ ServingObject (launch.args chain).identity := by
  have h := survives_of_reaches hfirst hreaches
  refine ⟨h.sound.nodup, fun entry hentry => ⟨h.sound.fingerprint_eq entry hentry,
    h.agree entry hentry, fun process hlive => ⟨fun hrunning => ?_, fun hphase => ?_⟩⟩,
    fun launch error hseparate herror => ?_⟩
  · -- a task with a record is not among those that run
    exact ((h.live process hlive).mem_running _).mp hrunning |>.2 entry hentry rfl
  · exact h.mem_result hlive hentry hphase
  · -- a phase is rejected by `main` before it starts, by the check of identities
    have hmain : mainStart suite.fingerprint suite.taskIds (launch.args chain) (launch.own chain)
        (launch.source chain) = .error error := by
      unfold Chain.launch at herror
      cases hstart : mainStart suite.fingerprint suite.taskIds (launch.args chain)
        (launch.own chain) (launch.source chain) with
      | ok started =>
        rw [hstart] at herror
        cases herror
      | error e =>
        rw [hstart] at herror
        cases herror
        rfl
    obtain ⟨source, hsource, hcheck⟩ :=
      (h.starts_launch hseparate).mainStart_eq_error h.sound hmain
    refine ⟨source, hsource, ?_⟩
    rw [ne_eq, checkIdentity_eq_ok_iff, not_and_or, not_and_or, not_and_or, not_or] at hcheck
    rcases hcheck with hagree | hconfig | hobjects
    · refine Or.inl ?_
      unfold Agree at hagree
      push Not at hagree
      exact hagree
    · exact Or.inr (Or.inl hconfig)
    · exact Or.inr (Or.inr hobjects)

theorem drill_nodup : ["a", "b"].Nodup := by decide

/-- Two tasks, and hashes that tell enough apart. -/
def drill : Suite Bool where
  taskIds := ["a", "b"]
  taskIds_nodup := drill_nodup
  fingerprint := fun identity => if "concurrency" ∈ identity then "wide" else "narrow"
  safeName := id
  safeName_injOn := fun _ _ _ _ h => h

/-- A run scores its first task zero and is killed; the run that resumes from it has another
concurrency. -/
def drillEvents : List (Event Bool Unit) :=
  [.finish "a" (.success 0 true ()), .kill,
    .launch (.resume { identity := Finmap.singleton "concurrency" (.other true)
                       resultPath := "second/result.json" })]

/-- The first phase of the drill. -/
def drillStart : Chain Bool Unit where
  previous := none
  current := ⟨"first/result.json", [], resultPayload drill.fingerprint ∅ drill.taskIds ∅ none⟩
  live := some (startProcess drill ∅)
  history := []
  run := 0
  phase := 0
  resultPaths := ["first/result.json"]
  reviewedFields := ∅

theorem drill_survives : ∃ start chain : Chain Bool Unit,
    Chain.first drill { identity := ∅, resultPath := "first/result.json" } = .ok start ∧
      Transition.run (Chain.step drill) start drillEvents = some chain ∧
      ∃ process ∈ chain.live, process.records.lookup "a" =
        some (runOne "narrow" "a" (.success 0 true ())) ∧ "a" ∉ process.running := by
  have hfirst : Chain.first drill { identity := ∅, resultPath := "first/result.json" } =
      .ok drillStart := rfl
  have hrun : Transition.run (Chain.step drill) drillStart drillEvents = some _ := rfl
  have h := (records_survive drill _ _ _ hfirst (reaches_iff_run.mpr ⟨drillEvents, hrun⟩)).2.1 _
    (List.mem_cons_self ..)
  obtain ⟨-, -, hprocess⟩ := h
  obtain ⟨hrunning, hrecord⟩ := hprocess _ rfl
  exact ⟨_, _, hfirst, hrun, _, rfl, (hrecord (by decide)).1, hrunning⟩

/-- A run of the identity is killed, and a new run of the very same identity is not let in. -/
def RejectedUnchanged (identity : Identity Bool) (reviewedConfig : Option String) : Prop :=
  ∃ (start chain : Chain Bool Unit) (error : PyError),
    Chain.first drill { identity, resultPath := "first/result.json" } = .ok start ∧
      Reaches (Chain.step drill) start chain ∧ chain.current.result.runIdentity = identity ∧
      "second/result.json" ∉ chain.resultPaths ∧
      chain.launch drill (.resume
        { identity, resultPath := "second/result.json"
          resumeSourceTaskConfigSha256 := reviewedConfig }) = .error error

/-- A wrong reviewed hash, and a `serving_config` that is no object. -/
theorem resume_rejects_unchanged_identity :
    RejectedUnchanged (Finmap.singleton "task_config_sha256" (.string "c")) (some "d") ∧
      RejectedUnchanged (Finmap.singleton "serving_config" (.other true)) none := by
  constructor
  · refine ⟨_, _, _, rfl, (Reaches.refl _).tail .kill rfl, rfl, ?_, rfl⟩
    simp
  · refine ⟨_, _, _, rfl, (Reaches.refl _).tail .kill rfl, rfl, ?_, rfl⟩
    simp

end Chain

end CodexEval
