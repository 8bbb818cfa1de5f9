import CodingOpd.Prefetch.Trainer

/-!
# Draining before a checkpoint

With the hooks installed the queue holds whole parts of batches, and the prefetched batch is
among them exactly from the first sample of a step that is no boundary to the start of the next
step. Every step that saves, regularly or early, is a boundary, so the patched `_save_checkpoint`
finds the queue empty.

## Main definitions

* `Config.saveAt`: the save of a step, if it has one
* `Trainer.remaining`, `Trainer.Ahead`: the parts of the step still to sample, and whether the
  next step's batch is already in the queue
* `Trainer.Drains`: the invariant of the trainer

## Main results

* `Trainer.drains_of_reaches`: the invariant in every reachable state
* `Trainer.checkpoint_drains`: no save raises, and what is saved, outstanding and submitted
-/

open Python Transition

namespace Prefetch

variable {config : Config} {cls : TrainerClass} {start : ℕ}

namespace Config

/-- The save of a step: `fit`'s own at its cadence, or the early one. -/
def saveAt (config : Config) (step : ℕ) : Option SaveKind :=
  if config.RegularSave step then some .regular
  else if config.EarlySave step then some .early
  else none

theorem EarlySave.not_regularSave {step : ℕ} (h : config.EarlySave step) :
    ¬ config.RegularSave step := by
  obtain ⟨-, hlt, -, hmod⟩ := h
  rintro ⟨-, hmod' | htotal⟩
  · exact hmod hmod'
  · exact hlt.ne htotal

theorem RegularSave.boundary {step : ℕ} (h : config.RegularSave step) : config.Boundary step := by
  obtain ⟨hpos, hmod | htotal⟩ := h
  · exact Or.inr ⟨hpos, Or.inl hmod⟩
  · exact Or.inl htotal.ge

theorem EarlySave.boundary {step : ℕ} (h : config.EarlySave step) : config.Boundary step :=
  Or.inr ⟨h.2.2.1, Or.inr h.1⟩

/-- A step that does not divide the cadence is not step zero. -/
theorem EarlySave.firstCheckpointStep_pos {step : ℕ} (h : config.EarlySave step) :
    0 < config.firstCheckpointStep := by
  obtain ⟨hfirst, -, -, hmod⟩ := h
  have hne : step ≠ 0 := by
    rintro rfl
    exact hmod (Int.zero_emod _)
  omega

theorem saveAt_eq_early_iff {step : ℕ} :
    config.saveAt step = some .early ↔ config.EarlySave step := by
  unfold saveAt
  constructor
  · intro h
    split_ifs at h with hregular hearly
    · cases h
    · exact hearly
  · intro h
    rw [if_neg h.not_regularSave, if_pos h]

theorem saveAt_eq_regular_iff {step : ℕ} :
    config.saveAt step = some .regular ↔ config.RegularSave step := by
  unfold saveAt
  split_ifs with hregular hearly <;> simp [hregular]

/-- The hooks stop the lookahead at the steps that save, at the last one and past it. -/
theorem boundary_iff {step : ℕ} (hle : (step : ℤ) ≤ config.totalTrainingSteps) :
    config.Boundary step ↔ config.saveAt step ≠ none ∨ (step : ℤ) = config.totalTrainingSteps := by
  constructor
  · intro h
    by_cases hlast : (step : ℤ) = config.totalTrainingSteps
    · exact Or.inr hlast
    refine Or.inl fun hnone => ?_
    have hregular : ¬ config.RegularSave step := fun hr => by
      rw [saveAt_eq_regular_iff.mpr hr] at hnone
      cases hnone
    have hearly : ¬ config.EarlySave step := fun he => by
      rw [saveAt_eq_early_iff.mpr he] at hnone
      cases hnone
    rcases h with htotal | ⟨hpos, hmod | hfirst⟩
    · exact hlast (le_antisymm hle htotal)
    · exact hregular ⟨hpos, Or.inl hmod⟩
    · exact hearly ⟨hfirst, lt_of_le_of_ne hle hlast, hpos,
        fun hmod => hregular ⟨hpos, Or.inl hmod⟩⟩
  · rintro (hsave | hlast)
    · unfold saveAt at hsave
      split_ifs at hsave with hregular hearly
      · exact hregular.boundary
      · exact hearly.boundary
      · exact absurd rfl hsave
    · exact Or.inl hlast.ge

end Config

/-- A call of `install_checkpoint_safe_prefetch` on veRL's class that enables the prefetch patches
`on_step_end` when an early checkpoint is asked for. -/
theorem firstCheckpoint_iff_of_install
    (hinstall : installCheckpointSafePrefetch config {} = (cls, .ok ()))
    (hprefetch : cls.prefetch = true) :
    cls.firstCheckpoint = true ↔ 0 < config.firstCheckpointStep := by
  unfold installCheckpointSafePrefetch at hinstall
  split_ifs at hinstall with hmode hfirst hoff hwarmup hthreshold <;>
    · obtain ⟨rfl, -⟩ := Prod.mk.inj hinstall
      simp_all

namespace Trainer

variable {trainer next : Trainer}

@[simp] theorem card_nextRows (position count : ℕ) : (nextRows position count).card = count := by
  rw [nextRows, Multiset.card_map, Multiset.card_range]

/-- There is something to sample as long as the queue is long enough. -/
theorem exists_le_card {queue : Multiset ℕ} {count : ℕ} (h : count ≤ queue.card) :
    ∃ rows ≤ queue, rows.card = count := by
  induction queue using Quotient.inductionOn with
  | h list =>
    exact ⟨(list.take count : List ℕ), (List.take_sublist _ _).subperm, List.length_take_of_le h⟩

section step

theorem step_beginStep : trainer.step config cls start .beginStep = some next ↔
    trainer.phase = .ready ∧ (trainer.globalSteps : ℤ) ≤ config.totalTrainingSteps ∧
      next = { trainer.addBatchToGenerate config cls with phase := .sampling 0 } := by
  simp only [step, Option.ite_none_right_eq_some, Option.some.injEq, and_assoc]
  rw [eq_comm (a := next)]

theorem step_drop {row : ℕ} : trainer.step config cls start (.drop row) = some next ↔
    row ∈ trainer.queue ∧
      next =
        { trainer with
          queue := trainer.queue.erase row + nextRows trainer.position 1
          position := trainer.position + 1
          lineage :=
            { trainer.lineage with dropped := trainer.lineage.dropped + {row} } } := by
  simp only [step, Option.ite_none_right_eq_some, Option.some.injEq]
  rw [eq_comm (a := next)]

theorem step_sample {rows : Multiset ℕ} :
    trainer.step config cls start (.sample rows) = some next ↔
      ∃ j, trainer.phase = .sampling j ∧ rows ≤ trainer.queue ∧
        rows.card = config.sampleBatchSize ∧
        next = { trainer with queue := trainer.queue - rows, phase := .sampled j rows } := by
  cases hphase : trainer.phase <;>
    simp [step, hphase, and_assoc, eq_comm]

theorem step_sampleEnd : trainer.step config cls start .sampleEnd = some next ↔
    ∃ j rows, trainer.phase = .sampled j rows ∧
      next = { trainer.onSampleEnd config cls j with phase := .training j rows } := by
  cases hphase : trainer.phase <;>
    simp [step, hphase, eq_comm]

theorem step_update : trainer.step config cls start .update = some next ↔
    ∃ j rows, trainer.phase = .training j rows ∧
      next =
        { trainer with
          lineage :=
            { trainer.lineage with
              trained := trainer.lineage.trained + rows.map fun row => (trainer.globalSteps, row) }
          phase := if j + 1 < config.parameterSyncStep then .sampling (j + 1) else .saving } := by
  cases hphase : trainer.phase <;>
    simp [step, hphase, eq_comm]

/-- A save with nothing outstanding goes through. -/
theorem saveCheckpoint_of_empty (kind : SaveKind) (hqueue : trainer.queue.card = 0)
    (hprefetched : trainer.batchPrefetched = false) :
    trainer.saveCheckpoint cls kind = .ok (trainer.originalSave kind) := by
  simp [saveCheckpoint, hqueue, hprefetched]

end step

/-- The parts of the step's batch that are still to be sampled. -/
def remaining (config : Config) : Phase → ℕ
  | .sampling j => config.parameterSyncStep - j
  | .sampled j _ | .training j _ => config.parameterSyncStep - (j + 1)
  | _ => 0

/-- The step whose batch has not been asked for yet. -/
def unstarted (globalSteps : ℕ) : Phase → ℕ
  | .ready => globalSteps
  | _ => globalSteps + 1

/-- The batch of the next step has been asked for. -/
def Ahead (config : Config) (startStep globalSteps : ℕ) : Phase → Prop
  | .ready => startStep < globalSteps ∧ ¬ config.Boundary (globalSteps - 1)
  | .sampling j | .sampled j _ => 0 < j ∧ ¬ config.Boundary globalSteps
  | _ => ¬ config.Boundary globalSteps

/-- The phase is one that a step goes through. -/
def Scheduled (config : Config) : Phase → Prop
  | .sampling j => j < config.parameterSyncStep
  | .sampled j rows | .training j rows =>
    j < config.parameterSyncStep ∧ rows.card = config.sampleBatchSize
  | .raised _ => False
  | _ => True

/-- The saves of the steps that are over, one by one. -/
def savesOf (config : Config) (startStep globalSteps : ℕ) : List (ℕ × SaveKind) :=
  (List.range' startStep (globalSteps - startStep)).filterMap fun step =>
    (config.saveAt step).map fun kind => (step, kind)

/-- The save that the current step has already made. -/
def ownSaves (config : Config) (globalSteps : ℕ) : Phase → List (ℕ × SaveKind)
  | .stepEnd => if config.RegularSave globalSteps then [(globalSteps, .regular)] else []
  | _ => []

/-- What holds of the trainer at a phase of the step. -/
structure DrainsAt (config : Config) (phase : Phase) (trainer : Trainer) : Prop where
  start_le : trainer.startStep ≤ trainer.globalSteps
  within : trainer.startStep = unstarted trainer.globalSteps phase ∨
    (unstarted trainer.globalSteps phase : ℤ) ≤ config.totalTrainingSteps + 1
  scheduled : Scheduled config phase
  prefetched_iff :
    trainer.batchPrefetched = true ↔ Ahead config trainer.startStep trainer.globalSteps phase
  card_queue : trainer.queue.card = remaining config phase * config.sampleBatchSize +
    if trainer.batchPrefetched then config.trainBatchSize else 0
  submitted_eq : trainer.startStep + trainer.submitted =
    unstarted trainer.globalSteps phase + if trainer.batchPrefetched then 1 else 0
  saves_eq : trainer.saves = savesOf config trainer.startStep trainer.globalSteps ++
    ownSaves config trainer.globalSteps phase

/-- The invariant of the trainer with the hooks. -/
def Drains (config : Config) (trainer : Trainer) : Prop := DrainsAt config trainer.phase trainer

theorem Drains.at {phase : Phase} (h : trainer.Drains config) (hphase : trainer.phase = phase) :
    DrainsAt config phase trainer :=
  hphase ▸ h

theorem drains_launch (saved : Option Checkpoint) : (launch start saved).Drains config := by
  cases saved <;>
    exact ⟨le_rfl, Or.inl rfl, trivial, by simp [launch, Ahead], by simp [launch, remaining],
      by simp [launch, unstarted], by simp [launch, savesOf, ownSaves]⟩

/-- The saves of one more step. -/
theorem savesOf_succ {startStep globalSteps : ℕ} (hle : startStep ≤ globalSteps) :
    savesOf config startStep (globalSteps + 1) = savesOf config startStep globalSteps ++
      ((config.saveAt globalSteps).map fun kind => (globalSteps, kind)).toList := by
  have hlast : startStep + 1 * (globalSteps - startStep) = globalSteps := by omega
  rw [savesOf, Nat.succ_sub hle, List.range'_concat, List.filterMap_append, hlast, savesOf]
  cases hsave : config.saveAt globalSteps <;> simp [hsave]

namespace DrainsAt

/-- A boundary leaves nothing outstanding once the step's batch has been sampled. -/
theorem drained (h : DrainsAt config .saving trainer ∨ DrainsAt config .stepEnd trainer)
    (hboundary : config.Boundary trainer.globalSteps) :
    trainer.queue.card = 0 ∧ trainer.batchPrefetched = false := by
  have hprefetched : trainer.batchPrefetched = false := by
    rw [← Bool.not_eq_true]
    rcases h with h | h <;>
      exact fun htrue => h.prefetched_iff.mp htrue hboundary
  rcases h with h | h <;>
    exact ⟨by simpa [remaining, hprefetched] using h.card_queue, hprefetched⟩

theorem addBatchToGenerate (h : DrainsAt config .ready trainer) (hprefetch : cls.prefetch = true)
    (hle : (trainer.globalSteps : ℤ) ≤ config.totalTrainingSteps) :
    DrainsAt config (.sampling 0) (trainer.addBatchToGenerate config cls) := by
  have hwithin : ((trainer.globalSteps + 1 : ℕ) : ℤ) ≤ config.totalTrainingSteps + 1 := by
    omega
  have hcard := h.card_queue
  have hsubmitted := h.submitted_eq
  rw [Trainer.addBatchToGenerate]
  by_cases hprefetched : trainer.batchPrefetched = true
  · -- the batch is in the queue already, and becomes the step's own
    rw [if_pos ⟨hprefetch, hprefetched⟩]
    simp only [hprefetched, if_true, remaining, unstarted] at hcard hsubmitted
    exact ⟨h.start_le, Or.inr hwithin, config.parameterSyncStep_pos, by simp [Ahead],
      by simpa [remaining, Config.trainBatchSize] using hcard, hsubmitted, h.saves_eq⟩
  · rw [if_neg fun hand => hprefetched hand.2]
    simp only [Bool.not_eq_true] at hprefetched
    simp only [hprefetched, Bool.false_eq_true, if_false, remaining, unstarted] at hcard hsubmitted
    refine ⟨h.start_le, Or.inr hwithin, config.parameterSyncStep_pos,
      by simp [Ahead, originalAdd, hprefetched], ?_, ?_, h.saves_eq⟩
    · simp [remaining, originalAdd, hprefetched, hcard, Config.trainBatchSize]
    · simp only [originalAdd, unstarted, hprefetched, Bool.false_eq_true, if_false]
      omega

theorem onSampleEnd {j : ℕ} {rows : Multiset ℕ} (h : DrainsAt config (.sampled j rows) trainer)
    (hprefetch : cls.prefetch = true) :
    DrainsAt config (.training j rows) (trainer.onSampleEnd config cls j) := by
  have hcard := h.card_queue
  have hsubmitted := h.submitted_eq
  have hahead := h.prefetched_iff
  rw [Trainer.onSampleEnd]
  by_cases hlookahead : j = 0 ∧ ¬ config.Boundary trainer.globalSteps
  · -- the first part of the step has been sampled, and the next batch goes in
    rw [if_pos ⟨hprefetch, hlookahead⟩]
    obtain ⟨rfl, hboundary⟩ := hlookahead
    have hprefetched : trainer.batchPrefetched = false := by
      rw [← Bool.not_eq_true, hahead]
      exact fun hand => (Nat.lt_irrefl 0 hand.1).elim
    simp only [hprefetched, Bool.false_eq_true, if_false, remaining, unstarted] at hcard hsubmitted
    refine ⟨h.start_le, h.within, h.scheduled, by simpa [Ahead, originalAdd] using hboundary, ?_,
      ?_, h.saves_eq⟩
    · simp [remaining, originalAdd, hcard]
    · simp only [originalAdd, unstarted, if_true]
      omega
  · rw [if_neg fun hand => hlookahead hand.2]
    refine ⟨h.start_le, h.within, h.scheduled, ?_, hcard, hsubmitted, h.saves_eq⟩
    show trainer.batchPrefetched = true ↔ ¬ config.Boundary trainer.globalSteps
    rw [hahead]
    show 0 < j ∧ ¬ config.Boundary trainer.globalSteps ↔ ¬ config.Boundary trainer.globalSteps
    rw [and_iff_right_iff_imp]
    intro hboundary
    exact Nat.pos_of_ne_zero fun hzero => hlookahead ⟨hzero, hboundary⟩

theorem sample {j : ℕ} {rows : Multiset ℕ} (h : DrainsAt config (.sampling j) trainer)
    (hle : rows ≤ trainer.queue) (hrows : rows.card = config.sampleBatchSize) :
    DrainsAt config (.sampled j rows) { trainer with queue := trainer.queue - rows } := by
  have hj : j < config.parameterSyncStep := h.scheduled
  refine ⟨h.start_le, h.within, ⟨hj, hrows⟩, h.prefetched_iff, ?_, h.submitted_eq, h.saves_eq⟩
  show (trainer.queue - rows).card = _
  have hparts : config.parameterSyncStep - j = config.parameterSyncStep - (j + 1) + 1 := by omega
  have hcard := h.card_queue
  simp only [remaining, hparts, Nat.succ_mul] at hcard
  rw [Multiset.card_sub hle, hcard, hrows]
  simp only [remaining]
  omega

/-- After an update the next part is sampled, or the step's batch is used up. -/
theorem update {j : ℕ} {rows : Multiset ℕ} (h : DrainsAt config (.training j rows) trainer) :
    DrainsAt config (if j + 1 < config.parameterSyncStep then .sampling (j + 1) else .saving)
      trainer := by
  split_ifs with hmore
  · refine ⟨h.start_le, h.within, hmore, ?_, h.card_queue, h.submitted_eq, h.saves_eq⟩
    rw [h.prefetched_iff]
    exact (and_iff_right (Nat.succ_pos j)).symm
  · have hnone : config.parameterSyncStep - (j + 1) = 0 := by omega
    refine ⟨h.start_le, h.within, trivial, h.prefetched_iff, ?_, h.submitted_eq, h.saves_eq⟩
    have hcard := h.card_queue
    rwa [remaining, hnone] at hcard

/-- The step's own save goes through where the step saves. -/
theorem save (h : DrainsAt config .saving trainer) (cls : TrainerClass)
    (hregular : config.RegularSave trainer.globalSteps) :
    trainer.saveCheckpoint cls .regular = .ok (trainer.originalSave .regular) ∧
      DrainsAt config .stepEnd (trainer.originalSave .regular) := by
  obtain ⟨hqueue, hprefetched⟩ := drained (Or.inl h) hregular.boundary
  refine ⟨saveCheckpoint_of_empty _ hqueue hprefetched, h.start_le, h.within, trivial,
    h.prefetched_iff, h.card_queue, h.submitted_eq, ?_⟩
  show trainer.saves ++ [(trainer.globalSteps, .regular)] = _
  rw [h.saves_eq]
  simp [ownSaves, originalSave, hregular]

/-- The end of the step, the early save behind it where there is one. -/
theorem stepEnd (h : DrainsAt config .stepEnd trainer) :
    DrainsAt config .ready
      { trainer with
        globalSteps := trainer.globalSteps + 1
        saves := trainer.saves ++
          if config.EarlySave trainer.globalSteps then [(trainer.globalSteps, .early)]
          else [] } := by
  refine ⟨h.start_le.trans (Nat.le_succ _), h.within, trivial, ?_, h.card_queue, h.submitted_eq, ?_⟩
  · rw [h.prefetched_iff]
    exact (and_iff_right (Nat.lt_succ_of_le h.start_le)).symm
  · show trainer.saves ++ _ = savesOf config trainer.startStep (trainer.globalSteps + 1) ++ []
    rw [h.saves_eq, savesOf_succ h.start_le, List.append_nil, List.append_assoc]
    congr 1
    unfold ownSaves Config.saveAt
    by_cases hregular : config.RegularSave trainer.globalSteps
    · have hearly : ¬ config.EarlySave trainer.globalSteps := fun he =>
        he.not_regularSave hregular
      simp [hregular, hearly]
    · by_cases hearly : config.EarlySave trainer.globalSteps <;> simp [hregular, hearly]

end DrainsAt

section step

variable (hprefetch : cls.prefetch = true)
  (hfirst : cls.firstCheckpoint = true ↔ 0 < config.firstCheckpointStep)

/-- The save of `fit` in a state of the invariant: it never raises. -/
theorem Drains.step_save (h : trainer.Drains config) :
    trainer.step config cls start .save = some next ↔ trainer.phase = .saving ∧
      next = { (if config.RegularSave trainer.globalSteps then trainer.originalSave .regular
        else trainer) with phase := .stepEnd } := by
  cases hphase : trainer.phase <;> simp only [step, hphase, reduceCtorEq, false_and]
  by_cases hregular : config.RegularSave trainer.globalSteps
  · rw [if_pos hregular, if_pos hregular, ((h.at hphase).save cls hregular).1]
    simp [eq_comm]
  · rw [if_neg hregular, if_neg hregular]
    simp [eq_comm]

include hfirst in
/-- `on_step_end` in a state of the invariant: it never raises. -/
theorem Drains.step_stepEnd (h : trainer.Drains config) :
    trainer.step config cls start .stepEnd = some next ↔ trainer.phase = .stepEnd ∧
      next = { (if config.EarlySave trainer.globalSteps then trainer.originalSave .early
        else trainer) with globalSteps := trainer.globalSteps + 1, phase := .ready } := by
  cases hphase : trainer.phase <;> simp only [step, hphase, reduceCtorEq, false_and]
  rw [onStepEnd]
  by_cases hearly : config.EarlySave trainer.globalSteps
  · obtain ⟨hqueue, hprefetched⟩ := DrainsAt.drained (Or.inr (h.at hphase)) hearly.boundary
    rw [if_pos ⟨hfirst.mpr hearly.firstCheckpointStep_pos, hearly⟩, if_pos hearly,
      saveCheckpoint_of_empty _ hqueue hprefetched]
    simp [originalSave, eq_comm]
  · rw [if_neg fun hand => hearly hand.2, if_neg hearly]
    simp [eq_comm]

include hprefetch hfirst in
/-- Every event preserves the invariant. -/
theorem Drains.step (h : trainer.Drains config) {event : Event}
    (hstep : trainer.step config cls start event = some next) : next.Drains config := by
  cases event with
  | beginStep =>
    obtain ⟨hphase, hle, rfl⟩ := step_beginStep.mp hstep
    exact { (h.at hphase).addBatchToGenerate hprefetch hle with }
  | drop row =>
    obtain ⟨hmem, rfl⟩ := step_drop.mp hstep
    refine { h with card_queue := ?_ }
    -- a dropped row is replaced by the next one, so the queue keeps its length
    show (trainer.queue.erase row + nextRows trainer.position 1).card = _
    rw [Multiset.card_add, card_nextRows, Multiset.card_erase_add_one hmem]
    exact h.card_queue
  | sample rows =>
    obtain ⟨j, hphase, hle, hrows, rfl⟩ := step_sample.mp hstep
    exact { (h.at hphase).sample hle hrows with }
  | sampleEnd =>
    obtain ⟨j, rows, hphase, rfl⟩ := step_sampleEnd.mp hstep
    exact { (h.at hphase).onSampleEnd hprefetch with }
  | update =>
    obtain ⟨j, rows, hphase, rfl⟩ := step_update.mp hstep
    exact { (h.at hphase).update with }
  | save =>
    obtain ⟨hphase, rfl⟩ := h.step_save.mp hstep
    by_cases hregular : config.RegularSave trainer.globalSteps
    · rw [if_pos hregular]
      exact { ((h.at hphase).save cls hregular).2 with }
    · rw [if_neg hregular]
      exact { h.at hphase with
        scheduled := trivial
        saves_eq := by simpa [ownSaves, hregular] using (h.at hphase).saves_eq }
  | stepEnd =>
    obtain ⟨hphase, rfl⟩ := (h.step_stepEnd hfirst).mp hstep
    have hend := (h.at hphase).stepEnd
    -- an early save needs the drained queue, which the lookahead has left for it
    by_cases hearly : config.EarlySave trainer.globalSteps
    · rw [if_pos hearly] at hend ⊢
      exact { hend with }
    · rw [if_neg hearly, List.append_nil] at hend
      rw [if_neg hearly]
      exact { hend with }
  | kill =>
    cases hstep
    exact drains_launch _

include hprefetch hfirst in
/-- **The invariant** holds in every state of every run, whatever the kills and resumes. -/
theorem drains_of_reaches {saved : Option Checkpoint}
    (h : Reaches (step config cls start) (launch start saved) trainer) :
    trainer.Drains config :=
  h.invariant (drains_launch saved) fun _ _ _ ih hstep => ih.step hprefetch hfirst hstep

include hprefetch hfirst in
/-- The hooks do not block the trainer: until the last step is over, something other than a drop
or a kill can happen. -/
theorem exists_step_of_reaches {saved : Option Checkpoint}
    (h : Reaches (step config cls start) (launch start saved) trainer)
    (hunfinished : trainer.phase = .ready → (trainer.globalSteps : ℤ) ≤ config.totalTrainingSteps) :
    ∃ event next, trainer.step config cls start event = some next ∧
      event ≠ .kill ∧ ∀ row, event ≠ .drop row := by
  have hdrains := drains_of_reaches hprefetch hfirst h
  cases hphase : trainer.phase with
  | ready => exact ⟨.beginStep, _, step_beginStep.mpr ⟨hphase, hunfinished hphase, rfl⟩, by simp⟩
  | sampling j =>
    have hat := hdrains.at hphase
    have hj : j < config.parameterSyncStep := hat.scheduled
    have henough : config.sampleBatchSize ≤ trainer.queue.card := by
      rw [hat.card_queue]
      exact (Nat.le_mul_of_pos_left _ (Nat.sub_pos_of_lt hj)).trans (Nat.le_add_right _ _)
    obtain ⟨rows, hle, hrows⟩ := exists_le_card henough
    exact ⟨.sample rows, _, step_sample.mpr ⟨j, hphase, hle, hrows, rfl⟩, by simp⟩
  | sampled j rows => exact ⟨.sampleEnd, _, step_sampleEnd.mpr ⟨j, rows, hphase, rfl⟩, by simp⟩
  | training j rows => exact ⟨.update, _, step_update.mpr ⟨j, rows, hphase, rfl⟩, by simp⟩
  | saving => exact ⟨.save, _, hdrains.step_save.mpr ⟨hphase, rfl⟩, by simp⟩
  | stepEnd => exact ⟨.stepEnd, _, (hdrains.step_stepEnd hfirst).mpr ⟨hphase, rfl⟩, by simp⟩
  | raised error => exact (hdrains.at hphase).scheduled.elim

end step

theorem mem_savesOf {startStep globalSteps n : ℕ} {kind : SaveKind} :
    (n, kind) ∈ savesOf config startStep globalSteps ↔
      (startStep ≤ n ∧ n < globalSteps) ∧ config.saveAt n = some kind := by
  simp only [savesOf, List.mem_filterMap, List.mem_range'_1, Option.map_eq_some_iff,
    Prod.mk.injEq]
  constructor
  · rintro ⟨_, hm, _, hsave, rfl, rfl⟩
    exact ⟨by omega, hsave⟩
  · rintro ⟨hn, hsave⟩
    exact ⟨n, by omega, kind, hsave, rfl, rfl⟩

/-- No step is over with two saves. -/
theorem nodup_savesOf {startStep globalSteps : ℕ} :
    ((savesOf config startStep globalSteps).map Prod.fst).Nodup := by
  refine List.Nodup.map_on ?_ (List.Nodup.filterMap ?_ List.nodup_range')
  · rintro ⟨n, kind⟩ hx ⟨m, kind'⟩ hy hnm
    obtain rfl : n = m := hnm
    have hkinds := (mem_savesOf.mp hx).2.symm.trans (mem_savesOf.mp hy).2
    rw [Option.some_inj.mp hkinds]
  · intro n m entry hn hm
    simp only [Option.mem_def, Option.map_eq_some_iff] at hn hm
    obtain ⟨_, -, rfl⟩ := hn
    obtain ⟨_, -, hentry⟩ := hm
    exact (congrArg Prod.fst hentry).symm

theorem Drains.nodup_saves (h : trainer.Drains config) : (trainer.saves.map Prod.fst).Nodup := by
  rw [h.saves_eq, List.map_append]
  refine nodup_savesOf.append ?_ ?_
  · cases trainer.phase <;> simp only [ownSaves, List.map_nil, List.nodup_nil]
    split_ifs <;> simp
  · intro n hn hown
    obtain ⟨⟨_, kind⟩, hmem, rfl⟩ := List.mem_map.mp hn
    have hlt := (mem_savesOf.mp hmem).1.2
    cases hphase : trainer.phase <;>
      simp only [hphase, ownSaves, List.map_nil, List.not_mem_nil] at hown
    split_ifs at hown
    · simp only [List.map_cons, List.map_nil, List.mem_singleton] at hown
      omega
    · simp at hown

/-- A step of the process saves early exactly where the hook's condition holds. -/
theorem Drains.mem_saves_early (h : trainer.Drains config) {n : ℕ} :
    (n, .early) ∈ trainer.saves ↔
      (trainer.startStep ≤ n ∧ n < trainer.globalSteps) ∧ config.EarlySave n := by
  have hown : (n, .early) ∉ ownSaves config trainer.globalSteps trainer.phase := by
    cases trainer.phase <;> simp only [ownSaves, List.not_mem_nil, not_false_eq_true]
    split_ifs <;> simp
  rw [h.saves_eq, List.mem_append, or_iff_left hown, mem_savesOf, Config.saveAt_eq_early_iff]

/-- The saves of a step that is over. -/
theorem Drains.mem_saves_of_lt (h : trainer.Drains config) {n : ℕ} {kind : SaveKind}
    (hstart : trainer.startStep ≤ n) (hlt : n < trainer.globalSteps) :
    (n, kind) ∈ trainer.saves ↔ config.saveAt n = some kind := by
  have hown : (n, kind) ∉ ownSaves config trainer.globalSteps trainer.phase := by
    cases trainer.phase <;> simp only [ownSaves, List.not_mem_nil, not_false_eq_true]
    split_ifs
    · simp only [List.mem_singleton, Prod.mk.injEq, not_and]
      omega
    · simp
  rw [h.saves_eq, List.mem_append, or_iff_left hown, mem_savesOf]
  exact and_iff_right ⟨hstart, hlt⟩

/-- The step has been saved, or it was the last one. -/
def SavedOrLast (config : Config) (trainer : Trainer) (last : ℕ) : Prop :=
  (∃ kind, (last, kind) ∈ trainer.saves) ∨ (last : ℤ) = config.totalTrainingSteps

/-- Between two steps the next batch has been asked for, unless the last step was a boundary. -/
theorem Drains.batchPrefetched_iff (h : trainer.Drains config) {last : ℕ}
    (hphase : trainer.phase = .ready) (hlast : trainer.globalSteps = last + 1)
    (hstart : trainer.startStep ≤ last) :
    trainer.batchPrefetched = true ↔ ¬ trainer.SavedOrLast config last := by
  have hat := h.at hphase
  have hle : (last : ℤ) ≤ config.totalTrainingSteps := by
    have hwithin := hat.within
    simp only [unstarted, hlast] at hwithin
    omega
  have hsaved : config.saveAt last ≠ none ↔ ∃ kind, (last, kind) ∈ trainer.saves := by
    rw [Option.ne_none_iff_exists']
    exact exists_congr fun kind => (h.mem_saves_of_lt hstart (by omega)).symm
  rw [hat.prefetched_iff, SavedOrLast, ← hsaved, ← Config.boundary_iff hle]
  simp only [Ahead, hlast, Nat.add_sub_cancel]
  exact and_iff_right (by omega)

/-- **Prefetch drains before every checkpoint.** In every state of every run of the patched
trainer, whatever the sampler takes and drops and wherever it is killed, no save has raised; no
step has two saves, the regular saves are those of veRL's cadence and the early one is made
exactly at a first checkpoint step before the last that is no regular save; and between two steps
one whole batch is outstanding and submitted ahead, unless the last step saved or was the last of
all, when none is. -/
theorem checkpoint_drains (config : Config) (cls : TrainerClass) (start : ℕ)
    (saved : Option Checkpoint) (trainer : Trainer)
    (hinstall : installCheckpointSafePrefetch config {} = (cls, .ok ()))
    (hprefetch : cls.prefetch = true)
    (hreaches : Reaches (step config cls start) (launch start saved) trainer) :
    (∀ error, trainer.phase ≠ .raised error) ∧
    (trainer.saves.map Prod.fst).Nodup ∧
    (∀ n, trainer.startStep ≤ n → n < trainer.globalSteps →
      ((n, .regular) ∈ trainer.saves ↔ config.RegularSave n)) ∧
    (∀ n, (n, .early) ∈ trainer.saves ↔
      (trainer.startStep ≤ n ∧ n < trainer.globalSteps) ∧
        (n : ℤ) = config.firstCheckpointStep ∧ (n : ℤ) < config.totalTrainingSteps ∧
        0 < config.saveFreq ∧ ¬ config.RegularSave n) ∧
    ∀ steps, trainer.phase = .ready → trainer.globalSteps = trainer.startStep + steps + 1 →
      (trainer.SavedOrLast config (trainer.startStep + steps) →
        trainer.queue.card = 0 ∧ trainer.submitted = steps + 1) ∧
      (¬ trainer.SavedOrLast config (trainer.startStep + steps) →
        trainer.queue.card = config.trainBatchSize ∧ trainer.submitted = steps + 1 + 1) := by
  have hfirst := firstCheckpoint_iff_of_install hinstall hprefetch
  have h : trainer.Drains config := drains_of_reaches hprefetch hfirst hreaches
  refine ⟨fun error hphase => (h.at hphase).scheduled, h.nodup_saves, fun n hstart hlt => ?_,
    fun n => ?_, fun steps hphase hlast => ?_⟩
  · rw [h.mem_saves_of_lt hstart hlt, Config.saveAt_eq_regular_iff]
  · rw [h.mem_saves_early]
    refine and_congr_right fun _ => ⟨fun hearly => ?_, ?_⟩
    · exact ⟨hearly.1, hearly.2.1, hearly.2.2.1, hearly.not_regularSave⟩
    · rintro ⟨hstep, hbefore, hpos, hregular⟩
      exact ⟨hstep, hbefore, hpos, fun hmod => hregular ⟨hpos, Or.inl hmod⟩⟩
  · -- no batch is ahead exactly where the last step saved or was the last of all
    have hprefetched := h.batchPrefetched_iff hphase hlast (Nat.le_add_right _ _)
    have hcard := (h.at hphase).card_queue
    have hsubmitted := (h.at hphase).submitted_eq
    simp only [remaining, unstarted, hlast, Nat.zero_mul, Nat.zero_add] at hcard hsubmitted
    constructor
    · intro hdrained
      have hnot : trainer.batchPrefetched = false := by
        rw [← Bool.not_eq_true, hprefetched, not_not]
        exact hdrained
      simp only [hnot, Bool.false_eq_true, if_false] at hcard hsubmitted
      exact ⟨hcard, by omega⟩
    · intro hahead
      simp only [hprefetched.mpr hahead, if_true] at hcard hsubmitted
      exact ⟨hcard, by omega⟩

/-- Three steps of two parts each, with an early checkpoint at the first. -/
def drill : Config where
  checkpointSafePrefetch := true
  firstCheckpointStep := 1
  saveFreq := 3
  totalTrainingSteps := 3
  sampleBatchSize := 1
  parameterSyncStep := 2
  parameterSyncStep_pos := Nat.two_pos

/-- A step whose two parts are one row each. -/
def drillStep (first second : ℕ) : List Event :=
  [.beginStep, .sample {first}, .sampleEnd, .update, .sample {second}, .sampleEnd, .update, .save,
    .stepEnd]

theorem drill_drains : ∃ trainer : Trainer,
    run (step drill ⟨true, true⟩ 1) (launch 1 none) (drillStep 1 0 ++ drillStep 2 3) =
        some trainer ∧
      (1, .early) ∈ trainer.saves ∧ trainer.queue.card = 2 ∧ trainer.submitted = 3 := by
  let after : Trainer :=
    { globalSteps := 3, queue := {4, 5}, batchPrefetched := true, position := 6
      lineage := { trained := {(1, 1), (1, 0), (2, 2), (2, 3)} }
      saved := some ⟨1, 2, { trained := {(1, 1), (1, 0)} }⟩
      startStep := 1, submitted := 3, saves := [(1, .early)] }
  have hrun : run (step drill ⟨true, true⟩ 1) (launch 1 none) (drillStep 1 0 ++ drillStep 2 3) =
      some after := by
    decide +kernel
  obtain ⟨-, -, -, hearly, hbetween⟩ :=
    checkpoint_drains drill ⟨true, true⟩ 1 none after rfl rfl (reaches_iff_run.mpr ⟨_, hrun⟩)
  have hnot : ¬ after.SavedOrLast drill 2 := by
    simp [SavedOrLast, after, drill]
  exact ⟨after, hrun, (hearly 1).mpr (by decide), (hbetween 1 rfl rfl).2 hnot⟩

end Trainer

end Prefetch
