import Mathlib.Algebra.Order.Group.Multiset
import Mathlib.Tactic.Abel
import CodingOpd.Prefetch.Drain

/-!
# Kill and resume

Every row that the dataloader has handed out is in the queue, sampled and about to be trained,
trained, or dropped. A checkpoint is written with nothing in the first two places, so a resume
from it, which starts with an empty queue, loses no row and repeats none.

## Main definitions

* `Lineage.Settles`: the rows of the dataloader up to a position were each trained in exactly one
  step or dropped
* `Trainer.Accounts`: the invariant, over the trainer and its last checkpoint

## Main results

* `Trainer.resume_trains_exactly_once`: the rows of every checkpoint, and those of a finished run,
  are settled along the surviving lineage
-/

open Python Transition

namespace Prefetch

variable {config : Config} {cls : TrainerClass} {start : ℕ}

namespace Lineage

/-- A step of the lineage trained the weights on the row. -/
def TrainedAt (lineage : Lineage) (step row : ℕ) : Prop := (step, row) ∈ lineage.trained

/-- Each of the first rows of the dataloader was trained in exactly one step, once, or was dropped;
no other row was touched. -/
def Settles (lineage : Lineage) (position : ℕ) : Prop :=
  lineage.trained.Nodup ∧
    (∀ row, row < position →
      (∃! step, lineage.TrainedAt step row) ∧ row ∉ lineage.dropped ∨
        (∀ step, ¬ lineage.TrainedAt step row) ∧ row ∈ lineage.dropped) ∧
    ∀ row, position ≤ row → (∀ step, ¬ lineage.TrainedAt step row) ∧ row ∉ lineage.dropped

/-- The lineage is made of the steps from `start` to before `stop`, each with one whole batch. -/
def Spans (lineage : Lineage) (config : Config) (start stop : ℕ) : Prop :=
  ∀ step, lineage.trained.countP (·.1 = step) =
    if start ≤ step ∧ step < stop then config.trainBatchSize else 0

/-- The rows trained and dropped, counted together, are the first rows of the dataloader. -/
theorem settles_of_range_eq {lineage : Lineage} {position : ℕ}
    (h : Multiset.range position = lineage.trained.map Prod.snd + lineage.dropped) :
    lineage.Settles position := by
  have hnodup : (lineage.trained.map Prod.snd + lineage.dropped).Nodup :=
    h ▸ Multiset.nodup_range position
  obtain ⟨htrained, -, hdisjoint⟩ := Multiset.nodup_add.mp hnodup
  have hmem : ∀ row, row < position ↔
      (∃ step, lineage.TrainedAt step row) ∨ row ∈ lineage.dropped := by
    intro row
    rw [← Multiset.mem_range, h, Multiset.mem_add, Multiset.mem_map]
    simp [TrainedAt]
  have hexclusive : ∀ step row, lineage.TrainedAt step row → row ∉ lineage.dropped := by
    intro step row hstep hdropped
    exact Multiset.disjoint_left.mp hdisjoint (Multiset.mem_map_of_mem Prod.snd hstep) hdropped
  refine ⟨htrained.of_map, fun row hrow => ?_, fun row hrow => ?_⟩
  · rcases (hmem row).mp hrow with ⟨step, hstep⟩ | hdropped
    · refine Or.inl ⟨⟨step, hstep, fun step' hstep' => ?_⟩, hexclusive step row hstep⟩
      exact congrArg Prod.fst (Multiset.inj_on_of_nodup_map htrained _ hstep' _ hstep rfl)
    · exact Or.inr ⟨fun step hstep => hexclusive step row hstep hdropped, hdropped⟩
  · have hnone := mt (hmem row).mpr (Nat.not_lt_of_le hrow)
    rw [not_or, not_exists] at hnone
    exact hnone

end Lineage

theorem range_add_nextRows (position count : ℕ) :
    Multiset.range position + nextRows position count = Multiset.range (position + count) :=
  (Multiset.range_add position count).symm

namespace Trainer

variable {trainer next : Trainer}

/-- The rows that have left the queue and are not trained yet. -/
def inFlight : Phase → Multiset ℕ
  | .sampled _ rows | .training _ rows => rows
  | _ => 0

/-- The rows handed out are accounted for, those of the last checkpoint by its lineage alone. -/
structure Accounts (trainer : Trainer) : Prop where
  range_eq : Multiset.range trainer.position =
    trainer.lineage.trained.map Prod.snd + trainer.lineage.dropped +
      (inFlight trainer.phase + trainer.queue)
  saved_eq : ∀ checkpoint ∈ trainer.saved, Multiset.range checkpoint.position =
    checkpoint.lineage.trained.map Prod.snd + checkpoint.lineage.dropped

theorem accounts_launch {saved : Option Checkpoint}
    (hsaved : ∀ checkpoint ∈ saved, Multiset.range checkpoint.position =
      checkpoint.lineage.trained.map Prod.snd + checkpoint.lineage.dropped) :
    (launch start saved).Accounts := by
  cases saved with
  | none => exact ⟨by simp [launch, inFlight], by simp [launch]⟩
  | some checkpoint =>
    refine ⟨?_, hsaved⟩
    simpa [launch, inFlight] using hsaved checkpoint rfl

/-- veRL's own `_add_batch_to_generate` puts the rows it hands out into the queue. -/
theorem range_originalAdd {held : Multiset ℕ}
    (h : Multiset.range trainer.position = held + trainer.queue) :
    Multiset.range (trainer.originalAdd config).position =
      held + (trainer.originalAdd config).queue := by
  show Multiset.range (trainer.position + config.trainBatchSize) =
    held + (trainer.queue + nextRows trainer.position config.trainBatchSize)
  rw [← range_add_nextRows, h, add_assoc]

theorem range_addBatchToGenerate {held : Multiset ℕ}
    (h : Multiset.range trainer.position = held + trainer.queue) :
    Multiset.range (trainer.addBatchToGenerate config cls).position =
      held + (trainer.addBatchToGenerate config cls).queue := by
  unfold addBatchToGenerate
  split_ifs
  · exact h
  · exact range_originalAdd h

theorem range_onSampleEnd {held : Multiset ℕ} {j : ℕ}
    (h : Multiset.range trainer.position = held + trainer.queue) :
    Multiset.range (trainer.onSampleEnd config cls j).position =
      held + (trainer.onSampleEnd config cls j).queue := by
  unfold onSampleEnd
  split_ifs
  · exact range_originalAdd h
  · exact h

@[simp] theorem addBatchToGenerate_lineage :
    (trainer.addBatchToGenerate config cls).lineage = trainer.lineage := by
  unfold addBatchToGenerate
  split_ifs <;> rfl

@[simp] theorem addBatchToGenerate_globalSteps :
    (trainer.addBatchToGenerate config cls).globalSteps = trainer.globalSteps := by
  unfold addBatchToGenerate
  split_ifs <;> rfl

@[simp] theorem addBatchToGenerate_saved :
    (trainer.addBatchToGenerate config cls).saved = trainer.saved := by
  unfold addBatchToGenerate
  split_ifs <;> rfl

@[simp] theorem onSampleEnd_lineage {j : ℕ} :
    (trainer.onSampleEnd config cls j).lineage = trainer.lineage := by
  unfold onSampleEnd
  split_ifs <;> rfl

@[simp] theorem onSampleEnd_globalSteps {j : ℕ} :
    (trainer.onSampleEnd config cls j).globalSteps = trainer.globalSteps := by
  unfold onSampleEnd
  split_ifs <;> rfl

@[simp] theorem onSampleEnd_saved {j : ℕ} :
    (trainer.onSampleEnd config cls j).saved = trainer.saved := by
  unfold onSampleEnd
  split_ifs <;> rfl

/-- A save with an empty queue writes a checkpoint that accounts for its rows. -/
theorem Accounts.originalSave (h : trainer.Accounts) (kind : SaveKind)
    (hflight : inFlight trainer.phase = 0) (hqueue : trainer.queue.card = 0) :
    (trainer.originalSave kind).Accounts := by
  refine ⟨h.range_eq, ?_⟩
  rintro _ ⟨rfl⟩
  have hrange := h.range_eq
  rwa [hflight, Multiset.card_eq_zero.mp hqueue, add_zero, add_zero] at hrange

/-- Only the phase and the step's number change. -/
theorem Accounts.congr_phase {phase : Phase} {globalSteps : ℕ} (h : trainer.Accounts)
    (hflight : inFlight phase = inFlight trainer.phase) :
    ({ trainer with phase := phase, globalSteps := globalSteps } : Trainer).Accounts :=
  ⟨by rw [h.range_eq, ← hflight], h.saved_eq⟩

section step

variable (hfirst : cls.firstCheckpoint = true ↔ 0 < config.firstCheckpointStep)

include hfirst in
/-- Every event preserves the account, a save because the queue has drained. -/
theorem Accounts.step (h : trainer.Accounts) (hdrains : trainer.Drains config) {event : Event}
    (hstep : trainer.step config cls start event = some next) : next.Accounts := by
  have hrange := h.range_eq
  cases event with
  | beginStep =>
    obtain ⟨hphase, -, rfl⟩ := step_beginStep.mp hstep
    simp only [hphase, inFlight, zero_add] at hrange
    refine ⟨?_, by simpa using h.saved_eq⟩
    simpa [inFlight] using range_addBatchToGenerate hrange
  | drop row =>
    obtain ⟨hmem, rfl⟩ := step_drop.mp hstep
    refine ⟨?_, h.saved_eq⟩
    show Multiset.range (trainer.position + 1) =
      trainer.lineage.trained.map Prod.snd + (trainer.lineage.dropped + {row}) +
        (inFlight trainer.phase + (trainer.queue.erase row + nextRows trainer.position 1))
    have hqueue : trainer.queue = {row} + trainer.queue.erase row := by
      rw [Multiset.singleton_add, Multiset.cons_erase hmem]
    rw [← range_add_nextRows, hrange]
    nth_rewrite 1 [hqueue]
    abel
  | sample rows =>
    obtain ⟨j, hphase, hle, -, rfl⟩ := step_sample.mp hstep
    simp only [hphase, inFlight, zero_add] at hrange
    refine ⟨?_, h.saved_eq⟩
    show Multiset.range trainer.position =
      trainer.lineage.trained.map Prod.snd + trainer.lineage.dropped +
        (rows + (trainer.queue - rows))
    rw [add_tsub_cancel_of_le hle, hrange]
  | sampleEnd =>
    obtain ⟨j, rows, hphase, rfl⟩ := step_sampleEnd.mp hstep
    simp only [hphase, inFlight, ← add_assoc] at hrange
    refine ⟨?_, by simpa using h.saved_eq⟩
    simpa [inFlight, ← add_assoc] using range_onSampleEnd hrange
  | update =>
    obtain ⟨j, rows, hphase, rfl⟩ := step_update.mp hstep
    simp only [hphase, inFlight] at hrange
    refine ⟨?_, h.saved_eq⟩
    have hflight : inFlight
        (if j + 1 < config.parameterSyncStep then .sampling (j + 1) else .saving) = 0 := by
      split_ifs <;> rfl
    -- the rows in flight become the rows trained
    have hrows : (rows.map fun row => (trainer.globalSteps, row)).map Prod.snd = rows := by
      rw [Multiset.map_map]
      exact Multiset.map_id rows
    show Multiset.range trainer.position = Multiset.map Prod.snd (trainer.lineage.trained +
      rows.map fun row => (trainer.globalSteps, row)) + trainer.lineage.dropped + _
    rw [hflight, Multiset.map_add, hrows, hrange]
    show _ = _ + (0 + trainer.queue)
    abel
  | save =>
    obtain ⟨hphase, rfl⟩ := hdrains.step_save.mp hstep
    have hflight : inFlight .stepEnd = inFlight trainer.phase := by rw [hphase]; rfl
    split_ifs with hregular
    · have hqueue := (DrainsAt.drained (Or.inl (hdrains.at hphase)) hregular.boundary).1
      exact (h.originalSave .regular hflight.symm hqueue).congr_phase hflight
    · exact h.congr_phase hflight
  | stepEnd =>
    obtain ⟨hphase, rfl⟩ := (hdrains.step_stepEnd hfirst).mp hstep
    have hflight : inFlight .ready = inFlight trainer.phase := by rw [hphase]; rfl
    split_ifs with hearly
    · have hqueue := (DrainsAt.drained (Or.inr (hdrains.at hphase)) hearly.boundary).1
      exact (h.originalSave .early hflight.symm hqueue).congr_phase hflight
    · exact h.congr_phase hflight
  | kill =>
    cases hstep
    exact accounts_launch h.saved_eq

end step

/-- The parts of the current step that have been trained. -/
def done (config : Config) : Phase → ℕ
  | .sampling j | .sampled j _ | .training j _ => j
  | .saving | .stepEnd => config.parameterSyncStep
  | _ => 0

/-- The lineage is made of whole steps and of the part of the current step that is done. -/
structure Spanned (config : Config) (start : ℕ) (trainer : Trainer) : Prop where
  start_le : start ≤ trainer.globalSteps
  trained_eq : ∀ step, trainer.lineage.trained.countP (·.1 = step) =
    (if start ≤ step ∧ step < trainer.globalSteps then config.trainBatchSize else 0) +
      if step = trainer.globalSteps then done config trainer.phase * config.sampleBatchSize else 0
  saved_spans : ∀ checkpoint ∈ trainer.saved, start ≤ checkpoint.globalStep + 1 ∧
    checkpoint.lineage.Spans config start (checkpoint.globalStep + 1)

theorem spanned_launch {saved : Option Checkpoint}
    (hsaved : ∀ checkpoint ∈ saved, start ≤ checkpoint.globalStep + 1 ∧
      checkpoint.lineage.Spans config start (checkpoint.globalStep + 1)) :
    (launch start saved).Spanned config start := by
  cases saved with
  | none =>
    refine ⟨le_rfl, fun step => ?_, by simp [launch]⟩
    have hnone : ¬ (start ≤ step ∧ step < start) := by omega
    simp [launch, done, hnone]
  | some checkpoint =>
    refine ⟨(hsaved checkpoint rfl).1, fun step => ?_, hsaved⟩
    simp only [launch, done, Nat.zero_mul, ite_self, Nat.add_zero]
    exact (hsaved checkpoint rfl).2 step

/-- A step that is over is one whole step more. -/
theorem spans_succ {lineage : Lineage} {globalSteps : ℕ} (hle : start ≤ globalSteps)
    (h : ∀ step, lineage.trained.countP (·.1 = step) =
      (if start ≤ step ∧ step < globalSteps then config.trainBatchSize else 0) +
        if step = globalSteps then config.parameterSyncStep * config.sampleBatchSize else 0) :
    lineage.Spans config start (globalSteps + 1) := by
  intro step
  rw [h step]
  rcases lt_trichotomy step globalSteps with hlt | rfl | hgt
  · simp [hlt, hlt.ne, Nat.lt_succ_of_lt hlt]
  · simp [hle, Config.trainBatchSize]
  · have hout : ¬ step < globalSteps := by omega
    have hout' : ¬ step < globalSteps + 1 := by omega
    simp [hout, hout', hgt.ne']

/-- What does not touch the weights and leaves as much of the step done. -/
theorem Spanned.congr (h : trainer.Spanned config start)
    (hdone : done config next.phase = done config trainer.phase)
    (hsteps : next.globalSteps = trainer.globalSteps)
    (htrained : next.lineage.trained = trainer.lineage.trained)
    (hsaved : next.saved = trainer.saved) : next.Spanned config start :=
  ⟨by rw [hsteps]; exact h.start_le, by rw [hsteps, htrained, hdone]; exact h.trained_eq,
    by rw [hsaved]; exact h.saved_spans⟩

/-- A save at the end of a step writes a checkpoint of whole steps. -/
theorem Spanned.originalSave (h : trainer.Spanned config start) (kind : SaveKind)
    (hdone : done config trainer.phase = config.parameterSyncStep) :
    (trainer.originalSave kind).Spanned config start := by
  refine ⟨h.start_le, h.trained_eq, ?_⟩
  rintro _ ⟨rfl⟩
  refine ⟨h.start_le.trans (Nat.le_succ _), spans_succ h.start_le ?_⟩
  rw [← hdone]
  exact h.trained_eq

section step

variable (hfirst : cls.firstCheckpoint = true ↔ 0 < config.firstCheckpointStep)

include hfirst in
/-- Every event preserves the count of trained rows, an update by one part of the batch. -/
theorem Spanned.step (h : trainer.Spanned config start) (hdrains : trainer.Drains config)
    {event : Event} (hstep : trainer.step config cls start event = some next) :
    next.Spanned config start := by
  cases event with
  | beginStep =>
    obtain ⟨hphase, -, rfl⟩ := step_beginStep.mp hstep
    refine h.congr (by simp [hphase, done]) ?_ (by simp) (by simp)
    simp
  | drop row =>
    obtain ⟨-, rfl⟩ := step_drop.mp hstep
    exact h.congr rfl rfl rfl rfl
  | sample rows =>
    obtain ⟨j, hphase, -, -, rfl⟩ := step_sample.mp hstep
    exact h.congr (by simp [hphase, done]) rfl rfl rfl
  | sampleEnd =>
    obtain ⟨j, rows, hphase, rfl⟩ := step_sampleEnd.mp hstep
    exact h.congr (by simp [hphase, done]) (by simp) (by simp) (by simp)
  | update =>
    obtain ⟨j, rows, hphase, rfl⟩ := step_update.mp hstep
    obtain ⟨hj, hrows⟩ : j < config.parameterSyncStep ∧ rows.card = config.sampleBatchSize :=
      (hdrains.at hphase).scheduled
    have hdone : done config
        (if j + 1 < config.parameterSyncStep then .sampling (j + 1) else .saving) = j + 1 := by
      split_ifs with hmore
      · rfl
      · exact le_antisymm (Nat.le_of_not_lt hmore) hj
    refine ⟨h.start_le, fun n => ?_, h.saved_spans⟩
    have hbefore := h.trained_eq n
    simp only [hphase, done] at hbefore
    show Multiset.countP (·.1 = n) (trainer.lineage.trained +
      rows.map fun row => (trainer.globalSteps, row)) = _
    rw [Multiset.countP_add, hbefore, hdone, Multiset.countP_map]
    by_cases hn : n = trainer.globalSteps
    · subst hn
      simp [hrows, Nat.succ_mul]
    · simp [hn, Ne.symm hn]
  | save =>
    obtain ⟨hphase, rfl⟩ := hdrains.step_save.mp hstep
    have hdone : done config .stepEnd = done config trainer.phase := by rw [hphase]; rfl
    split_ifs with hregular
    · exact (h.originalSave .regular hdone.symm).congr hdone rfl rfl rfl
    · exact h.congr hdone rfl rfl rfl
  | stepEnd =>
    obtain ⟨hphase, rfl⟩ := (hdrains.step_stepEnd hfirst).mp hstep
    have hdone : done config trainer.phase = config.parameterSyncStep := by rw [hphase]; rfl
    have hspans : trainer.lineage.Spans config start (trainer.globalSteps + 1) :=
      spans_succ h.start_le (hdone ▸ h.trained_eq)
    have hsaved : ∀ checkpoint ∈ (if config.EarlySave trainer.globalSteps then
        trainer.originalSave .early else trainer).saved, start ≤ checkpoint.globalStep + 1 ∧
        checkpoint.lineage.Spans config start (checkpoint.globalStep + 1) := by
      split_ifs
      · exact (h.originalSave .early hdone).saved_spans
      · exact h.saved_spans
    have hlineage : (if config.EarlySave trainer.globalSteps then
        trainer.originalSave .early else trainer).lineage = trainer.lineage := by
      split_ifs <;> rfl
    refine ⟨h.start_le.trans (Nat.le_succ _), fun n => ?_, hsaved⟩
    rw [hlineage]
    exact (hspans n).trans (by simp [done])
  | kill =>
    cases hstep
    exact spanned_launch h.saved_spans

end step

/-- **Every row is trained exactly once.** Whatever the settings, the sampler's choices, the kills
and the resumes: the lineage of a checkpoint is the steps up to it, each with one whole batch, and
the rows its position has passed were all trained or dropped on the way to it; and so it is with
the steps and the rows of the final run, once its last step is over. -/
theorem resume_trains_exactly_once (config : Config) (cls : TrainerClass) (start : ℕ)
    (trainer : Trainer)
    (hinstall : installCheckpointSafePrefetch config {} = (cls, .ok ()))
    (hprefetch : cls.prefetch = true)
    (hreaches : Reaches (step config cls start) (launch start none) trainer) :
    (∀ checkpoint ∈ trainer.saved,
      checkpoint.lineage.Spans config start (checkpoint.globalStep + 1) ∧
      checkpoint.lineage.Settles checkpoint.position) ∧
    (trainer.phase = .ready → config.totalTrainingSteps < trainer.globalSteps →
      trainer.lineage.Spans config start trainer.globalSteps ∧
      trainer.lineage.Settles trainer.position) := by
  have hfirst := firstCheckpoint_iff_of_install hinstall hprefetch
  obtain ⟨hdrains, haccounts, hspanned⟩ :
      trainer.Drains config ∧ trainer.Accounts ∧ trainer.Spanned config start := by
    refine hreaches.invariant (P := fun t => t.Drains config ∧ t.Accounts ∧ t.Spanned config start)
      ⟨drains_launch none, accounts_launch (by simp), spanned_launch (by simp)⟩ ?_
    rintro t event u ⟨hdrains, haccounts, hspanned⟩ hstep
    exact ⟨hdrains.step hprefetch hfirst hstep, haccounts.step hfirst hdrains hstep,
      hspanned.step hfirst hdrains hstep⟩
  refine ⟨fun checkpoint hsaved => ⟨(hspanned.saved_spans _ hsaved).2,
    Lineage.settles_of_range_eq (haccounts.saved_eq _ hsaved)⟩, fun hphase hfinished => ⟨?_, ?_⟩⟩
  · intro n
    have htrained := hspanned.trained_eq n
    simpa only [hphase, done, Nat.zero_mul, ite_self, Nat.add_zero] using htrained
  · -- past the last step the lookahead has stopped, and the queue is empty
    have hboundary : config.Boundary (trainer.globalSteps - 1) := Or.inl (by omega)
    have hprefetched : trainer.batchPrefetched = false := by
      rw [← Bool.not_eq_true, (hdrains.at hphase).prefetched_iff]
      exact fun hahead => hahead.2 hboundary
    have hqueue : trainer.queue = 0 := by
      rw [← Multiset.card_eq_zero, (hdrains.at hphase).card_queue, hprefetched]
      simp [remaining]
    refine Lineage.settles_of_range_eq ?_
    have hrange := haccounts.range_eq
    rw [hphase, hqueue] at hrange
    simpa [inFlight] using hrange

/-- A process killed in its last step, with one batch prefetched and a part of it sampled, and the
process that resumes from its early checkpoint. -/
def killedDrill : List Event :=
  drillStep 0 1 ++ drillStep 2 3 ++ [.beginStep, .sample {5}, .kill] ++ drillStep 3 2 ++
    drillStep 4 5

theorem killedDrill_trains_exactly_once : ∃ trainer : Trainer,
    run (step drill ⟨true, true⟩ 1) (launch 1 none) killedDrill = some trainer ∧
      trainer.lineage.Spans drill 1 4 ∧ trainer.lineage.Settles 6 := by
  let weights : Lineage := { trained := {(1, 0), (1, 1), (2, 3), (2, 2), (3, 4), (3, 5)} }
  let after : Trainer :=
    { globalSteps := 4, position := 6, lineage := weights, saved := some ⟨3, 6, weights⟩
      startStep := 2, submitted := 2, saves := [(3, .regular)] }
  have hrun : run (step drill ⟨true, true⟩ 1) (launch 1 none) killedDrill = some after := by
    decide +kernel
  exact ⟨after, hrun, (resume_trains_exactly_once drill ⟨true, true⟩ 1 after rfl rfl
    (reaches_iff_run.mpr ⟨_, hrun⟩)).2 rfl (by decide)⟩

end Trainer

end Prefetch
