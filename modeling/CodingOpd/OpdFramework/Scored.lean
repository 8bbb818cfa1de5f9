import CodingOpd.OpdFramework.Enqueue

/-!
# What is written to TransferQueue

Whatever the order in which the calls of a worker, the Teacher's answers and cancellations take
turns, a call writes its session once at most, and with the labels that the Teacher gave for just
its tokens.

## Main definitions

* `Framework.Tracks`: what the log holds of a trajectory whose task has come so far
* `Framework.Labelled`: a trajectory that was scored exactly once, or kept as it came
* `Framework.Enqueued`: what holds of a call that has written

## Main results

* `Framework.accounted_of_run`: the invariant after every run
* `Framework.scores_of_run`: each trajectory is scored exactly once, or kept as it came
-/

open Python Transition Adaptive

namespace OpdFramework

variable {K E M : Type}

/-- A trajectory with labels in its two label fields, and nothing else of it changed. -/
structure SessionTrajectory.Carries (t' t : SessionTrajectory K E M) (labels : Labels K) :
    Prop where
  teacherIds : t'.teacherIds = some labels.teacherIds
  teacherLogprobs : t'.teacherLogprobs = some labels.teacherLogprobs
  promptIds : t'.promptIds = t.promptIds
  responseIds : t'.responseIds = t.responseIds
  responseMask : t'.responseMask = t.responseMask
  responseLogprobs : t'.responseLogprobs = t.responseLogprobs
  routedExperts : t'.routedExperts = t.routedExperts
  multiModalData : t'.multiModalData = t.multiModalData

namespace Framework

variable (f : Framework)

/-- What the log holds of the scoring of a trajectory. -/
def scoringOf (call index : ℕ) (log : List (Observation K E M)) : List (Observation K E M) :=
  log.filter fun observation => observation.IsScoring call index

/-- What the log holds of the write of a call. -/
def writesOf (call : ℕ) (log : List (Observation K E M)) : List (Observation K E M) :=
  log.filter fun observation => observation.IsWrite call

/-- A trajectory, its item and what is seen of its scoring. -/
inductive Tracks (args : WriteArgs K E M) (call index : ℕ) (t : SessionTrajectory K E M) :
    Item K E M → List (Observation K E M) → Prop
  | kept : f.scores args t = false → Tracks args call index t ⟨t, .kept⟩ []
  | waiting : f.scores args t = true → Tracks args call index t ⟨t, .waiting⟩ []
  | asked : f.scores args t = true →
    Tracks args call index t ⟨t, .asked⟩ [.asked call index (f.teacherArgs args t)]
  | scored {labels : Labels K} : f.scores args t = true →
    Tracks args call index t ⟨t.label labels, .scored labels⟩
      [.asked call index (f.teacherArgs args t), .answered call index (.ok labels)]
  | failed {error : PyError} : f.scores args t = true →
    Tracks args call index t ⟨t, .failed error⟩
      [.asked call index (f.teacherArgs args t), .answered call index (.error error)]
  | cancelled {seen : List (Observation K E M)} : f.scores args t = true →
    (∀ observation ∈ seen, ∃ request, observation = .asked call index request) →
    Tracks args call index t ⟨t, .cancelled⟩ seen

/-- What holds of a call and the log. -/
structure Tracked (call : ℕ) (w : Write K E M) (log : List (Observation K E M)) : Prop where
  length : w.items.length = w.args.trajectories.length
  outside : ∀ index, w.args.trajectories.length ≤ index → scoringOf call index log = []
  tracks : ∀ index t item, w.args.trajectories[index]? = some t → w.items[index]? = some item →
    f.Tracks w.args call index t item (scoringOf call index log)

/-- A task of the call has failed. -/
def HasFailed (w : Write K E M) : Prop :=
  ∃ (index : ℕ) (t : SessionTrajectory K E M) (error : PyError),
    w.items[index]? = some ⟨t, .failed error⟩

/-- `gather` knows of a task that has failed. -/
structure Gathers (w : Write K E M) (first : Option PyError) : Prop where
  hasFailed : first.isSome ↔ HasFailed w
  uncancelled : ∀ item ∈ w.items, item.scoring ≠ .cancelled

/-- What the log holds of the write of a call that has come so far. -/
inductive Wrote (call : ℕ) (w : Write K E M) : List (Observation K E M) → Prop
  | unwritten : (∀ first, w.phase = .scoring first → Gathers w first) → w.phase ≠ .written →
    Wrote call w []
  | written : w.phase = .written → (∀ item ∈ w.items, item.scoring.Returned) →
    Wrote call w [.written call w.args (w.items.map Item.trajectory)]

/-- What holds of a call, which may not have been made yet, and the log. -/
def Account (call : ℕ) (log : List (Observation K E M)) : Option (Write K E M) → Prop
  | none => (∀ index, scoringOf call index log = []) ∧ writesOf call log = []
  | some w => f.Tracked call w log ∧ Wrote call w (writesOf call log)

/-! ## One call -/

section

variable {f} {call index : ℕ} {w : Write K E M} {log seen : List (Observation K E M)}

theorem filter_append_other {p : Observation K E M → Bool}
    (hseen : ∀ observation ∈ seen, p observation = false) :
    (log ++ seen).filter p = log.filter p := by
  have hnone : seen.filter p = [] :=
    List.filter_eq_nil_iff.mpr fun observation hmem => Bool.eq_false_iff.mp (hseen observation hmem)
  rw [List.filter_append, hnone, List.append_nil]

theorem filter_append_own {p : Observation K E M → Bool} {observation : Observation K E M}
    (hown : p observation = true) :
    (log ++ [observation]).filter p = log.filter p ++ [observation] := by
  rw [List.filter_append, List.filter_cons_of_pos hown, List.filter_nil]

/-- What is seen of one call does not change the account of another. -/
theorem Account.frame {write : Option (Write K E M)} (h : f.Account call log write)
    (hscoring : ∀ index, ∀ observation ∈ seen, observation.IsScoring call index = false)
    (hwrite : ∀ observation ∈ seen, observation.IsWrite call = false) :
    f.Account call (log ++ seen) write := by
  have hwrites : writesOf call (log ++ seen) = writesOf call log := filter_append_other hwrite
  have hscorings : ∀ index, scoringOf call index (log ++ seen) = scoringOf call index log :=
    fun index => filter_append_other (hscoring index)
  cases write with
  | none => exact ⟨fun index => (hscorings index).trans (h.1 index), hwrites.trans h.2⟩
  | some w =>
    refine ⟨⟨h.1.length, fun index hle => ?_, fun index t item ht hitem => ?_⟩, hwrites ▸ h.2⟩
    · rw [hscorings]
      exact h.1.outside index hle
    · rw [hscorings]
      exact h.1.tracks index t item ht hitem

theorem tracks_item (args : WriteArgs K E M) (call index : ℕ) (t : SessionTrajectory K E M) :
    f.Tracks args call index t (f.item args t) [] := by
  unfold item
  cases hscores : f.scores args t with
  | true => exact .waiting hscores
  | false => exact .kept hscores

/-- A call begins. -/
theorem Account.enter (h : f.Account call log none) (args : WriteArgs K E M) :
    f.Account call log (some (f.enter args)) := by
  refine ⟨⟨List.length_map _, fun index _ => h.1 index, fun index t item ht hitem => ?_⟩, ?_⟩
  · have hmap : (args.trajectories.map (f.item args))[index]? = some item := hitem
    rw [List.getElem?_map, show args.trajectories[index]? = some t from ht] at hmap
    cases hmap
    rw [h.1 index]
    exact tracks_item args call index t
  · rw [h.2]
    have hitem : ∀ t, (f.item args t).scoring = .waiting ∨ (f.item args t).scoring = .kept :=
      fun t => by
        dsimp only [item]
        split_ifs
        · exact .inl rfl
        · exact .inr rfl
    refine .unwritten (fun first hfirst => ⟨?_, fun item hmem hcancelled => ?_⟩) nofun
    · cases hfirst
      refine iff_of_false Bool.false_ne_true ?_
      rintro ⟨index, t, error, hfailed⟩
      have hmap : (args.trajectories.map (f.item args))[index]? = some ⟨t, .failed error⟩ :=
        hfailed
      rw [List.getElem?_map] at hmap
      obtain ⟨trajectory, -, heq⟩ := Option.map_eq_some_iff.mp hmap
      have hscoring := hitem trajectory
      rw [heq] at hscoring
      rcases hscoring with hscoring | hscoring <;> cases hscoring
    · obtain ⟨trajectory, -, rfl⟩ := List.mem_map.mp hmem
      rcases hitem trajectory with hscoring | hscoring <;> cases hscoring.symm.trans hcancelled

/-- A task of a call goes on. -/
theorem Tracked.setItem (h : f.Tracked call w log) {phase : Phase} {item next : Item K E M}
    {observation : Observation K E M} (hitem : w.items[index]? = some item)
    (hown : ∀ other, observation.IsScoring call other = (index == other))
    (hnext : ∀ t, f.Tracks w.args call index t item (scoringOf call index log) →
      f.Tracks w.args call index t next (scoringOf call index log ++ [observation])) :
    f.Tracked call { w with items := w.items.set index next, phase := phase }
      (log ++ [observation]) := by
  have hlt : index < w.items.length := (List.getElem?_eq_some_iff.mp hitem).1
  have hother : ∀ other, index ≠ other →
      scoringOf call other (log ++ [observation]) = scoringOf call other log := fun other hne => by
    refine filter_append_other fun observation' hmem => ?_
    rw [List.mem_singleton.mp hmem, hown]
    exact beq_eq_false_iff_ne.mpr hne
  refine ⟨List.length_set.trans h.length, fun other hle => ?_, fun other t seen ht hseen => ?_⟩
  · have hne : index ≠ other := (hlt.trans_le (h.length ▸ hle)).ne
    exact (hother other hne).trans (h.outside other hle)
  have hset : (w.items.set index next)[other]? = some seen := hseen
  rcases eq_or_ne index other with rfl | hne
  · rw [List.getElem?_set_self hlt] at hset
    cases hset
    have happend : scoringOf call index (log ++ [observation]) =
        scoringOf call index log ++ [observation] :=
      filter_append_own ((hown index).trans (beq_self_eq_true index))
    rw [happend]
    exact hnext t (h.tracks index t item ht hitem)
  · rw [List.getElem?_set_ne hne] at hset
    rw [hother other hne]
    exact h.tracks other t seen ht hset

/-- The tasks of a call that was written have returned. -/
theorem Wrote.unwritten_of (h : Wrote call w (writesOf call log)) {t : SessionTrajectory K E M}
    {scoring : Scoring K} (hitem : w.items[index]? = some ⟨t, scoring⟩)
    (hreturned : ¬ scoring.Returned) :
    writesOf call log = [] ∧ w.phase ≠ .written ∧
      ∀ first, w.phase = .scoring first → Gathers w first := by
  generalize hlog : writesOf call log = writes at h
  cases h with
  | unwritten hgathers hphase => exact ⟨rfl, hphase, hgathers⟩
  | written _ hall =>
    obtain ⟨hlt, heq⟩ := List.getElem?_eq_some_iff.mp hitem
    have hmem : (⟨t, scoring⟩ : Item K E M) ∈ w.items := heq ▸ List.getElem_mem hlt
    exact absurd (hall _ hmem) hreturned

/-- A task that has not failed goes on. -/
theorem hasFailed_set {t t' : SessionTrajectory K E M} {scoring next : Scoring K} {phase : Phase}
    (hitem : w.items[index]? = some ⟨t, scoring⟩) (hold : ∀ error, scoring ≠ .failed error) :
    HasFailed { w with items := w.items.set index ⟨t', next⟩, phase := phase } ↔
      (∃ error, next = .failed error) ∨ HasFailed w := by
  have hlt : index < w.items.length := (List.getElem?_eq_some_iff.mp hitem).1
  constructor
  · rintro ⟨other, trajectory, error, hother⟩
    have hset : (w.items.set index ⟨t', next⟩)[other]? = some ⟨trajectory, .failed error⟩ := hother
    rcases eq_or_ne index other with rfl | hne
    · rw [List.getElem?_set_self hlt] at hset
      exact .inl ⟨error, congrArg Item.scoring (Option.some_inj.mp hset)⟩
    · rw [List.getElem?_set_ne hne] at hset
      exact .inr ⟨other, trajectory, error, hset⟩
  · rintro (⟨error, rfl⟩ | ⟨other, trajectory, error, hother⟩)
    · exact ⟨index, t', error, List.getElem?_set_self hlt⟩
    · have hne : index ≠ other := by
        rintro rfl
        rw [hitem] at hother
        exact hold error (congrArg Item.scoring (Option.some_inj.mp hother))
      exact ⟨other, trajectory, error, (List.getElem?_set_ne hne).trans hother⟩

/-- A task is started. -/
theorem Account.ask (h : f.Account call log (some w)) {t : SessionTrajectory K E M}
    (hitem : w.items[index]? = some ⟨t, .waiting⟩) :
    f.Account call (log ++ [.asked call index (f.teacherArgs w.args t)])
      (some (w.setItem index ⟨t, .asked⟩)) := by
  obtain ⟨hwrites, hphase, hgathers⟩ := h.2.unwritten_of hitem id
  refine ⟨h.1.setItem hitem (fun other => ?_) fun trajectory htracks => ?_, ?_⟩
  · exact Bool.and_eq_right_iff_imp.mpr fun _ => beq_self_eq_true call
  · generalize scoringOf call index log = seen at htracks ⊢
    cases htracks with
    | waiting hscores => exact .asked hscores
  · have hother : writesOf call (log ++ [.asked call index (f.teacherArgs w.args t)]) = [] :=
      (filter_append_other fun _ hmem => List.mem_singleton.mp hmem ▸ rfl).trans hwrites
    rw [hother]
    refine .unwritten (fun first hfirst => ⟨?_, fun item hmem => ?_⟩) hphase
    · refine (hgathers first hfirst).hasFailed.trans ((hasFailed_set hitem nofun).trans ?_).symm
      exact or_iff_right fun ⟨_, hfailed⟩ => nomatch hfailed
    · rcases List.mem_or_eq_of_mem_set hmem with hmem | rfl
      · exact (hgathers first hfirst).uncancelled item hmem
      · exact nofun

/-- The Teacher answers. -/
theorem Account.answer (h : f.Account call log (some w)) {t : SessionTrajectory K E M}
    (hitem : w.items[index]? = some ⟨t, .asked⟩) (result : Except PyError (Labels K)) :
    f.Account call (log ++ [.answered call index result])
      (some (Framework.answer w index ⟨t, .asked⟩ result)) := by
  obtain ⟨hwrites, hphase, hgathers⟩ := h.2.unwritten_of hitem id
  have hown : ∀ other, (Observation.answered call index result : Observation K E M).IsScoring call
      other = (index == other) := fun other =>
    Bool.and_eq_right_iff_imp.mpr fun _ => beq_self_eq_true call
  have hother : writesOf call (log ++ [.answered call index result]) = [] :=
    (filter_append_other fun _ hmem => List.mem_singleton.mp hmem ▸ rfl).trans hwrites
  have htracked : ∀ phase, f.Tracked call
      { w with items := w.items.set index (answered ⟨t, .asked⟩ result), phase := phase }
      (log ++ [.answered call index result]) := fun phase => by
    refine h.1.setItem hitem hown fun trajectory htracks => ?_
    generalize scoringOf call index log = seen at htracks ⊢
    cases htracks with
    | asked hscores =>
      cases result with
      | ok labels => exact .scored hscores
      | error error => exact .failed hscores
  cases result with
  | ok labels =>
    refine ⟨htracked w.phase, ?_⟩
    rw [hother]
    refine .unwritten (fun first hfirst => ⟨?_, fun item hmem => ?_⟩) hphase
    · refine (hgathers first hfirst).hasFailed.trans ((hasFailed_set hitem nofun).trans ?_).symm
      exact or_iff_right fun ⟨_, hfailed⟩ => nomatch hfailed
    · rcases List.mem_or_eq_of_mem_set hmem with hmem | rfl
      · exact (hgathers first hfirst).uncancelled item hmem
      · exact nofun
  | error error =>
    refine ⟨htracked _, ?_⟩
    rw [hother]
    refine .unwritten (fun first hfirst => ?_) (Phase.fail_ne_written hphase)
    obtain ⟨hsome, old, hold⟩ := Phase.of_fail_eq_scoring hfirst
    refine ⟨iff_of_true hsome ((hasFailed_set hitem nofun).mpr (.inl ⟨error, rfl⟩)),
      fun item hmem => ?_⟩
    rcases List.mem_or_eq_of_mem_set hmem with hmem | rfl
    · exact (hgathers old hold).uncancelled item hmem
    · exact nofun

/-- A call that is being scored is not written yet. -/
theorem Wrote.eq_nil {writes : List (Observation K E M)} (h : Wrote call w writes)
    {first : Option PyError} (hphase : w.phase = .scoring first) : writes = [] := by
  cases h with
  | unwritten => rfl
  | written hwritten => cases hphase.symm.trans hwritten

/-- A call is written. -/
theorem Account.write {args : WriteArgs K E M} {items : List (Item K E M)}
    (h : f.Account call log (some ⟨args, items, .scoring none⟩))
    (hreturned : ∀ item ∈ items, item.scoring.Returned) :
    f.Account call (log ++ [.written call args (items.map Item.trajectory)])
      (some ⟨args, items, .written⟩) := by
  have hscoring : ∀ index, scoringOf call index
      (log ++ [.written call args (items.map Item.trajectory)]) = scoringOf call index log :=
    fun index => filter_append_other fun _ hmem => List.mem_singleton.mp hmem ▸ rfl
  refine ⟨⟨h.1.length, fun index hle => ?_, fun index t item ht hitem => ?_⟩, ?_⟩
  · exact (hscoring index).trans (h.1.outside index hle)
  · rw [hscoring]
    exact h.1.tracks index t item ht hitem
  · have hown : writesOf call (log ++ [.written call args (items.map Item.trajectory)]) =
        writesOf call log ++ [.written call args (items.map Item.trajectory)] :=
      filter_append_own (beq_self_eq_true call)
    rw [hown, h.2.eq_nil rfl]
    exact .written rfl hreturned

/-- A call that is not written ends. -/
theorem Account.stop {args : WriteArgs K E M} {items : List (Item K E M)} {first : Option PyError}
    {phase : Phase} (h : f.Account call log (some ⟨args, items, .scoring first⟩))
    (hscoring : ∀ first, phase ≠ .scoring first) (hwritten : phase ≠ .written) :
    f.Account call log (some ⟨args, items, phase⟩) := by
  refine ⟨⟨h.1.length, h.1.outside, h.1.tracks⟩, ?_⟩
  rw [h.2.eq_nil rfl]
  exact .unwritten (fun first hfirst => absurd hfirst (hscoring first)) hwritten

/-- The tasks of a call are cancelled. -/
theorem Tracks.cancel {args : WriteArgs K E M} {t : SessionTrajectory K E M} {item : Item K E M}
    {seen : List (Observation K E M)} (h : f.Tracks args call index t item seen) :
    f.Tracks args call index t { item with scoring := item.scoring.cancel } seen := by
  cases h with
  | kept hscores => exact .kept hscores
  | waiting hscores => exact .cancelled hscores nofun
  | asked hscores =>
    exact .cancelled hscores fun observation hmem => ⟨_, List.mem_singleton.mp hmem⟩
  | scored hscores => exact .scored hscores
  | failed hscores => exact .failed hscores
  | cancelled hscores hseen => exact .cancelled hscores hseen

theorem Account.cancel {args : WriteArgs K E M} {items : List (Item K E M)}
    {first : Option PyError} (h : f.Account call log (some ⟨args, items, .scoring first⟩)) :
    f.Account call log (some (Framework.cancel ⟨args, items, .scoring first⟩ first)) := by
  cases first with
  | some error => exact h.stop nofun nofun
  | none =>
    refine ⟨⟨(List.length_map _).trans h.1.length, h.1.outside, fun index t item ht hitem => ?_⟩,
      ?_⟩
    · have hmap : (items.map fun item => ({ item with scoring := item.scoring.cancel } :
          Item K E M))[index]? = some item := hitem
      rw [List.getElem?_map] at hmap
      obtain ⟨old, hold, rfl⟩ := Option.map_eq_some_iff.mp hmap
      exact (h.1.tracks index t old ht hold).cancel
    · rw [h.2.eq_nil rfl]
      exact .unwritten nofun nofun

end

/-! ## Every run -/

/-- **The invariant** of the events so far and the worker. -/
structure Accounted (events : List (Event K E M)) (s : Worker K E M) : Prop where
  account : ∀ call, f.Account call s.log (s.writes call)
  entered : ∀ call w, s.writes call = some w → .enter call w.args ∈ events

section

variable {f} {events : List (Event K E M)} {s t : Worker K E M}

theorem accounted_start : f.Accounted [] (Worker.start : Worker K E M) :=
  ⟨fun _ => ⟨fun _ => rfl, rfl⟩, nofun⟩

theorem isScoring_eq_false {observation : Observation K E M} {call : ℕ}
    (h : observation.call ≠ call) (index : ℕ) : observation.IsScoring call index = false := by
  cases observation with
  | asked | answered => exact Bool.and_eq_false_iff.mpr (.inl (beq_eq_false_iff_ne.mpr h))
  | written => rfl

theorem isWrite_eq_false {observation : Observation K E M} {call : ℕ}
    (h : observation.call ≠ call) : observation.IsWrite call = false := by
  cases observation with
  | asked | answered => rfl
  | written => exact beq_eq_false_iff_ne.mpr h

/-- An event of one call leaves the accounts of the others. -/
theorem Accounted.set (h : f.Accounted events s) {event : Event K E M} {call : ℕ}
    {w : Write K E M} {seen : List (Observation K E M)}
    (hseen : ∀ observation ∈ seen, observation.call = call)
    (hown : f.Account call (s.log ++ seen) (some w))
    (hentered : .enter call w.args ∈ events ++ [event]) :
    f.Accounted (events ++ [event])
      ⟨Function.update s.writes call (some w), s.log ++ seen⟩ := by
  refine ⟨fun other => ?_, fun other w' hw' => ?_⟩
  · show f.Account other (s.log ++ seen) (Function.update s.writes call (some w) other)
    rcases eq_or_ne other call with rfl | hne
    · rwa [Function.update_self]
    · rw [Function.update_of_ne hne]
      have hcall : ∀ observation ∈ seen, observation.call ≠ other := fun observation hmem =>
        hseen observation hmem ▸ hne.symm
      exact (h.account other).frame
        (fun index observation hmem => isScoring_eq_false (hcall observation hmem) index)
        fun observation hmem => isWrite_eq_false (hcall observation hmem)
  · have hupdate : Function.update s.writes call (some w) other = some w' := hw'
    rcases eq_or_ne other call with rfl | hne
    · rw [Function.update_self] at hupdate
      cases hupdate
      exact hentered
    · rw [Function.update_of_ne hne] at hupdate
      exact List.mem_append_left _ (h.entered other w' hupdate)

/-- A call goes on, and something is seen of it. -/
theorem Accounted.observe (h : f.Accounted events s) {event : Event K E M} {call : ℕ}
    {old w : Write K E M} {observation : Observation K E M} (hw : s.writes call = some old)
    (hargs : w.args = old.args) (hcall : observation.call = call)
    (hown : f.Account call (s.log ++ [observation]) (some w)) :
    f.Accounted (events ++ [event]) ((s.setWrite call w).observe observation) := by
  refine h.set (fun other hmem => List.mem_singleton.mp hmem ▸ hcall) hown ?_
  rw [hargs]
  exact List.mem_append_left _ (h.entered call old hw)

/-- A call goes on, and nothing is seen of it. -/
theorem Accounted.silent (h : f.Accounted events s) {event : Event K E M} {call : ℕ}
    {w : Write K E M} (hown : f.Account call s.log (some w))
    (hentered : .enter call w.args ∈ events ++ [event]) :
    f.Accounted (events ++ [event]) (s.setWrite call w) := by
  have hsilent : s.log ++ [] = s.log := List.append_nil _
  have hset : f.Accounted (events ++ [event])
      ⟨Function.update s.writes call (some w), s.log ++ []⟩ :=
    h.set nofun (hsilent.symm ▸ hown) hentered
  rwa [hsilent] at hset

theorem Accounted.step (h : f.Accounted events s) {event : Event K E M}
    (hstep : f.step s event = some t) : f.Accounted (events ++ [event]) t := by
  have haccount : ∀ {call : ℕ} {write : Option (Write K E M)}, s.writes call = write →
      f.Account call s.log write := fun {call _} hwrite => hwrite ▸ h.account call
  cases f.move_of_step hstep with
  | enter hnone =>
    exact h.silent ((haccount hnone).enter _) (List.mem_append_right _ List.mem_cons_self)
  | ask hw hitem => exact h.observe hw rfl rfl ((haccount hw).ask hitem)
  | @answer call index w trajectory result hw hitem =>
    refine h.observe hw ?_ rfl ((haccount hw).answer hitem result)
    cases result <;> rfl
  | write hw hreturned => exact h.observe hw rfl rfl ((haccount hw).write hreturned)
  | raise hw =>
    have hentered := h.entered _ _ hw
    exact h.silent ((haccount hw).stop nofun nofun) (List.mem_append_left _ hentered)
  | cancel hw =>
    have hentered := h.entered _ _ hw
    exact h.silent (haccount hw).cancel (List.mem_append_left _ hentered)

theorem accounted_of_run (hrun : run f.step Worker.start events = some s) :
    f.Accounted events s :=
  run_invariant hrun accounted_start fun _ _ _ _ h hstep => h.step hstep

end

/-! ## What was written -/

/-- A trajectory as it came and as it was written, and what was seen of its scoring: it was scored
exactly once, for its own tokens and routing key, or kept as it came. -/
def Labelled (args : WriteArgs K E M) (call index : ℕ) (t t' : SessionTrajectory K E M)
    (seen : List (Observation K E M)) : Prop :=
  (f.distillationEnabled ∧ args.partitionId ≠ "val" ∧ t.teacherLogprobs.isNone →
    ∃ labels : Labels K,
      t'.Carries t labels ∧
      seen = [
        .asked call index {
          sequenceIds := t.promptIds ++ t.responseIds
          multiModalData := t.multiModalData
          routingKey :=
            asPythonScalar (f.teacherKey.bind fun key => args.sampleFields.lookup key) },
        .answered call index (.ok labels)]) ∧
  (¬ (f.distillationEnabled ∧ args.partitionId ≠ "val" ∧ t.teacherLogprobs.isNone) →
    t' = t ∧ seen = [])

/-- A call that has written its trajectories. -/
structure Enqueued (events : List (Event K E M)) (log : List (Observation K E M)) (call : ℕ)
    (args : WriteArgs K E M) (ts : List (SessionTrajectory K E M)) : Prop where
  entered : .enter call args ∈ events
  once : writesOf call log = [.written call args ts]
  length : ts.length = args.trajectories.length
  labelled : ∀ index t t', args.trajectories[index]? = some t → ts[index]? = some t' →
    f.Labelled args call index t t' (scoringOf call index log)
  outside : ∀ index, args.trajectories.length ≤ index → scoringOf call index log = []

/-- No task of the worker has anything to do but wait for the Teacher, and the Teacher has
answered. -/
structure Settled (s : Worker K E M) : Prop where
  ask : ∀ call index, f.step s (.ask call index) = none
  write : ∀ call, f.step s (.write call) = none
  raise : ∀ call, f.step s (.raise call) = none
  answered : ∀ call w, s.writes call = some w → ∀ item ∈ w.items, ¬ item.scoring matches .asked

/-- What the worker promises of each call. The trajectories of an adaptive session have the labels
of its turns, and the Teacher is not asked for them again. -/
structure Scores [Field K] [LinearOrder K] (events : List (Event K E M)) (s : Worker K E M) :
    Prop where
  enqueued : ∀ call args ts, .written call args ts ∈ s.log →
    f.Enqueued events s.log call args ts
  failed : ∀ call index error, .answered call index (.error error) ∈ s.log →
    writesOf call s.log = []
  ended : f.Settled s → ∀ call w, s.writes call = some w → ∀ first, w.phase ≠ .scoring first
  adaptive : ∀ call args ts, .written call args ts ∈ s.log →
    ∀ (session : AdaptiveSession K) (finished : List (Trajectory K E)),
    session.attach finished = .ok (args.trajectories.map SessionTrajectory.toTrajectory) →
    ts = args.trajectories ∧ ∀ index, scoringOf call index s.log = []

section

variable {f} {events : List (Event K E M)} {s : Worker K E M} {call : ℕ}

theorem scores_iff {args : WriteArgs K E M} {t : SessionTrajectory K E M} :
    f.scores args t = true ↔
      f.distillationEnabled ∧ args.partitionId ≠ "val" ∧ t.teacherLogprobs.isNone := by
  simp only [scores, Bool.and_eq_true, bne_iff_ne, ne_eq, and_assoc]

theorem Tracks.labelled {args : WriteArgs K E M} {index : ℕ} {t : SessionTrajectory K E M}
    {item : Item K E M} {seen : List (Observation K E M)}
    (h : f.Tracks args call index t item seen) (hreturned : item.scoring.Returned) :
    f.Labelled args call index t item.trajectory seen := by
  cases h with
  | kept hscores =>
    have hunscored := scores_iff.not.mp (Bool.eq_false_iff.mp hscores)
    exact ⟨fun hscored => absurd hscored hunscored, fun _ => ⟨rfl, rfl⟩⟩
  | scored hscores =>
    have hscored := scores_iff.mp hscores
    exact ⟨fun _ => ⟨_, ⟨rfl, rfl, rfl, rfl, rfl, rfl, rfl, rfl⟩, rfl⟩,
      fun hunscored => absurd hscored hunscored⟩
  | waiting | asked | failed | cancelled => exact hreturned.elim

theorem Accounted.enqueued (h : f.Accounted events s) {args : WriteArgs K E M}
    {ts : List (SessionTrajectory K E M)} (hmem : .written call args ts ∈ s.log) :
    f.Enqueued events s.log call args ts := by
  have hwrites : .written call args ts ∈ writesOf call s.log :=
    List.mem_filter.mpr ⟨hmem, beq_self_eq_true call⟩
  have haccount := h.account call
  cases hw : s.writes call with
  | none =>
    rw [hw] at haccount
    rw [haccount.2] at hwrites
    cases hwrites
  | some w =>
    rw [hw] at haccount
    obtain ⟨htracked, hwrote⟩ := haccount
    generalize heq : writesOf call s.log = writes at hwrote hwrites
    cases hwrote with
    | unwritten => cases hwrites
    | written hphase hall =>
      cases List.mem_singleton.mp hwrites
      refine ⟨h.entered call w hw, heq, (List.length_map _).trans htracked.length,
        fun index t t' ht ht' => ?_, htracked.outside⟩
      rw [List.getElem?_map] at ht'
      obtain ⟨item, hitem, rfl⟩ := Option.map_eq_some_iff.mp ht'
      exact (htracked.tracks index t item ht hitem).labelled
        (hall item (List.mem_of_getElem? hitem))

/-- The item whose Teacher's answer was an error. -/
theorem Tracks.failed_of_mem {args : WriteArgs K E M} {index : ℕ} {t : SessionTrajectory K E M}
    {item : Item K E M} {seen : List (Observation K E M)} {error : PyError}
    (h : f.Tracks args call index t item seen) (hmem : .answered call index (.error error) ∈ seen) :
    item = ⟨t, .failed error⟩ := by
  cases h with
  | kept | waiting => cases hmem
  | asked => cases List.mem_singleton.mp hmem
  | scored =>
    rcases List.mem_pair.mp hmem with hmem | hmem <;> cases hmem
  | failed =>
    rcases List.mem_pair.mp hmem with hmem | hmem <;> cases hmem
    rfl
  | cancelled _ hseen =>
    obtain ⟨request, heq⟩ := hseen _ hmem
    cases heq

/-- Where the Teacher fails, nothing is written. -/
theorem Accounted.failed (h : f.Accounted events s) {index : ℕ} {error : PyError}
    (hmem : .answered call index (.error error) ∈ s.log) : writesOf call s.log = [] := by
  have hseen : .answered call index (.error error) ∈ scoringOf call index s.log := by
    refine List.mem_filter.mpr ⟨hmem, Bool.and_eq_true_iff.mpr ⟨?_, ?_⟩⟩
    · exact beq_self_eq_true call
    · exact beq_self_eq_true index
  have haccount := h.account call
  cases hw : s.writes call with
  | none =>
    rw [hw] at haccount
    rw [haccount.1] at hseen
    cases hseen
  | some w =>
    rw [hw] at haccount
    obtain ⟨htracked, hwrote⟩ := haccount
    have hlt : index < w.args.trajectories.length := by
      by_contra hle
      rw [htracked.outside index (not_lt.mp hle)] at hseen
      cases hseen
    have ht := List.getElem?_eq_getElem hlt
    have hitem := List.getElem?_eq_getElem (htracked.length.symm ▸ hlt : index < w.items.length)
    rw [(htracked.tracks index _ _ ht hitem).failed_of_mem hseen] at hitem
    exact (hwrote.unwritten_of hitem id).1

/-- A call that the Teacher has answered comes to its end. -/
theorem Accounted.ended (h : f.Accounted events s) (hsettled : f.Settled s) {w : Write K E M}
    (hw : s.writes call = some w) (first : Option PyError) : w.phase ≠ .scoring first := by
  intro hphase
  have haccount := h.account call
  rw [hw] at haccount
  obtain ⟨htracked, hwrote⟩ := haccount
  obtain ⟨args, items, phase⟩ := w
  cases hphase
  have hgathers : Gathers ⟨args, items, .scoring first⟩ first := by
    generalize writesOf call s.log = writes at hwrote
    cases hwrote with
    | unwritten hgathers => exact hgathers first rfl
    | written hwritten => cases hwritten
  cases first with
  | some error =>
    have hraise := hsettled.raise call
    simp only [Framework.step, hw, reduceCtorEq] at hraise
  | none =>
    have hreturned : ∀ item ∈ items, item.scoring.Returned := fun item hmem => by
      obtain ⟨index, hlt, rfl⟩ := List.mem_iff_getElem.mp hmem
      have hitem := List.getElem?_eq_getElem hlt
      generalize items[index] = item at hmem hitem ⊢
      obtain ⟨t, scoring⟩ := item
      cases scoring with
      | kept | scored => trivial
      | waiting =>
        have hask := hsettled.ask call index
        simp only [Framework.step, hw, hitem, reduceCtorEq] at hask
      | asked => exact absurd rfl (hsettled.answered call _ hw _ hmem)
      | failed error =>
        exact absurd (hgathers.hasFailed.mpr ⟨index, t, error, hitem⟩) Bool.false_ne_true
      | cancelled => exact absurd rfl (hgathers.uncancelled _ hmem)
    have hwrite := hsettled.write call
    simp only [Framework.step, hw] at hwrite
    rw [if_pos hreturned] at hwrite
    cases hwrite

/-- A session without trajectories to score is written as it came. -/
theorem Enqueued.eq_of_unscored {log : List (Observation K E M)} {args : WriteArgs K E M}
    {ts : List (SessionTrajectory K E M)} (h : f.Enqueued events log call args ts)
    (hunscored : ∀ t ∈ args.trajectories, f.scores args t = false) :
    ts = args.trajectories ∧ ∀ index, scoringOf call index log = [] := by
  have hkept : ∀ index (hlt : index < ts.length) (hlt' : index < args.trajectories.length),
      ts[index] = args.trajectories[index] ∧ scoringOf call index log = [] :=
    fun index hlt hlt' => by
      have hlabelled := h.labelled index _ _ (List.getElem?_eq_getElem hlt')
        (List.getElem?_eq_getElem hlt)
      have hscores := Bool.eq_false_iff.mp (hunscored _ (List.getElem_mem hlt'))
      exact hlabelled.2 (scores_iff.not.mp hscores)
  refine ⟨List.ext_getElem h.length fun index hlt hlt' => (hkept index hlt hlt').1,
    fun index => ?_⟩
  rcases lt_or_ge index args.trajectories.length with hlt | hle
  · exact (hkept index (h.length.symm ▸ hlt) hlt).2
  · exact h.outside index hle

/-- `attach` gives labels to every trajectory that it retains. -/
theorem scores_of_attach [Field K] [LinearOrder K] {args : WriteArgs K E M}
    {session : AdaptiveSession K} {finished : List (Trajectory K E)}
    (h : session.attach finished =
      .ok (args.trajectories.map SessionTrajectory.toTrajectory)) :
    ∀ t ∈ args.trajectories, f.scores args t = false := by
  intro t hmem
  obtain ⟨kept, hkept, hout⟩ := AdaptiveSession.attach_eq_ok_iff.mp h
  have hin : t.toTrajectory ∈ kept.reduceOption :=
    hout ▸ List.mem_map_of_mem hmem
  obtain ⟨original, -, hone⟩ :=
    exists_of_forall₂_right hkept _ (List.reduceOption_mem_iff.mp hin)
  obtain ⟨-, p, -, -, hcrop⟩ := AdaptiveSession.attachOne_eq_ok_some_iff.mp hone
  have hlabels : t.teacherLogprobs.isNone = false := by rw [hcrop]; rfl
  rw [scores, hlabels, Bool.and_false]

/-- **Every call scores its trajectories before it writes them**, whatever the order of events. -/
theorem scores_of_run [Field K] [LinearOrder K] (h : run f.step Worker.start events = some s) :
    f.Scores events s where
  enqueued _ _ _ hmem := (accounted_of_run h).enqueued hmem
  failed _ _ _ hmem := (accounted_of_run h).failed hmem
  ended hsettled _ _ hw first := (accounted_of_run h).ended hsettled hw first
  adaptive _ _ _ hmem _ _ hattach :=
    ((accounted_of_run h).enqueued hmem).eq_of_unscored (scores_of_attach hattach)

/-- A trajectory with one token of prompt and one of response. -/
def shortTrajectory (token : Token) (labels : Option (List (List (PyFloat ℚ)))) :
    SessionTrajectory ℚ Unit Unit where
  promptIds := [1]
  responseIds := [token]
  responseMask := [1]
  teacherLogprobs := labels
  mask_length := rfl
  multiModalData := ()

/-- A session with one trajectory that has labels and one that has none. -/
def halfScored : WriteArgs ℚ Unit Unit where
  uid := "u"
  sessionIndex := 0
  trajectories := [shortTrajectory 2 (some [[.finite 0]]), shortTrajectory 3 none]
  sampleFields := [("data_source", .python (.str ['r', '2', 'e']))]
  globalSteps := none
  partitionId := "train"

theorem scores_of_half_scored : ∃ s : Worker ℚ Unit Unit,
    run (Framework.mk true (some "data_source") rfl).step Worker.start
      [.enter 0 halfScored, .ask 0 1, .answer 0 1 (.ok ⟨[[3], [0]], [[.finite 1], [.finite 0]]⟩),
        .write 0] = some s ∧
      writesOf 0 s.log = [.written 0 halfScored
        [shortTrajectory 2 (some [[.finite 0]]),
          { shortTrajectory 3 (some [[.finite 1], [.finite 0]]) with
            teacherIds := some [[3], [0]] }]] ∧
      scoringOf 0 0 s.log = [] ∧
      scoringOf 0 1 s.log =
        [.asked 0 1 ⟨[1, 3], (), some (.str ['r', '2', 'e'])⟩,
          .answered 0 1 (.ok ⟨[[3], [0]], [[.finite 1], [.finite 0]]⟩)] ∧
      (Framework.mk true (some "data_source") rfl).Scores
        [.enter 0 halfScored, .ask 0 1,
          .answer 0 1 (.ok ⟨[[3], [0]], [[.finite 1], [.finite 0]]⟩), .write 0] s :=
  ⟨_, rfl, rfl, rfl, rfl, scores_of_run rfl⟩

end

end Framework

end OpdFramework
