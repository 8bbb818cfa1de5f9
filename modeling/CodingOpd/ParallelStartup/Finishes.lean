import CodingOpd.ParallelStartup.Settled

/-!
# The startup comes to an end

Behind upstream's set-up the main thread waits for the last Teacher, for the Teachers' thread, for
the rollout and for its thread. Nothing is waited for that cannot come: where no thread can go on,
`_setup` has ended, and until then only so many steps are left.

## Main definitions

* `State.left`: the steps that are left behind upstream's set-up, at most

## Main results

* `finishes_of_run`: behind upstream's set-up, `_setup` ends once the services have
-/

open Python Transition

namespace ParallelStartup

variable {C T D S O : Type}

/-- What a thread does on the way: upstream's set-up, or a change to a configuration of its own. -/
def Event.IsWork : Event C T D S → Prop
  | .upstream _ | .teacherConfigures _ | .standaloneConfigures _ => True
  | _ => False

instance : DecidablePred (Event.IsWork (C := C) (T := T) (D := D) (S := S)) := fun e =>
  match e with
  | .upstream _ | .teacherConfigures _ | .standaloneConfigures _ => .isTrue trivial
  | .upstreamEnds _ | .teacherResult | .convert _ | .teacherShutdown | .standaloneResult
  | .standaloneShutdown | .wire _ | .teacherEnds _ | .standaloneEnds _ => .isFalse id

/-- The steps of the main thread that are left behind upstream's set-up, at most. -/
def Phase.left : Phase S → ℕ
  | .upstream => 9
  | .teacherResult _ => 8
  | .convert => 7
  | .teacherShutdown _ => 6
  | .standaloneResult => 5
  | .standaloneShutdown _ => 4
  | .wiring .prometheus => 3
  | .wiring .checkpointEngine => 2
  | .wiring .balancer => 1
  | .done _ => 0

/-- The steps that are left behind upstream's set-up, at most: those of the main thread, and the
ends of the services. -/
def State.left (s : State C T D S O) : ℕ :=
  s.phase.left + (s.jobs.length - s.futures.length) + if s.standalone.isSome then 0 else 1

/-- A step of the main thread takes it closer to its end. -/
theorem State.left_lt_of_phase {s t : State C T D S O} (hjobs : t.jobs = s.jobs)
    (hfutures : t.futures = s.futures) (hstandalone : t.standalone = s.standalone)
    (hphase : t.phase.left < s.phase.left) : t.left < s.left := by
  unfold State.left
  rw [hjobs, hfutures, hstandalone]
  omega

/-- Behind upstream's set-up, every step but a thread's own work leaves fewer of them. -/
theorem left_lt_of_step {s t : State C T D S O} {e : Event C T D S} (hphase : s.phase ≠ .upstream)
    (hwork : ¬ e.IsWork) (hstep : step s e = some t) : t.phase ≠ .upstream ∧ t.left < s.left := by
  cases e with
  | upstream | teacherConfigures | standaloneConfigures => exact absurd trivial hwork
  | upstreamEnds result =>
    cases heq : s.phase <;> simp only [step, heq, reduceCtorEq] at hstep
    exact absurd heq hphase
  | teacherResult =>
    cases heq : s.phase <;> simp only [step, heq, reduceCtorEq] at hstep
    split at hstep <;> cases hstep <;>
      exact ⟨by simp, State.left_lt_of_phase rfl rfl rfl (by simp [heq, Phase.left])⟩
  | convert result =>
    cases heq : s.phase <;> simp only [step, heq, reduceCtorEq] at hstep
    split at hstep <;> cases hstep <;>
      exact ⟨by simp, State.left_lt_of_phase rfl rfl rfl (by simp [heq, Phase.left])⟩
  | teacherShutdown =>
    cases heq : s.phase <;> simp only [step, heq, reduceCtorEq] at hstep
    obtain ⟨-, hstep⟩ := Option.ite_none_right_eq_some.mp hstep
    split at hstep <;> cases hstep <;>
      exact ⟨by simp, State.left_lt_of_phase rfl rfl rfl (by simp [heq, Phase.left])⟩
  | standaloneResult =>
    simp only [step] at hstep
    split at hstep <;> cases hstep
    next heq _ =>
      exact ⟨by simp, State.left_lt_of_phase rfl rfl rfl (by simp [heq, Phase.left])⟩
  | standaloneShutdown =>
    simp only [step] at hstep
    split at hstep <;> cases hstep
    next result _ heq _ =>
      cases result with
      | error error =>
        exact ⟨by simp [State.afterInitialize], State.left_lt_of_phase rfl rfl rfl
          (by simp [heq, State.afterInitialize, Phase.left])⟩
      | ok manager =>
        unfold State.afterInitialize
        dsimp only
        split
        · exact ⟨by simp, State.left_lt_of_phase rfl rfl rfl (by simp [heq, Phase.left])⟩
        · refine ⟨by simp, State.left_lt_of_phase rfl rfl rfl ?_⟩
          cases s.prometheus <;> simp [heq, Phase.left]
  | wire raised =>
    cases heq : s.phase with
    | wiring stage =>
      simp only [step, heq] at hstep
      cases raised <;> cases hstep <;> cases stage <;>
        exact ⟨by simp [State.wire],
          State.left_lt_of_phase rfl rfl rfl (by simp [heq, State.wire, Phase.left])⟩
    | _ => simp [step, heq] at hstep
  | teacherEnds result =>
    obtain ⟨hlt, ⟨⟩⟩ := Option.ite_none_right_eq_some.mp hstep
    refine ⟨hphase, ?_⟩
    simp only [State.left, List.length_append, List.length_singleton]
    omega
  | standaloneEnds result =>
    simp only [step] at hstep
    split at hstep <;> cases hstep
    next hnone =>
      refine ⟨hphase, ?_⟩
      simp [State.left, hnone]

/-- A thread's own work leaves as many. -/
theorem left_eq_of_work {s t : State C T D S O} {e : Event C T D S} (hphase : s.phase ≠ .upstream)
    (hwork : e.IsWork) (hstep : step s e = some t) : t.phase ≠ .upstream ∧ t.left = s.left := by
  cases e with
  | upstream action =>
    cases heq : s.phase <;> simp only [step, heq, reduceCtorEq] at hstep
    exact absurd heq hphase
  | teacherConfigures config =>
    simp only [step] at hstep
    split at hstep <;> cases hstep
    exact ⟨hphase, rfl⟩
  | standaloneConfigures config =>
    simp only [step] at hstep
    split at hstep <;> cases hstep
    exact ⟨hphase, rfl⟩
  | _ => exact hwork.elim

theorem behind_of_step {s t : State C T D S O} {e : Event C T D S} (hphase : s.phase ≠ .upstream)
    (hstep : step s e = some t) : t.phase ≠ .upstream := by
  by_cases hwork : e.IsWork
  · exact (left_eq_of_work hphase hwork hstep).1
  · exact (left_lt_of_step hphase hwork hstep).1

/-- The Teachers' thread can end what it is at. -/
theorem exists_teacherEnds {s : State C T D S O} (hlt : s.futures.length < s.jobs.length) :
    ∃ e, ¬ e.IsWork ∧ step s e ≠ none :=
  ⟨.teacherEnds (.error .zeroDivisionError), id, by simp [step, hlt]⟩

/-- **No deadlock**: until `_setup` has ended, the main thread can go on, or a thread that it waits
for. -/
theorem exists_step {initial : Option S} {es : List (Event C T D S)} {s : State C T D S O}
    (hsound : s.Sound) (hfollows : s.Follows initial es) (hphase : s.phase ≠ .upstream)
    (hdone : ∀ result, s.phase ≠ .done result) : ∃ e, ¬ e.IsWork ∧ step s e ≠ none := by
  have hstands := hfollows.stands
  have hle := hsound.futures
  cases heq : s.phase with
  | upstream => exact absurd heq hphase
  | done result => exact absurd heq (hdone result)
  | teacherResult future =>
    rw [heq] at hstands
    cases hstands with
    | teacherResult _ _ _ hteacher _ =>
      cases hmade : s.futures[future]? with
      | some made =>
        refine ⟨.teacherResult, id, ?_⟩
        cases made <;> simp [step, heq, hmade]
      | none =>
        refine exists_teacherEnds (Nat.lt_of_le_of_lt (List.getElem?_eq_none_iff.mp hmade) ?_)
        have hlast := hsound.last
        rw [hteacher] at hlast
        split at hlast
        next => cases hlast
        next hjobs =>
          have hpos := List.length_pos_iff.mpr hjobs
          cases hlast
          omega
  | convert => exact ⟨.convert (.error .zeroDivisionError), id, by simp [step, heq]⟩
  | teacherShutdown result =>
    rcases hle.lt_or_eq with hlt | hjoined
    · exact exists_teacherEnds hlt
    · refine ⟨.teacherShutdown, id, ?_⟩
      cases result <;> simp [step, heq, hjoined]
  | standaloneResult =>
    cases hstandalone : s.standalone with
    | none => exact ⟨.standaloneEnds (.error .zeroDivisionError), id, by simp [step, hstandalone]⟩
    | some result => exact ⟨.standaloneResult, id, by simp [step, heq, hstandalone]⟩
  | standaloneShutdown result =>
    cases hstandalone : s.standalone with
    | none => exact ⟨.standaloneEnds (.error .zeroDivisionError), id, by simp [step, hstandalone]⟩
    | some made => exact ⟨.standaloneShutdown, id, by simp [step, heq, hstandalone]⟩
  | wiring stage => exact ⟨.wire none, id, by simp [step, heq]⟩

/-- **Behind upstream's set-up, `_setup` ends once the services have**: only so many steps are left
but for the threads' own work, and where none of them can be taken, it has ended. -/
theorem finishes_of_run {topology : Topology} {trainer : Trainer T D S O} {override : Option O}
    {config : C} {startRank : ℕ} {prometheus : Bool} {es fs : List (Event C T D S)}
    {s₀ s t : State C T D S O}
    (hsetup : setup topology trainer override config startRank prometheus = some s₀)
    (hrun : run step s₀ es = some s) (hphase : s.phase ≠ .upstream)
    (hrest : run step s fs = some t) :
    (fs.countP fun e => ¬ e.IsWork) ≤ s.left ∧
      ((∀ e : Event C T D S, ¬ e.IsWork → step t e = none) → ∃ result, t.phase = .done result) := by
  obtain ⟨-, ⟨⟩⟩ := Option.ite_none_right_eq_some.mp hsetup
  refine ⟨?_, fun hstuck => ?_⟩
  · have hcount := countP_le_of_run (Q := fun e => ¬ e.IsWork) State.left (fun _ => 0) hrest
      hphase
      (fun u e v hu hstep => behind_of_step hu hstep)
      (fun u e v hu hidle hstep => (left_lt_of_step hu hidle hstep).2)
      (fun u e v hu hwork hstep => (left_eq_of_work hu (not_not.mp hwork) hstep).2.le)
    simpa only [List.map_const', List.sum_replicate_nat, Nat.mul_zero, Nat.add_zero] using hcount
  have hwhole : run step (.start trainer override config startRank prometheus) (es ++ fs) =
      some t := by
    rw [run_append, hrun]
    exact hrest
  obtain ⟨hsound, -, hfollows⟩ := invariants_of_run hwhole
  have hbehind : t.phase ≠ .upstream :=
    run_invariant (P := fun _ u => u.phase ≠ .upstream) hrest hphase
      fun _ u e v hu hstep => behind_of_step hu hstep
  by_contra hdone
  obtain ⟨e, hidle, hstep⟩ := exists_step hsound hfollows hbehind fun result heq =>
    hdone ⟨result, heq⟩
  exact hstep (hstuck e hidle)

/-- The state behind upstream's set-up, with the Teacher still to come. -/
def awaitingTeacher : State Unit Unit Unit Unit Unit :=
  { overlapped with
    trainer := { freshTrainer with resourcePoolManager := some 0, rolloutReplicas := 4 }
    phase := .teacherResult 0
    futures := [] }

theorem finishes_overlapping :
    ((overlapping.drop 6).countP fun e => ¬ e.IsWork) ≤ 9 ∧
      ((∀ e : Event Unit Unit Unit Unit, ¬ e.IsWork → step overlapped e = none) →
        ∃ result, overlapped.phase = .done result) := by
  have hsetup : setup singleNode freshTrainer none () 4 false =
      some (.start freshTrainer none () 4 false) := rfl
  have hrun : run step (.start freshTrainer none () 4 false) (overlapping.take 6) =
      some awaitingTeacher := rfl
  have hrest : run step awaitingTeacher (overlapping.drop 6) = some overlapped := rfl
  exact finishes_of_run hsetup hrun nofun hrest

end ParallelStartup
