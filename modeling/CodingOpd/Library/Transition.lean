import Mathlib.Algebra.Ring.Nat
import Mathlib.Data.List.Induction
import Mathlib.Data.Option.Basic
import Mathlib.Logic.Relation

/-!
# Runs of a partial step function

A machine is given by a step function that answers, for a state and an event, the next state, or
`none` where the event is not enabled. A property that holds of a state and is preserved by every
step holds of every state reached.

## Main definitions

* `Reaches`: the states reached from a state by any sequence of events
* `run`: the state after a list of events

## Main results

* `Reaches.invariant`: the invariant rule
* `reaches_iff_run`: a state is reached when some list of events runs to it
* `run_invariant`: the invariant rule for a state and the events so far
* `exists_reaches_of_run`: the simulation rule
* `countP_le_of_run`: the measure rule
-/

namespace Transition

variable {σ ε : Type*} {step : σ → ε → Option σ}

/-- Some event takes the first state to the second. -/
def Steps (step : σ → ε → Option σ) (s t : σ) : Prop := ∃ e, step s e = some t

/-- Some sequence of events takes the first state to the second. -/
def Reaches (step : σ → ε → Option σ) : σ → σ → Prop := Relation.ReflTransGen (Steps step)

theorem Reaches.refl (s : σ) : Reaches step s s := Relation.ReflTransGen.refl

theorem Reaches.trans {s t u : σ} (h : Reaches step s t) (h' : Reaches step t u) :
    Reaches step s u :=
  Relation.ReflTransGen.trans h h'

theorem Reaches.tail {s t u : σ} (h : Reaches step s t) (e : ε) (hstep : step t e = some u) :
    Reaches step s u :=
  Relation.ReflTransGen.tail h ⟨e, hstep⟩

/-- **The invariant rule.** -/
theorem Reaches.invariant {P : σ → Prop} {s t : σ} (h : Reaches step s t) (hs : P s)
    (hstep : ∀ t e u, P t → step t e = some u → P u) : P t := by
  induction h with
  | refl => exact hs
  | tail _ hstep' ih =>
    obtain ⟨e, he⟩ := hstep'
    exact hstep _ e _ ih he

/-- The state after a list of events, when each is enabled in its turn. -/
def run (step : σ → ε → Option σ) : σ → List ε → Option σ
  | s, [] => some s
  | s, e :: es => (step s e).bind fun t => run step t es

/-- Two events, one after the other. -/
theorem run_pair {s t u : σ} {e f : ε} (h : step s e = some t) (h' : step t f = some u) :
    run step s [e, f] = some u := by
  simp only [run, h, h', Option.bind_some]

theorem run_append (s : σ) (es fs : List ε) :
    run step s (es ++ fs) = (run step s es).bind fun t => run step t fs := by
  induction es generalizing s with
  | nil => rfl
  | cons e es ih =>
    rw [List.cons_append, run, run, Option.bind_assoc]
    congr 1
    funext t
    exact ih t

/-- **The invariant rule with the history**: a property of the events so far and the state, which
every step extends, holds after every run. -/
theorem run_invariant {P : List ε → σ → Prop} {s t : σ} {es : List ε}
    (hrun : run step s es = some t) (hs : P [] s)
    (hstep : ∀ es t e u, P es t → step t e = some u → P (es ++ [e]) u) : P es t := by
  induction es using List.reverseRecOn generalizing t with
  | nil =>
    cases hrun
    exact hs
  | append_singleton es e ih =>
    rw [run_append] at hrun
    obtain ⟨u, hu, hlast⟩ := Option.bind_eq_some_iff.mp hrun
    obtain ⟨v, hv, hnil⟩ := Option.bind_eq_some_iff.mp hlast
    cases hnil
    exact hstep es u e _ (ih hu) hv

/-- **The simulation rule.** Where each step of a machine is matched by steps of another one, each
of its runs is; the relation between the two may look at the events so far. -/
theorem exists_reaches_of_run {τ δ : Type*} {target : τ → δ → Option τ}
    {R : List ε → σ → τ → Prop} {s t : σ} {a : τ} {es : List ε} (hrun : run step s es = some t)
    (hs : R [] s a)
    (hstep : ∀ es t e u b, R es t b → step t e = some u →
      ∃ c, Reaches target b c ∧ R (es ++ [e]) u c) :
    ∃ b, Reaches target a b ∧ R es t b := by
  refine run_invariant (P := fun es t => ∃ b, Reaches target a b ∧ R es t b) hrun
    ⟨a, .refl a, hs⟩ ?_
  rintro es t e u ⟨b, hreaches, hb⟩ he
  obtain ⟨c, hmatched, hc⟩ := hstep es t e u b hb he
  exact ⟨c, hreaches.trans hmatched, hc⟩

/-- **The measure rule.** Events that each take a measure down are as many as the measure at most,
and what the other events add to it. -/
theorem countP_le_of_run {P : σ → Prop} {Q : ε → Prop} [DecidablePred Q] {s t : σ} {es : List ε}
    (measure : σ → ℕ) (income : ε → ℕ) (hrun : run step s es = some t) (hs : P s)
    (hnext : ∀ t e u, P t → step t e = some u → P u)
    (hlt : ∀ t e u, P t → Q e → step t e = some u → measure u < measure t)
    (hle : ∀ t e u, P t → ¬ Q e → step t e = some u → measure u ≤ measure t + income e) :
    (es.countP fun e => Q e) ≤ measure s + (es.map income).sum := by
  induction es generalizing s with
  | nil => exact Nat.zero_le _
  | cons e es ih =>
    obtain ⟨u, hu, hrest⟩ := Option.bind_eq_some_iff.mp hrun
    have hrec := ih hrest (hnext s e u hs hu)
    rw [List.map_cons, List.sum_cons]
    by_cases he : Q e
    · have hdown := hlt s e u hs he hu
      rw [List.countP_cons_of_pos (by simpa using he)]
      omega
    · have hup := hle s e u hs he hu
      rw [List.countP_cons_of_neg (by simpa using he)]
      omega

theorem reaches_iff_run {s t : σ} : Reaches step s t ↔ ∃ es, run step s es = some t := by
  constructor
  · intro h
    induction h with
    | refl => exact ⟨[], rfl⟩
    | tail _ hstep ih =>
      obtain ⟨es, hes⟩ := ih
      obtain ⟨e, he⟩ := hstep
      refine ⟨es ++ [e], ?_⟩
      rw [run_append, hes]
      simp [run, he]
  · rintro ⟨es, hes⟩
    induction es generalizing s with
    | nil => exact Option.some_inj.mp hes ▸ Reaches.refl s
    | cons e es ih =>
      rw [run] at hes
      obtain ⟨u, hu, hes⟩ := Option.bind_eq_some_iff.mp hes
      exact ((Reaches.refl s).tail e hu).trans (ih hes)

end Transition
