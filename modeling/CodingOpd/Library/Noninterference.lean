import Mathlib.Logic.Function.Basic
import CodingOpd.Library.Transition

/-!
# Noninterference

Every event of a machine belongs to an owner, and the owners share the state. What one of them sees
of a run is what it sees of the run of its own events alone, where a relation between the two
states unwinds: the events of the others leave the owner's side where it is, and an event of its
own is possible on both sides or on none.

## Main definitions

* `Confined`: an operation on a shared state that reads and writes one part of it
* `onPart`: an operation on one part of a state that has a part for each owner
* `Unwinds`: the unwinding conditions of one owner

## Main results

* `Unwinds.run_filter`: the run of the owner's own events
-/

namespace Transition

variable {σ ε ι γ ν α : Type*}

/-- An operation that reads and writes the part `i` of a state, and leaves the other parts. -/
structure Confined (view : ι → γ → ν) (i : ι) (op : γ → α × γ) : Prop where
  frame : ∀ g j, j ≠ i → view j (op g).2 = view j g
  reads : ∀ g g', view i g = view i g' →
    (op g).1 = (op g').1 ∧ view i (op g).2 = view i (op g').2

/-- An operation on one part, where the state has a part for each owner. -/
def onPart {τ : Type*} [DecidableEq ι] (i : ι) (op : τ → α × τ) (parts : ι → τ) : α × (ι → τ) :=
  ((op (parts i)).1, Function.update parts i (op (parts i)).2)

theorem confined_onPart {τ : Type*} [DecidableEq ι] (i : ι) (op : τ → α × τ) :
    Confined (fun j (parts : ι → τ) => parts j) i (onPart i op) where
  frame parts j hj := Function.update_of_ne hj _ _
  reads parts parts' h := by
    refine ⟨by rw [onPart, onPart, h], ?_⟩
    show Function.update parts i _ i = Function.update parts' i _ i
    rw [Function.update_self, Function.update_self, h]

/-- The unwinding conditions of an owner, for a relation between a state of the whole and one of
the owner's own run. -/
structure Unwinds (step : σ → ε → Option σ) (owner : ε → ι) (Inv : σ → Prop) (i : ι)
    (Sees : σ → σ → Prop) : Prop where
  inv : ∀ s e t, Inv s → step s e = some t → Inv t
  other : ∀ s e t u, Inv s → Sees s u → owner e ≠ i → step s e = some t → Sees t u
  own : ∀ s e t u, Inv s → Sees s u → owner e = i → step s e = some t →
    ∃ v, step u e = some v ∧ Sees t v

variable [DecidableEq ι] {step : σ → ε → Option σ} {owner : ε → ι} {Inv : σ → Prop} {i : ι}
  {Sees : σ → σ → Prop}

/-- **Noninterference**: a run, seen by one owner, is the run of the owner's own events. -/
theorem Unwinds.run_filter (h : Unwinds step owner Inv i Sees) {s t u : σ} {es : List ε}
    (hinv : Inv s) (hsees : Sees s u) (hrun : run step s es = some t) :
    ∃ v, run step u (es.filter (owner · = i)) = some v ∧ Sees t v := by
  induction es generalizing s u with
  | nil =>
    cases hrun
    exact ⟨u, rfl, hsees⟩
  | cons e es ih =>
    obtain ⟨s', hstep, hrest⟩ := Option.bind_eq_some_iff.mp hrun
    have hinv' := h.inv s e s' hinv hstep
    by_cases howner : owner e = i
    · obtain ⟨u', hstep', hsees'⟩ := h.own s e s' u hinv hsees howner hstep
      obtain ⟨v, hv, hsees''⟩ := ih hinv' hsees' hrest
      refine ⟨v, ?_, hsees''⟩
      rw [List.filter_cons_of_pos (by simpa using howner), run, hstep']
      exact hv
    · rw [List.filter_cons_of_neg (by simpa using howner)]
      exact ih hinv' (h.other s e s' u hinv hsees howner hstep) hrest

end Transition
