import Mathlib.Data.List.Forall2
import Mathlib.Logic.Function.Basic
import Mathlib.Logic.Relation

/-!
# Programs that may be interrupted

A program changes a state that outlives it: files on a disk, rows of a database. It returns a value
or raises an exception, and an interruption leaves the state as it stands at some point on the way.
A triple `Triple P p Q C` says of every start that meets `P`: the state that `p` leaves meets `C`,
whether `p` was interrupted or not, and where `p` returns, its value and the state it leaves
meet `Q`.

## Main definitions

* `Program ε σ α`: programs on a state `σ` that return an `α` or raise an `ε`
* `Program.write`: a change of the state, through states an interruption may leave
* `Program.recover`: the handler of an exception
* `Program.zoom`: a program on a part of the state
* `Program.parallel`: threads, each on its own component of the state
* `Triple`: the triples, with a condition for interruptions
* `Ends`: how a program that is not interrupted ends, with a condition for exceptions
* `Returns`: the evaluation of a program that is not interrupted
* `History`: what programs run one after the other leave

## Main results

* `Triple.bind`, `Triple.recover`, `Triple.foldlM`, `Triple.zoom`, `Triple.parallel`: the rules
* `Ends.bind`, `Ends.recover`, `Returns.bind_iff`: the rules for programs that are not interrupted
* `History.invariant`: what every program of a history keeps, the history keeps
-/

namespace Interruption

/-- How a program runs: what it returns or raises, the state it ends in, and the states it passes
before that. -/
structure Execution (ε σ α : Type) where
  outcome : Except ε α
  final : σ
  passes : σ → Prop

/-- The states that an execution leaves, interrupted or not. -/
def Execution.Leaves {ε σ α : Type} (execution : Execution ε σ α) (t : σ) : Prop :=
  execution.passes t ∨ t = execution.final

/-- Programs on a state that return a value or raise an exception. -/
def Program (ε σ α : Type) : Type := σ → Execution ε σ α

variable {ε σ τ ι α β : Type}

namespace Program

/-- A program that raises does not go on. -/
instance : Monad (Program ε σ) where
  pure a := fun s => ⟨.ok a, s, fun _ => False⟩
  bind p f := fun s =>
    match (p s).outcome with
    | .error error => ⟨.error error, (p s).final, (p s).passes⟩
    | .ok a =>
      { f a (p s).final with
        passes := fun t => (p s).passes t ∨ (f a (p s).final).passes t }

/-- Raise an exception. -/
def raise (error : ε) : Program ε σ α := fun s => ⟨.error error, s, fun _ => False⟩

/-- A computation that leaves the state alone. -/
def ofExcept (x : Except ε α) : Program ε σ α := fun s => ⟨x, s, fun _ => False⟩

/-- The state as it stands. -/
def read : Program ε σ σ := fun s => ⟨.ok s, s, fun _ => False⟩

/-- Change the state, through the given states on the way. -/
def write (through : σ → σ → Prop) (f : σ → σ) : Program ε σ Unit :=
  fun s => ⟨.ok (), f s, fun t => t = s ∨ through s t⟩

/-- Change the state in one step. -/
def modify (f : σ → σ) : Program ε σ Unit := write (fun _ _ => False) f

/-- Handle the exceptions of a program. -/
def recover (p : Program ε σ α) (handler : ε → Program ε σ α) : Program ε σ α := fun s =>
  match (p s).outcome with
  | .ok _ => p s
  | .error error =>
    { handler error (p s).final with
      passes := fun t => (p s).passes t ∨ (handler error (p s).final).passes t }

/-- A program on a part of the state. -/
def zoom (get : σ → τ) (set : τ → σ → σ) (p : Program ε τ α) : Program ε σ α := fun s =>
  { outcome := (p (get s)).outcome
    final := set (p (get s)).final s
    passes := fun t => ∃ u, (p (get s)).passes u ∧ t = set u s }

/-- Threads that run at once, each on its own component. All of them run to their end, also where
one raises. An interruption finds each thread at a point of its own: not started, on its way, or
ended. -/
def parallel [DecidableEq ι] (keys : List ι) (body : ι → Program ε τ α) :
    Program ε (ι → τ) (List α) := fun s =>
  { outcome := keys.mapM fun i => (body i (s i)).outcome
    final := fun i => if i ∈ keys then (body i (s i)).final else s i
    passes := fun t => ∀ i, t i = s i ∨ i ∈ keys ∧ (body i (s i)).Leaves (t i) }

/-- A program whose value is only passed on leaves what it leaves. -/
theorem final_bind_pure (p : Program ε σ α) (f : α → β) (s : σ) :
    ((p >>= fun a => (pure (f a) : Program ε σ β)) s).final = (p s).final := by
  show Execution.final (match (p s).outcome with
    | .error error => ⟨.error error, (p s).final, (p s).passes⟩
    | .ok a => ⟨.ok (f a), (p s).final, fun t => (p s).passes t ∨ False⟩) = _
  cases (p s).outcome <;> rfl

theorem bind_apply (p : Program ε σ α) (f : α → Program ε σ β) (s : σ) :
    (p >>= f) s = match (p s).outcome with
      | .error error => ⟨.error error, (p s).final, (p s).passes⟩
      | .ok a =>
        { f a (p s).final with
          passes := fun t => (p s).passes t ∨ (f a (p s).final).passes t } := rfl

theorem bind_of_error {p : Program ε σ α} {f : α → Program ε σ β} {s : σ} {error : ε}
    (h : (p s).outcome = .error error) :
    (p >>= f) s = ⟨.error error, (p s).final, (p s).passes⟩ := by
  rw [bind_apply, h]

theorem bind_of_ok {p : Program ε σ α} {f : α → Program ε σ β} {s : σ} {a : α}
    (h : (p s).outcome = .ok a) :
    (p >>= f) s =
      { f a (p s).final with
        passes := fun t => (p s).passes t ∨ (f a (p s).final).passes t } := by
  rw [bind_apply, h]

theorem pure_bind (a : α) (f : α → Program ε σ β) : (pure a : Program ε σ α) >>= f = f a := by
  funext s
  rw [bind_of_ok (a := a) rfl]
  show Execution.mk (f a s).outcome (f a s).final (fun t => False ∨ (f a s).passes t) = f a s
  simp only [false_or]

/-- **Sequencing is associative.** -/
theorem bind_assoc {γ : Type} (p : Program ε σ α) (f : α → Program ε σ β)
    (g : β → Program ε σ γ) : (p >>= f) >>= g = p >>= fun a => f a >>= g := by
  funext s
  cases hp : (p s).outcome with
  | error error =>
    rw [bind_of_error hp, bind_of_error (by rw [bind_of_error hp]), bind_of_error hp]
  | ok a =>
    cases hf : (f a (p s).final).outcome with
    | error error =>
      rw [bind_of_ok hp, bind_of_error hf, bind_of_error (by rw [bind_of_ok hp, hf]),
        bind_of_ok hp]
    | ok b =>
      rw [bind_of_ok hp, bind_of_ok hf, bind_of_ok (by rw [bind_of_ok hp, hf]), bind_of_ok hp]
      simp only [or_assoc]

end Program

open Program

/-- From a state that meets `P`, every state that the program leaves meets `C`, and where it
returns, the value and the state it leaves meet `Q`. -/
structure Triple (P : σ → Prop) (p : Program ε σ α) (Q : α → σ → Prop) (C : σ → Prop) :
    Prop where
  leaves : ∀ s, P s → ∀ t, (p s).Leaves t → C t
  returns : ∀ s, P s → ∀ a, (p s).outcome = .ok a → Q a (p s).final

namespace Triple

variable {P P' C C' : σ → Prop} {Q Q' : α → σ → Prop} {R : β → σ → Prop}
variable {p : Program ε σ α}

/-- The rule of consequence. -/
theorem conseq (h : Triple P p Q C) (hP : ∀ s, P' s → P s) (hQ : ∀ a s, Q a s → Q' a s)
    (hC : ∀ s, C s → C' s) : Triple P' p Q' C' where
  leaves s hs t ht := hC t (h.leaves s (hP s hs) t ht)
  returns s hs a ha := hQ a _ (h.returns s (hP s hs) a ha)

/-- A fact that the precondition states is known to the program's proof. -/
theorem of_fact {φ : Prop} (h : φ → Triple P p Q C) : Triple (fun s => φ ∧ P s) p Q C where
  leaves s hs := (h hs.1).leaves s hs.2
  returns s hs := (h hs.1).returns s hs.2

/-- Nothing is asked of the states that the program leaves. -/
theorem true : Triple P p (fun _ _ => True) (fun _ => True) :=
  ⟨fun _ _ _ _ => trivial, fun _ _ _ _ => trivial⟩

theorem pure {a : α} (hQ : ∀ s, P s → Q a s) (hC : ∀ s, P s → C s) :
    Triple (ε := ε) P (Pure.pure a) Q C where
  leaves := by
    rintro s hs t (hfalse | rfl)
    · exact hfalse.elim
    · exact hC _ hs
  returns := by
    rintro s hs a' ⟨rfl⟩
    exact hQ s hs

theorem raise {error : ε} (hC : ∀ s, P s → C s) : Triple P (Program.raise error) Q C where
  leaves := by
    rintro s hs t (hfalse | rfl)
    · exact hfalse.elim
    · exact hC _ hs
  returns := by
    rintro s hs a ⟨⟩

theorem ofExcept {x : Except ε α} (hQ : ∀ a s, x = .ok a → P s → Q a s) (hC : ∀ s, P s → C s) :
    Triple P (Program.ofExcept x) Q C where
  leaves := by
    rintro s hs t (hfalse | rfl)
    · exact hfalse.elim
    · exact hC _ hs
  returns s hs a ha := hQ a s ha hs

theorem read (hC : ∀ s, P s → C s) :
    Triple (ε := ε) P Program.read (fun a s => a = s ∧ P s) C where
  leaves := by
    rintro s hs t (hfalse | rfl)
    · exact hfalse.elim
    · exact hC _ hs
  returns := by
    rintro s hs a ⟨rfl⟩
    exact ⟨rfl, hs⟩

theorem write {through : σ → σ → Prop} {f : σ → σ} {Q : Unit → σ → Prop}
    (hQ : ∀ s, P s → Q () (f s)) (hC : ∀ s, P s → C s)
    (hthrough : ∀ s t, P s → through s t → C t) (hf : ∀ s, P s → C (f s)) :
    Triple (ε := ε) P (Program.write through f) Q C where
  leaves := by
    rintro s hs t ((rfl | hmid) | rfl)
    · exact hC t hs
    · exact hthrough s t hs hmid
    · exact hf s hs
  returns := by
    rintro s hs a -
    exact hQ s hs

theorem modify {f : σ → σ} {Q : Unit → σ → Prop} (hQ : ∀ s, P s → Q () (f s))
    (hC : ∀ s, P s → C s) (hf : ∀ s, P s → C (f s)) :
    Triple (ε := ε) P (Program.modify f) Q C :=
  write hQ hC (fun _ _ _ hfalse => hfalse.elim) hf

/-- **Sequencing.** What the first program establishes is the precondition of the second. -/
theorem bind {p : Program ε σ β} {f : β → Program ε σ α} (hp : Triple P p R C)
    (hf : ∀ b, Triple (R b) (f b) Q C) : Triple P (p >>= f) Q C where
  leaves := by
    intro s hs t ht
    have hleaves := hp.leaves s hs
    have hreturns := hp.returns s hs
    revert ht
    show Execution.Leaves (match (p s).outcome with
      | .error error => _
      | .ok b => _) t → C t
    cases hout : (p s).outcome with
    | error error => exact hleaves t
    | ok b =>
      have hnext := (hf b).leaves _ (hreturns b hout)
      rintro ((hpass | hpass) | rfl)
      · exact hleaves t (Or.inl hpass)
      · exact hnext t (Or.inl hpass)
      · exact hnext _ (Or.inr rfl)
  returns := by
    intro s hs a
    have hreturns := hp.returns s hs
    show (Execution.outcome (match (p s).outcome with
      | .error error => _
      | .ok b => _)) = _ → Q a (Execution.final (match (p s).outcome with
      | .error error => _
      | .ok b => _))
    cases hout : (p s).outcome with
    | error error => exact fun ha => nomatch ha
    | ok b => exact (hf b).returns _ (hreturns b hout) a

/-- **Handlers.** An exception may leave any state that meets `C`. -/
theorem recover {handler : ε → Program ε σ α} (hp : Triple P p Q C)
    (hhandler : ∀ error, Triple C (handler error) Q C) : Triple P (p.recover handler) Q C where
  leaves := by
    intro s hs t
    have hleaves := hp.leaves s hs
    show Execution.Leaves (match (p s).outcome with
      | .ok _ => _
      | .error error => _) t → C t
    cases hout : (p s).outcome with
    | ok a => exact hleaves t
    | error error =>
      have hnext := (hhandler error).leaves _ (hleaves _ (Or.inr rfl))
      rintro ((hpass | hpass) | rfl)
      · exact hleaves t (Or.inl hpass)
      · exact hnext t (Or.inl hpass)
      · exact hnext _ (Or.inr rfl)
  returns := by
    intro s hs a
    have hleaves := hp.leaves s hs
    have hreturns := hp.returns s hs a
    show (Execution.outcome (match (p s).outcome with
      | .ok _ => _
      | .error error => _)) = _ → Q a (Execution.final (match (p s).outcome with
      | .ok _ => _
      | .error error => _))
    cases hout : (p s).outcome with
    | ok b => exact hreturns
    | error error => exact (hhandler error).returns _ (hleaves _ (Or.inr rfl)) a

/-- **Loops.** What each turn keeps, a loop over a list keeps. -/
theorem foldlM {I : β → σ → Prop} {f : β → α → Program ε σ β} (xs : List α)
    (hstep : ∀ x ∈ xs, ∀ b, Triple (I b) (f b x) I C) (hC : ∀ b s, I b s → C s) (b : β) :
    Triple (I b) (xs.foldlM f b) I C := by
  induction xs generalizing b with
  | nil => exact pure (fun _ hs => hs) (hC b)
  | cons x xs ih =>
    rw [List.foldlM_cons]
    exact (hstep x List.mem_cons_self b).bind
      (ih fun y hy => hstep y (List.mem_cons_of_mem x hy))

/-- **Parts of the state.** The rest of the state is what it was at the start. -/
theorem zoom {get : σ → τ} {set : τ → σ → σ} {p : Program ε τ α}
    (h : ∀ s, P s →
      Triple (fun u => u = get s) p (fun a u => Q a (set u s)) (fun u => C (set u s))) :
    Triple P (p.zoom get set) Q C where
  leaves := by
    rintro s hs t (⟨u, hpass, rfl⟩ | rfl)
    · exact (h s hs).leaves _ rfl u (Or.inl hpass)
    · exact (h s hs).leaves _ rfl _ (Or.inr rfl)
  returns s hs a ha := (h s hs).returns _ rfl a ha

/-- Where a list of computations is collected, each of them succeeded. -/
theorem exists_ok_of_mapM {f : ι → Except ε α} {xs : List ι} {values : List α}
    (h : xs.mapM f = .ok values) : ∀ x ∈ xs, ∃ a, f x = .ok a := by
  induction xs generalizing values with
  | nil => exact fun x hx => absurd hx List.not_mem_nil
  | cons x xs ih =>
    rw [List.mapM_cons] at h
    cases hx : f x with
    | error error =>
      rw [hx] at h
      cases h
    | ok a =>
      cases hxs : xs.mapM f with
      | error error =>
        rw [hx, hxs] at h
        cases h
      | ok rest => exact List.forall_mem_cons.mpr ⟨⟨a, hx⟩, ih hxs⟩

/-- **Threads.** A thread that keeps its own component's condition needs nothing of the others. -/
theorem parallel [DecidableEq ι] (keys : List ι) (body : ι → Program ε τ α)
    {P C : ι → τ → Prop} {Q : ι → α → τ → Prop}
    (hbody : ∀ i ∈ keys, Triple (P i) (body i) (Q i) (C i)) (hC : ∀ i u, P i u → C i u) :
    Triple (fun s => ∀ i, P i (s i)) (Program.parallel keys body)
      (fun _ s => (∀ i ∈ keys, ∃ a, Q i a (s i)) ∧ ∀ i, i ∉ keys → P i (s i))
      (fun s => ∀ i, C i (s i)) where
  leaves := by
    rintro s hs t (hpass | rfl) i
    · rcases hpass i with hsame | ⟨hi, hleaves⟩
      · exact hsame ▸ hC i _ (hs i)
      · exact (hbody i hi).leaves _ (hs i) _ hleaves
    · show C i (if i ∈ keys then (body i (s i)).final else s i)
      split
      case isTrue hi => exact (hbody i hi).leaves _ (hs i) _ (Or.inr rfl)
      case isFalse hi => exact hC i _ (hs i)
  returns := by
    intro s hs values hout
    refine ⟨fun i hi => ?_, fun i hi => ?_⟩
    · -- the values of all threads were collected, so every one of them returned
      obtain ⟨a, ha⟩ := exists_ok_of_mapM hout i hi
      refine ⟨a, ?_⟩
      show Q i a (if i ∈ keys then (body i (s i)).final else s i)
      rw [if_pos hi]
      exact (hbody i hi).returns _ (hs i) a ha
    · show P i (if i ∈ keys then (body i (s i)).final else s i)
      rw [if_neg hi]
      exact hs i

end Triple

/-! ## Uninterrupted programs -/

/-- From a state that meets `P`, the program returns a value that meets `Q` with the state it
leaves, or raises an exception that meets `E` with it. -/
def Ends (P : σ → Prop) (p : Program ε σ α) (Q : α → σ → Prop) (E : ε → σ → Prop) : Prop :=
  ∀ s, P s → match (p s).outcome with
    | .ok a => Q a (p s).final
    | .error error => E error (p s).final

namespace Ends

variable {P P' : σ → Prop} {Q Q' : α → σ → Prop} {E E' : ε → σ → Prop} {R : β → σ → Prop}
variable {p : Program ε σ α}

/-- The rule of consequence. -/
theorem conseq (h : Ends P p Q E) (hP : ∀ s, P' s → P s) (hQ : ∀ a s, Q a s → Q' a s)
    (hE : ∀ e s, E e s → E' e s) : Ends P' p Q' E' := by
  intro s hs
  have hends := h s (hP s hs)
  cases hout : (p s).outcome with
  | ok a =>
    rw [hout] at hends
    exact hQ a _ hends
  | error error =>
    rw [hout] at hends
    exact hE error _ hends

/-- A program that raises nothing returns. -/
theorem returns (h : Ends P p Q fun _ _ => False) {s : σ} (hs : P s) :
    ∃ a, (p s).outcome = .ok a ∧ Q a (p s).final := by
  have hends := h s hs
  cases hout : (p s).outcome with
  | ok a =>
    rw [hout] at hends
    exact ⟨a, rfl, hends⟩
  | error error =>
    rw [hout] at hends
    exact hends.elim

theorem pure {a : α} (hQ : ∀ s, P s → Q a s) : Ends P (Pure.pure a) Q E := hQ

theorem raise {error : ε} (hE : ∀ s, P s → E error s) : Ends P (Program.raise error) Q E := hE

theorem ofExcept {x : Except ε α} (hQ : ∀ a s, x = .ok a → P s → Q a s)
    (hE : ∀ e s, x = .error e → P s → E e s) : Ends P (Program.ofExcept x) Q E := by
  intro s hs
  cases hx : x with
  | ok a => exact hQ a s hx hs
  | error error => exact hE error s hx hs

theorem read {Q : σ → σ → Prop} (hQ : ∀ s, P s → Q s s) : Ends P Program.read Q E := hQ

theorem write {through : σ → σ → Prop} {f : σ → σ} {Q : Unit → σ → Prop}
    (hQ : ∀ s, P s → Q () (f s)) : Ends P (Program.write through f) Q E := hQ

/-- **Sequencing.** -/
theorem bind {p : Program ε σ β} {f : β → Program ε σ α} (hp : Ends P p R E)
    (hf : ∀ b, Ends (R b) (f b) Q E) : Ends P (p >>= f) Q E := by
  intro s hs
  have hends := hp s hs
  show match Execution.outcome (match (p s).outcome with
      | .error error => ⟨.error error, (p s).final, (p s).passes⟩
      | .ok b => _) with
    | .ok a => Q a (Execution.final (match (p s).outcome with
      | .error error => _
      | .ok b => _))
    | .error error => E error (Execution.final (match (p s).outcome with
      | .error error => _
      | .ok b => _))
  cases hout : (p s).outcome with
  | error error =>
    rw [hout] at hends
    exact hends
  | ok b =>
    rw [hout] at hends
    exact hf b _ hends

/-- **Handlers.** An exception of the program is the start of its handler. -/
theorem recover {handler : ε → Program ε σ α} (hp : Ends P p Q E)
    (hhandler : ∀ error, Ends (E error) (handler error) Q E') :
    Ends P (p.recover handler) Q E' := by
  intro s hs
  have hends := hp s hs
  show match Execution.outcome (match (p s).outcome with
      | .ok _ => p s
      | .error error => _) with
    | .ok a => Q a (Execution.final (match (p s).outcome with
      | .ok _ => p s
      | .error error => _))
    | .error error => E' error (Execution.final (match (p s).outcome with
      | .ok _ => p s
      | .error error => _))
  cases hout : (p s).outcome with
  | ok a =>
    rw [hout] at hends
    show match (p s).outcome with
      | .ok a => Q a (p s).final
      | .error error => E' error (p s).final
    rw [hout]
    exact hends
  | error error =>
    rw [hout] at hends
    exact hhandler error _ hends

end Ends

/-! ## Evaluation -/

/-- From a state, the program that is not interrupted returns a value and ends in a state. -/
def Returns (p : Program ε σ α) (s : σ) (a : α) (t : σ) : Prop :=
  (p s).outcome = .ok a ∧ (p s).final = t

namespace Returns

variable {p : Program ε σ α} {s t : σ} {a : α}

theorem of_outcome (h : (p s).outcome = .ok a) : Returns p s a (p s).final := ⟨h, rfl⟩

/-- **Sequencing.** -/
theorem bind_iff {f : α → Program ε σ β} {b : β} :
    Returns (p >>= f) s b t ↔ ∃ a u, Returns p s a u ∧ Returns (f a) u b t := by
  constructor
  · rintro ⟨hout, hfinal⟩
    cases hp : (p s).outcome with
    | error error =>
      rw [bind_of_error hp] at hout
      cases hout
    | ok a =>
      rw [bind_of_ok hp] at hout hfinal
      exact ⟨a, _, ⟨hp, rfl⟩, hout, hfinal⟩
  · rintro ⟨a, u, ⟨hp, rfl⟩, hout, hfinal⟩
    rw [Returns, bind_of_ok hp]
    exact ⟨hout, hfinal⟩

@[simp] theorem pure_iff {b : α} : Returns (Pure.pure a : Program ε σ α) s b t ↔ b = a ∧ t = s :=
  ⟨fun ⟨hout, hfinal⟩ => ⟨(Except.ok.inj hout).symm, hfinal.symm⟩,
    fun ⟨hb, ht⟩ => ⟨congrArg Except.ok hb.symm, ht.symm⟩⟩

@[simp] theorem not_raise {error : ε} : ¬ Returns (Program.raise error : Program ε σ α) s a t :=
  fun h => nomatch h.1

@[simp] theorem ofExcept_iff {x : Except ε α} :
    Returns (Program.ofExcept x) s a t ↔ x = .ok a ∧ t = s :=
  ⟨fun ⟨hout, hfinal⟩ => ⟨hout, hfinal.symm⟩, fun ⟨hout, hfinal⟩ => ⟨hout, hfinal.symm⟩⟩

@[simp] theorem read_iff {u : σ} : Returns (Program.read : Program ε σ σ) s u t ↔ u = s ∧ t = s :=
  ⟨fun ⟨hout, hfinal⟩ => ⟨(Except.ok.inj hout).symm, hfinal.symm⟩,
    fun ⟨hu, ht⟩ => ⟨congrArg Except.ok hu.symm, ht.symm⟩⟩

@[simp] theorem write_iff {through : σ → σ → Prop} {f : σ → σ} {u : Unit} :
    Returns (Program.write through f : Program ε σ Unit) s u t ↔ t = f s :=
  ⟨fun h => h.2.symm, fun h => ⟨rfl, h.symm⟩⟩

/-- **Parts of the state.** -/
theorem zoom_iff {get : σ → τ} {set : τ → σ → σ} {q : Program ε τ α} :
    Returns (q.zoom get set) s a t ↔ ∃ u, Returns q (get s) a u ∧ t = set u s :=
  ⟨fun h => ⟨_, ⟨h.1, rfl⟩, h.2.symm⟩, fun ⟨_, hq, ht⟩ => ⟨hq.1, by rw [ht, ← hq.2]; rfl⟩⟩

theorem unique {b : α} {u : σ} (h : Returns p s a t) (h' : Returns p s b u) : a = b ∧ t = u :=
  ⟨Except.ok.inj (h.1.symm.trans h'.1), h.2.symm.trans h'.2⟩

/-- **Loops that return.** Every turn returns from a state that meets the invariant of the turns
done and the values collected, so the loop returns. -/
theorem collect {f : α → Program ε σ β} {I : List α → List β → σ → Prop} {xs : List α}
    (hstep : ∀ x ∈ xs, ∀ done collected s, I done collected s →
      ∃ y t, Returns (f x) s y t ∧ I (done ++ [x]) (collected ++ [y]) t)
    {done : List α} {collected : List β} (h : I done collected s) :
    ∃ values t, Returns (xs.foldlM (fun collected x => do
      let y ← f x
      return collected ++ [y]) collected) s values t ∧ I (done ++ xs) values t := by
  induction xs generalizing done collected s with
  | nil => exact ⟨collected, s, pure_iff.mpr ⟨rfl, rfl⟩, by rwa [List.append_nil]⟩
  | cons x xs ih =>
    obtain ⟨y, u, hy, hu⟩ := hstep x List.mem_cons_self done collected s h
    obtain ⟨values, t, hloop, ht⟩ :=
      ih (fun x hx => hstep x (List.mem_cons_of_mem _ hx)) hu
    rw [List.append_assoc] at ht
    refine ⟨values, t, ?_, ht⟩
    rw [List.foldlM_cons]
    exact bind_iff.mpr ⟨_, u, bind_iff.mpr ⟨y, u, hy, pure_iff.mpr ⟨rfl, rfl⟩⟩, hloop⟩

/-- **Loops that collect.** What a loop appends are the values of its turns, each from the state
that the turn before it ends in. -/
theorem exists_of_collect {f : α → Program ε σ β} {xs : List α} {ys zs : List β}
    (h : Returns (xs.foldlM (fun collected x => do
      let y ← f x
      return collected ++ [y]) ys) s zs t) :
    ∃ collected, zs = ys ++ collected ∧
      List.Forall₂ (fun x y => ∃ u v, Returns (f x) u y v) xs collected := by
  induction xs generalizing ys s with
  | nil =>
    obtain ⟨rfl, -⟩ := pure_iff.mp h
    exact ⟨[], by simp, .nil⟩
  | cons x xs ih =>
    rw [List.foldlM_cons] at h
    obtain ⟨next, u, hturn, h⟩ := bind_iff.mp h
    obtain ⟨y, v, hy, hnext⟩ := bind_iff.mp hturn
    obtain ⟨rfl, -⟩ := pure_iff.mp hnext
    obtain ⟨collected, rfl, hcollected⟩ := ih h
    exact ⟨y :: collected, by simp, .cons ⟨s, v, hy⟩ hcollected⟩

/-- **Simulation of loops.** Where every turn is simulated, so is the loop. -/
theorem collect_simulates {α' β' : Type} {S : σ → τ → Prop} {f : α → Program ε σ β}
    {g : α' → Program ε τ β'} {left : α → α'} {right : β → β'}
    (hstep : ∀ x y s t s', Returns (f x) s y t → S s s' →
      ∃ t', Returns (g (left x)) s' (right y) t' ∧ S t t')
    {xs : List α} {ys zs : List β} {s' : τ}
    (h : Returns (xs.foldlM (fun collected x => do
      let y ← f x
      return collected ++ [y]) ys) s zs t) (hs : S s s') :
    ∃ t', Returns ((xs.map left).foldlM (fun collected x => do
      let y ← g x
      return collected ++ [y]) (ys.map right)) s' (zs.map right) t' ∧ S t t' := by
  induction xs generalizing ys s s' with
  | nil =>
    obtain ⟨rfl, rfl⟩ := pure_iff.mp h
    exact ⟨s', pure_iff.mpr ⟨rfl, rfl⟩, hs⟩
  | cons x xs ih =>
    rw [List.foldlM_cons] at h
    obtain ⟨next, u, hturn, h⟩ := bind_iff.mp h
    obtain ⟨y, v, hy, hnext⟩ := bind_iff.mp hturn
    obtain ⟨rfl, rfl⟩ := pure_iff.mp hnext
    obtain ⟨u', hy', hu⟩ := hstep x y s u s' hy hs
    obtain ⟨t', hloop, ht⟩ := ih h hu
    refine ⟨t', ?_, ht⟩
    rw [List.map_cons, List.foldlM_cons]
    rw [List.map_append, List.map_singleton] at hloop
    exact bind_iff.mpr ⟨_, u', bind_iff.mpr ⟨right y, u', hy', pure_iff.mpr ⟨rfl, rfl⟩⟩, hloop⟩

end Returns

/-! ## Histories -/

section History

variable {ρ : Type} {Allowed : ρ → Prop} {program : ρ → Program ε σ Unit} {s t : σ}

/-- One run leaves the second state when it finds the first. -/
def Stops (Allowed : ρ → Prop) (program : ρ → Program ε σ Unit) (s t : σ) : Prop :=
  ∃ run, Allowed run ∧ (program run s).Leaves t

/-- What runs one after the other leave, each of them returned, raised or interrupted. -/
def History (Allowed : ρ → Prop) (program : ρ → Program ε σ Unit) : σ → σ → Prop :=
  Relation.ReflTransGen (Stops Allowed program)

/-- **The invariant rule for histories.** -/
theorem History.invariant {C : σ → Prop} (h : History Allowed program s t) (hs : C s)
    (hruns : ∀ run, Allowed run → Triple C (program run) (fun _ _ => True) C) : C t := by
  induction h with
  | refl => exact hs
  | tail _ hstops ih =>
    obtain ⟨run, hallowed, hleaves⟩ := hstops
    exact (hruns run hallowed).leaves _ ih _ hleaves

end History

end Interruption
