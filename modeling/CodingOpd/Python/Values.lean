import Mathlib.Algebra.Order.Field.Basic
import Mathlib.Data.List.Forall2

/-!
# Python values

The exception classes the modelled code raises, and floats in exact arithmetic: a float is
a number of a field `K`, or one of the values `math.isfinite` rejects.

## Main definitions

* `PyError`: a raised exception and its message
* `PyFloat K`: a float whose finite values are the numbers of `K`
* `PyFloat.allFinite?`: the values of a list, when every one of them is finite
-/

namespace Python

/-- A raised exception. The message is the text the source passes, mostly without the values that
Python formats into it. A `networkError` is one of `URLError`, `TimeoutError`, `RemoteDisconnected`,
`ConnectionResetError` and `BrokenPipeError`; an `httpException` is another exception of
`http.client`, as `IncompleteRead`. -/
inductive PyError where
  | valueError (message : String)
  | keyError (message : String)
  | runtimeError (message : String)
  | assertionError (message : String)
  | attributeError (message : String)
  | typeError (message : String)
  | zeroDivisionError
  | fileNotFoundError (path : String)
  | httpError (code : ℕ)
  | networkError (message : String)
  | httpException (message : String)
  deriving DecidableEq, Repr

section

variable {α β : Type}

@[simp] theorem ok_bind {ε : Type} (a : α) (f : α → Except ε β) : (Except.ok a >>= f) = f a := rfl

@[simp] theorem error_bind {ε : Type} (error : ε) (f : α → Except ε β) :
    (Except.error error >>= f) = .error error := rfl

/-- A sequence of two computations returns when both do. -/
theorem bind_eq_ok {ε : Type} {x : Except ε α} {f : α → Except ε β} {b : β} :
    (x >>= f) = .ok b ↔ ∃ a, x = .ok a ∧ f a = .ok b := by
  cases x <;> simp

/-- A list is collected when every one of its computations returns. -/
theorem mapM_eq_ok {f : α → Except PyError β} {xs : List α} {ys : List β} :
    xs.mapM f = .ok ys ↔ List.Forall₂ (fun x y => f x = .ok y) xs ys := by
  induction xs generalizing ys with
  | nil =>
    rw [List.mapM_nil, List.forall₂_nil_left_iff]
    exact ⟨fun h => (Except.ok.inj h).symm, fun h => h ▸ rfl⟩
  | cons x xs ih =>
    rw [List.mapM_cons, bind_eq_ok]
    constructor
    · rintro ⟨y, hy, h⟩
      obtain ⟨rest, hrest, h⟩ := bind_eq_ok.mp h
      cases h
      exact .cons hy (ih.mp hrest)
    · rintro (_ | ⟨hy, hrest⟩)
      exact ⟨_, hy, bind_eq_ok.mpr ⟨_, ih.mpr hrest, rfl⟩⟩

theorem mapM_eq_ok_map {f : α → Except PyError β} {g : α → β} {xs : List α}
    (h : ∀ x ∈ xs, f x = .ok (g x)) : xs.mapM f = .ok (xs.map g) := by
  rw [mapM_eq_ok, List.forall₂_map_right_iff, List.forall₂_same]
  exact h

/-- A loop whose rounds all return. -/
theorem foldlM_eq_ok_foldl {σ : Type} {f : σ → α → Except PyError σ} {g : σ → α → σ}
    {xs : List α} (h : ∀ s, ∀ x ∈ xs, f s x = .ok (g s x)) (s : σ) :
    xs.foldlM f s = .ok (xs.foldl g s) := by
  induction xs generalizing s with
  | nil => rfl
  | cons x xs ih =>
    rw [List.foldlM_cons, h s x List.mem_cons_self, ok_bind, List.foldl_cons]
    exact ih (fun s y hy => h s y (List.mem_cons_of_mem x hy)) (g s x)

/-- Where a loop returns, so does one whose rounds return the same. -/
theorem foldlM_eq_ok_mono {σ : Type} {f g : σ → α → Except PyError σ} {xs : List α} {s t : σ}
    (h : ∀ s, ∀ x ∈ xs, ∀ t, f s x = .ok t → g s x = .ok t) (hfold : xs.foldlM f s = .ok t) :
    xs.foldlM g s = .ok t := by
  induction xs generalizing s with
  | nil => exact hfold
  | cons x xs ih =>
    rw [List.foldlM_cons] at hfold ⊢
    obtain ⟨next, hnext, hfold⟩ := bind_eq_ok.mp hfold
    rw [h s x List.mem_cons_self next hnext, ok_bind]
    exact ih (fun s y hy => h s y (List.mem_cons_of_mem x hy)) hfold

/-- What every round of a loop preserves holds behind it. -/
theorem foldlM_invariant {σ : Type} {P : σ → Prop} {f : σ → α → Except PyError σ} {xs : List α}
    {s t : σ} (hs : P s) (hfold : xs.foldlM f s = .ok t)
    (hstep : ∀ s x t, P s → f s x = .ok t → P t) : P t := by
  induction xs generalizing s with
  | nil =>
    cases hfold
    exact hs
  | cons x xs ih =>
    rw [List.foldlM_cons] at hfold
    obtain ⟨next, hnext, hfold⟩ := bind_eq_ok.mp hfold
    exact ih (hstep s x next hs hnext) hfold

/-- Every element of a list has its counterpart in a related one. -/
theorem exists_of_forall₂_left {R : α → β → Prop} {xs : List α} {ys : List β}
    (h : List.Forall₂ R xs ys) : ∀ x ∈ xs, ∃ y ∈ ys, R x y := by
  induction h with
  | nil => exact fun x hx => (nomatch hx)
  | cons hxy _ ih =>
    refine List.forall_mem_cons.mpr ⟨⟨_, List.mem_cons_self, hxy⟩, fun x hx => ?_⟩
    obtain ⟨y, hy, hR⟩ := ih x hx
    exact ⟨y, List.mem_cons_of_mem _ hy, hR⟩

theorem exists_of_forall₂_right {R : α → β → Prop} {xs : List α} {ys : List β}
    (h : List.Forall₂ R xs ys) : ∀ y ∈ ys, ∃ x ∈ xs, R x y :=
  exists_of_forall₂_left h.flip

/-- Where a list is collected, each of its elements was computed. -/
theorem exists_of_mapM_eq_ok {f : α → Except PyError β} {xs : List α} {ys : List β}
    (h : xs.mapM f = .ok ys) : ∀ x ∈ xs, ∃ y, f x = .ok y := by
  intro x hx
  obtain ⟨y, -, hy⟩ := exists_of_forall₂_left (mapM_eq_ok.mp h) x hx
  exact ⟨y, hy⟩

/-- A list is collected when each of its elements is computed, in whatever order they stand. -/
theorem exists_mapM_eq_ok {f : α → Except PyError β} {xs : List α}
    (h : ∀ x ∈ xs, ∃ y, f x = .ok y) : ∃ ys, xs.mapM f = .ok ys := by
  induction xs with
  | nil => exact ⟨[], rfl⟩
  | cons x xs ih =>
    obtain ⟨y, hy⟩ := h x List.mem_cons_self
    obtain ⟨ys, hys⟩ := ih fun x' hx' => h x' (List.mem_cons_of_mem x hx')
    exact ⟨y :: ys, mapM_eq_ok.mpr (.cons hy (mapM_eq_ok.mp hys))⟩

end

/-- `if not condition: raise error` -/
def raiseUnless (condition : Prop) [Decidable condition] (error : PyError) : Except PyError Unit :=
  if condition then .ok () else .error error

theorem raiseUnless_bind_eq_ok {α : Type} {condition : Prop} [Decidable condition]
    {error : PyError} {f : Unit → Except PyError α} {a : α} :
    (raiseUnless condition error >>= f) = .ok a ↔ condition ∧ f () = .ok a := by
  unfold raiseUnless
  split
  case isTrue h => exact (and_iff_right h).symm
  case isFalse h => exact iff_of_false (fun heq => (nomatch heq)) fun hand => h hand.1

/-- `value[name]`, of a value that may be missing. -/
def key {α : Type} (name : String) (value : Option α) : Except PyError α :=
  value.elim (.error (.keyError name)) .ok

theorem key_eq_ok {α : Type} {name : String} {value : Option α} {a : α} :
    key name value = .ok a ↔ value = some a := by
  cases value <;> simp [key]

/-- A float in exact arithmetic: a number, or a value that `math.isfinite` rejects. -/
inductive PyFloat (K : Type) where
  | finite (x : K)
  | inf (negative : Bool)
  | nan
  deriving DecidableEq, Repr

namespace PyFloat

variable {K : Type}

/-- The number a finite float stands for. -/
def toFinite? : PyFloat K → Option K
  | finite x => some x
  | inf _ => none
  | nan => none

@[simp] theorem toFinite?_finite (x : K) : (finite x).toFinite? = some x := rfl

theorem toFinite?_eq_some {v : PyFloat K} {x : K} : v.toFinite? = some x ↔ v = finite x := by
  cases v <;> simp [toFinite?]

/-- The numbers of a list on which `all(map(math.isfinite, ...))` holds. -/
def allFinite? (values : List (PyFloat K)) : Option (List K) := values.mapM toFinite?

@[simp] theorem allFinite?_nil : allFinite? ([] : List (PyFloat K)) = some [] := rfl

@[simp] theorem allFinite?_cons (v : PyFloat K) (values : List (PyFloat K)) :
    allFinite? (v :: values) =
      v.toFinite?.bind fun x => (allFinite? values).map fun xs => x :: xs := by
  cases v <;> cases h : values.mapM toFinite? <;> simp [allFinite?, List.mapM_cons, toFinite?, h]

theorem allFinite?_eq_some {values : List (PyFloat K)} {xs : List K} :
    allFinite? values = some xs ↔ values = xs.map finite := by
  induction values generalizing xs with
  | nil => cases xs <;> simp
  | cons v values ih =>
    cases xs with
    | nil => simp [Option.bind_eq_some_iff]
    | cons x xs =>
      simp only [allFinite?_cons, Option.bind_eq_some_iff, Option.map_eq_some_iff,
        List.cons.injEq, List.map_cons, toFinite?_eq_some, ih]
      constructor
      · rintro ⟨y, rfl, ys, hys, rfl, rfl⟩
        exact ⟨rfl, hys⟩
      · rintro ⟨rfl, hxs⟩
        exact ⟨x, rfl, xs, hxs, rfl, rfl⟩

end PyFloat

end Python
