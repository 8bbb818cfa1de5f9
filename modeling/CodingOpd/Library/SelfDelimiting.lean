import Mathlib.Algebra.Group.Nat.Defs
import Mathlib.Data.Set.Function
import Mathlib.Data.Set.Prod
import Mathlib.Order.Interval.Set.Defs

/-!
# Self-delimiting codes

The code of a value is self-delimiting when whatever follows it can be told apart from it. Codes of
one length and texts behind a code of their length are, products of such codes are, and the codes of
a list of values in a row have only one reading.

## Main definitions

* `SelfDelimiting`: what is told apart behind a value
* `bigEndian`: a number in a fixed count of bytes

## Main results

* `SelfDelimiting.lengthPrefixed`: a list behind the code of its length
* `SelfDelimiting.prod`: two codes in a row
* `SelfDelimiting.flatMap_inj`: the codes of a list in a row
* `selfDelimiting_bigEndian`: numbers of a fixed count of bytes
-/

/-- The codes of the values of `s` tell where they end and what they are the codes of. -/
def SelfDelimiting {α β : Type*} (code : α → List β) (s : Set α) : Prop :=
  ∀ a ∈ s, ∀ b ∈ s, ∀ rest rest', code a ++ rest = code b ++ rest' → a = b ∧ rest = rest'

namespace SelfDelimiting

variable {α α' β : Type*} {code : α → List β} {code' : α' → List β} {s : Set α} {s' : Set α'}

theorem injOn (h : SelfDelimiting code s) : Set.InjOn code s := fun a ha b hb heq =>
  (h a ha b hb [] [] (congrArg (· ++ []) heq)).1

/-- Codes of one length are told apart by their places. -/
theorem of_length {n : ℕ} (hlength : ∀ a ∈ s, (code a).length = n) (hinj : Set.InjOn code s) :
    SelfDelimiting code s := by
  intro a ha b hb rest rest' heq
  obtain ⟨hcode, hrest⟩ := List.append_inj heq ((hlength a ha).trans (hlength b hb).symm)
  exact ⟨hinj ha hb hcode, hrest⟩

/-- The code of what a value determines and is determined by. -/
theorem comp (h : SelfDelimiting code s) {f : α' → α} (hf : Set.InjOn f s')
    (hmaps : Set.MapsTo f s' s) : SelfDelimiting (fun a => code (f a)) s' := by
  intro a ha b hb rest rest' heq
  obtain ⟨hvalue, hrest⟩ := h (f a) (hmaps ha) (f b) (hmaps hb) rest rest' heq
  exact ⟨hf ha hb hvalue, hrest⟩

/-- **Two codes in a row** are self-delimiting. -/
theorem prod (h : SelfDelimiting code s) (h' : SelfDelimiting code' s') :
    SelfDelimiting (fun p : α × α' => code p.1 ++ code' p.2) (s ×ˢ s') := by
  rintro ⟨a, a'⟩ ⟨ha, ha'⟩ ⟨b, b'⟩ ⟨hb, hb'⟩ rest rest' heq
  simp only [List.append_assoc] at heq
  obtain ⟨rfl, heq'⟩ := h a ha b hb _ _ heq
  obtain ⟨rfl, hrest⟩ := h' a' ha' b' hb' _ _ heq'
  exact ⟨rfl, hrest⟩

/-- **A list behind the code of its length** is self-delimiting. -/
theorem lengthPrefixed {header : ℕ → List β} {lengths : Set ℕ}
    (h : SelfDelimiting header lengths) :
    SelfDelimiting (fun xs : List β => header xs.length ++ xs) {xs | xs.length ∈ lengths} := by
  intro xs hxs ys hys rest rest' heq
  simp only [List.append_assoc] at heq
  obtain ⟨hlength, heq'⟩ := h xs.length hxs ys.length hys _ _ heq
  exact List.append_inj heq' hlength

/-- **The codes of a list in a row** have one reading, where none of them is empty. -/
theorem flatMap_inj (h : SelfDelimiting code s) (hne : ∀ a ∈ s, code a ≠ []) {xs ys : List α}
    (hxs : ∀ a ∈ xs, a ∈ s) (hys : ∀ a ∈ ys, a ∈ s) (heq : xs.flatMap code = ys.flatMap code) :
    xs = ys := by
  induction xs generalizing ys with
  | nil =>
    cases ys with
    | nil => rfl
    | cons b ys =>
      rw [List.flatMap_nil, List.flatMap_cons, eq_comm, List.append_eq_nil_iff] at heq
      exact absurd heq.1 (hne b (hys b List.mem_cons_self))
  | cons a xs ih =>
    obtain ⟨ha, hxs⟩ := List.forall_mem_cons.mp hxs
    cases ys with
    | nil =>
      rw [List.flatMap_nil, List.flatMap_cons, List.append_eq_nil_iff] at heq
      exact absurd heq.1 (hne a ha)
    | cons b ys =>
      obtain ⟨hb, hrest⟩ := List.forall_mem_cons.mp hys
      rw [List.flatMap_cons, List.flatMap_cons] at heq
      obtain ⟨hhead, htail⟩ := h a ha b hb _ _ heq
      rw [hhead, ih hxs hrest htail]

end SelfDelimiting

/-! ## Numbers -/

/-- A number in a count of bytes, the most significant one first. -/
def bigEndian : ℕ → ℕ → List UInt8
  | 0, _ => []
  | width + 1, n => bigEndian width (n / 256) ++ [UInt8.ofNat (n % 256)]

@[simp] theorem length_bigEndian (width n : ℕ) : (bigEndian width n).length = width := by
  induction width generalizing n with
  | zero => rfl
  | succ width ih => rw [bigEndian, List.length_append, ih, List.length_singleton]

theorem bigEndian_injOn (width : ℕ) : Set.InjOn (bigEndian width) (Set.Iio (256 ^ width)) := by
  induction width with
  | zero =>
    intro m hm n hn _
    exact (Nat.lt_one_iff.mp hm).trans (Nat.lt_one_iff.mp hn).symm
  | succ width ih =>
    intro m hm n hn heq
    rw [Set.mem_Iio, Nat.pow_succ] at hm hn
    obtain ⟨hhigh, hlow⟩ := List.append_inj' heq rfl
    have hdiv : m / 256 = n / 256 :=
      ih (Nat.div_lt_of_lt_mul (Nat.mul_comm _ _ ▸ hm))
        (Nat.div_lt_of_lt_mul (Nat.mul_comm _ _ ▸ hn)) hhigh
    have hmod : m % 256 = n % 256 := by
      have hbyte := congrArg UInt8.toNat (List.singleton_inj.mp hlow)
      rw [UInt8.toNat_ofNat', UInt8.toNat_ofNat'] at hbyte
      omega
    rw [← Nat.div_add_mod m 256, hdiv, hmod, Nat.div_add_mod]

/-- **Numbers of a fixed count of bytes** are self-delimiting. -/
theorem selfDelimiting_bigEndian (width : ℕ) :
    SelfDelimiting (bigEndian width) (Set.Iio (256 ^ width)) :=
  .of_length (fun n _ => length_bigEndian width n) (bigEndian_injOn width)
