import Mathlib.Data.List.DropRight
import CodingOpd.Python.Text

/-!
# Integers

`int(text)` reads a decimal integer: digits of any script, single underscores between them, a sign
in front and white space around it.

## Main definitions

* `decimalDigit`: the value of a digit
* `parseInt`: `int(text)`

## Main results

* `parseInt_toString`: an integer is read back from its text
-/

namespace Python

/-- The zeros of the scripts other than ASCII that have decimal digits. -/
def foreignZeros : List ℕ :=
  [0x660, 0x6f0, 0x7c0, 0x966, 0x9e6, 0xa66, 0xae6, 0xb66, 0xbe6, 0xc66, 0xce6, 0xd66, 0xde6,
    0xe50, 0xed0, 0xf20, 0x1040, 0x1090, 0x17e0, 0x1810, 0x1946, 0x19d0, 0x1a80, 0x1a90, 0x1b50,
    0x1bb0, 0x1c40, 0x1c50, 0xa620, 0xa8d0, 0xa900, 0xa9d0, 0xa9f0, 0xaa50, 0xabf0, 0xff10,
    0x104a0, 0x10d30, 0x11066, 0x110f0, 0x11136, 0x111d0, 0x112f0, 0x11450, 0x114d0, 0x11650,
    0x116c0, 0x11730, 0x118e0, 0x11950, 0x11c50, 0x11d50, 0x11da0, 0x11f50, 0x16a60, 0x16ac0,
    0x16b50, 0x1d7ce, 0x1d7d8, 0x1d7e2, 0x1d7ec, 0x1d7f6, 0x1e140, 0x1e2f0, 0x1e4f0, 0x1e950,
    0x1fbf0]

/-- `unicodedata.decimal(c)` -/
def decimalDigit (c : Char) : Option ℕ :=
  ((0x30 :: foreignZeros).find? fun first => first ≤ c.toNat ∧ c.toNat < first + 10).map
    (c.toNat - ·)

/-- The white space around an integer. The separators of ASCII are none. -/
def isIntSpace (c : Char) : Bool := isSpace c && !(c ∈ ['\x1c', '\x1d', '\x1e', '\x1f'])

/-- The value of the digits of a text, behind those of a value. -/
def digitsFrom (value : ℕ) : Text → Option ℕ
  | [] => some value
  | '_' :: c :: rest => (decimalDigit c).bind fun digit => digitsFrom (value * 10 + digit) rest
  | c :: rest => (decimalDigit c).bind fun digit => digitsFrom (value * 10 + digit) rest

/-- The value of a text of digits. -/
def natOf : Text → Option ℕ
  | [] => none
  | c :: rest => (decimalDigit c).bind fun digit => digitsFrom digit rest

/-- An integer without white space around it. -/
def signedOf : Text → Option ℤ
  | '+' :: rest => (natOf rest).map (↑·)
  | '-' :: rest => (natOf rest).map fun n => -↑n
  | text => (natOf text).map (↑·)

/-- `int(text)`, where it does not raise. -/
def parseInt (text : Text) : Option ℤ :=
  signedOf ((text.dropWhile isIntSpace).rdropWhile isIntSpace)

/-! ## Decimal texts -/

theorem decimalDigit_of_isDigit {c : Char} (h : c.isDigit = true) :
    decimalDigit c = some (c.toNat - '0'.toNat) := by
  obtain ⟨hlow, hhigh⟩ := Char.isDigit_iff_toNat.mp h
  have hfirst : (0x30 :: foreignZeros).find? (fun first => first ≤ c.toNat ∧ c.toNat < first + 10) =
      some 0x30 :=
    List.find?_cons_of_pos (decide_eq_true ⟨hlow, Nat.lt_succ_of_le hhigh⟩)
  rw [decimalDigit, hfirst]
  rfl

theorem isDigit_of_isSpace {c : Char} (h : isSpace c = true) : c.isDigit = false := by
  refine (forall_of_all ?_ : ∀ d ∈ _, d.isDigit = false) c (of_decide_eq_true h)
  decide

theorem isIntSpace_of_isDigit {c : Char} (h : c.isDigit = true) : isIntSpace c = false := by
  rw [isIntSpace, Bool.and_eq_false_iff]
  refine Or.inl (Bool.eq_false_iff.mpr fun hspace => ?_)
  rw [isDigit_of_isSpace hspace] at h
  cases h

/-- Digits of ASCII add up as in the positional system. -/
theorem digitsFrom_eq {digits : Text} (h : ∀ c ∈ digits, c.isDigit = true) (value : ℕ) :
    digitsFrom value digits = some (Nat.ofDigitChars 10 digits value) := by
  induction digits generalizing value with
  | nil => rw [digitsFrom, Nat.ofDigitChars_nil]
  | cons c digits ih =>
    obtain ⟨hc, hdigits⟩ := List.forall_mem_cons.mp h
    have hline : c ≠ '_' := by
      rintro rfl
      exact absurd hc (by decide)
    rw [digitsFrom, decimalDigit_of_isDigit hc, Option.bind_some, ih hdigits,
      Nat.ofDigitChars_cons, Nat.mul_comm]
    rintro _ _ rfl
    exact absurd rfl hline

theorem natOf_toDigits (n : ℕ) : natOf (Nat.toDigits 10 n) = some n := by
  have hdigits : ∀ c ∈ Nat.toDigits 10 n, c.isDigit = true := fun c hc =>
    Nat.isDigit_of_mem_toDigits (by decide) (by decide) hc
  cases htext : Nat.toDigits 10 n with
  | nil => exact absurd htext Nat.toDigits_ne_nil
  | cons c rest =>
    have hvalue : Nat.ofDigitChars 10 (c :: rest) 0 = n := htext ▸ Nat.ofDigitChars_ten_toDigits
    rw [htext] at hdigits
    obtain ⟨hc, hrest⟩ := List.forall_mem_cons.mp hdigits
    rw [natOf, decimalDigit_of_isDigit hc, Option.bind_some, digitsFrom_eq hrest]
    rw [Nat.ofDigitChars_cons, Nat.mul_zero, Nat.zero_add] at hvalue
    rw [hvalue]

/-- The white space of a text that has none at its ends. -/
theorem parseInt_eq_signedOf {text : Text} (hhead : ∀ c ∈ text.head?, isIntSpace c = false)
    (hlast : ∀ c ∈ text.getLast?, isIntSpace c = false) : parseInt text = signedOf text := by
  have hdrop : text.dropWhile isIntSpace = text := by
    cases text with
    | nil => rfl
    | cons c rest =>
      rw [List.dropWhile_cons_of_neg]
      rw [hhead c rfl]
      exact Bool.false_ne_true
  have hrdrop : text.rdropWhile isIntSpace = text := by
    rw [List.rdropWhile_eq_self_iff]
    intro hne
    rw [hlast _ (List.getLast_mem_getLast? hne)]
    exact Bool.false_ne_true
  rw [parseInt, hdrop, hrdrop]

theorem signedOf_toDigits (n : ℕ) : signedOf (Nat.toDigits 10 n) = some (n : ℤ) := by
  have hdigits : ∀ c ∈ Nat.toDigits 10 n, c.isDigit = true := fun c hc =>
    Nat.isDigit_of_mem_toDigits (by decide) (by decide) hc
  unfold signedOf
  split
  · rename_i rest htext
    exact absurd (hdigits '+' (htext ▸ List.mem_cons_self)) (by decide)
  · rename_i rest htext
    exact absurd (hdigits '-' (htext ▸ List.mem_cons_self)) (by decide)
  · rw [natOf_toDigits]
    rfl

/-- **An integer is read back from its text.** -/
theorem parseInt_toString (n : ℤ) : parseInt (toString n).toList = some n := by
  have hdigits : ∀ m : ℕ, ∀ c ∈ Nat.toDigits 10 m, isIntSpace c = false := fun m c hc =>
    isIntSpace_of_isDigit (Nat.isDigit_of_mem_toDigits (by decide) (by decide) hc)
  rw [Int.toString_eq_repr, Int.repr_eq_if]
  split
  case isTrue hnonneg =>
    rw [Nat.toList_repr, parseInt_eq_signedOf, signedOf_toDigits, Int.toNat_of_nonneg hnonneg]
    · exact fun c hc => hdigits _ c (List.mem_of_mem_head? hc)
    · exact fun c hc => hdigits _ c (List.mem_of_mem_getLast? hc)
  case isFalse hneg =>
    have htext : ("-" ++ (-n).toNat.repr).toList = '-' :: Nat.toDigits 10 (-n).toNat := by
      rw [String.toList_append, Nat.toList_repr]
      rfl
    rw [htext, parseInt_eq_signedOf, signedOf, natOf_toDigits, Option.map_some,
      Int.toNat_of_nonneg (by omega), Int.neg_neg]
    · intro c hc
      cases hc
      decide
    · intro c hc
      rcases List.mem_cons.mp (List.mem_of_mem_getLast? hc) with rfl | hmem
      · decide
      · exact hdigits _ c hmem

end Python
