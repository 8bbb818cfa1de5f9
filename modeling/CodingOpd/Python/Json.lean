import Mathlib.Data.List.TakeWhile
import CodingOpd.Python.Text

/-!
# JSON texts

`json.loads` of a text: a value, with white space around it and nothing else. Python's dialect has
`NaN` and the infinities as well, and its strings may hold lone surrogates.

A text is followed by its quotes: outside of the strings of a JSON text stand printable characters
of ASCII and white space, and a string has no control characters.

## Main definitions

* `Json`, `loads`: the decoded values, and `json.loads`
* `Quote`, `Quote.run`: where a text stands with respect to its strings

## Main results

* `run_of_loads`: what a text that decodes is made of
* `loads_cut`: what stands before a foreign character of a JSON text is none
* `scanOnce_eq_of_le`: the depth of `loads` is enough
-/

namespace Python

/-- A string with its code points, which may be surrogates. -/
abbrev Codes := List ℕ

/-- A decoded value. A number is known by its literal, and the later pairs of an object count. -/
inductive Json where
  | null
  | bool (value : Bool)
  | number (literal : Text)
  | string (codes : Codes)
  | array (items : List Json)
  | object (pairs : List (Codes × Json))

namespace Json

/-! ## Decoding -/

/-- `WHITESPACE`. -/
def isSpace (c : Char) : Bool := c ∈ [' ', '\t', '\n', '\r']

/-- The rest of a text behind white space. -/
def skipSpace (text : Text) : Text := text.dropWhile isSpace

/-- The rest of a text behind a character. -/
def expect (c : Char) : Text → Option Text
  | [] => none
  | d :: rest => if d = c then some rest else none

section Numbers

/-- The digits at the front of a text. -/
def digits (text : Text) : Text := text.takeWhile Char.isDigit

/-- `-?` -/
def signPart : Text → Text
  | '-' :: _ => ['-']
  | _ => []

/-- `0|[1-9][0-9]*` -/
def integerPart : Text → Text
  | '0' :: _ => ['0']
  | text => digits text

/-- `(\.[0-9]+)?` -/
def fractionPart : Text → Text
  | '.' :: text => if digits text = [] then [] else '.' :: digits text
  | _ => []

/-- `[-+]?` -/
def exponentSign : Text → Text
  | '+' :: _ => ['+']
  | '-' :: _ => ['-']
  | _ => []

/-- `([eE][-+]?[0-9]+)?` -/
def exponentPart : Text → Text
  | [] => []
  | c :: text =>
    let sign := exponentSign text
    let exponent := digits (text.drop sign.length)
    if (c = 'e' ∨ c = 'E') ∧ exponent ≠ [] then c :: (sign ++ exponent) else []

/-- What a part of a number and the part behind it take of a text. -/
def followedBy (first second : Text → Text) (text : Text) : Text :=
  first text ++ second (text.drop (first text).length)

/-- `NUMBER_RE`, at the front of a text. -/
def scanNumber (text : Text) : Option (Text × Text) :=
  if integerPart (text.drop (signPart text).length) = [] then none
  else
    let literal :=
      followedBy signPart (followedBy integerPart (followedBy fractionPart exponentPart)) text
    some (literal, text.drop literal.length)

end Numbers

/-- The value of a hexadecimal digit. -/
def hexDigit (c : Char) : Option ℕ :=
  if '0' ≤ c ∧ c ≤ '9' then some (c.toNat - '0'.toNat)
  else if 'a' ≤ c ∧ c ≤ 'f' then some (c.toNat - 'a'.toNat + 10)
  else if 'A' ≤ c ∧ c ≤ 'F' then some (c.toNat - 'A'.toNat + 10)
  else none

/-- `_decode_uXXXX`. -/
def hexValue (a b c d : Char) : Option ℕ := do
  let a ← hexDigit a
  let b ← hexDigit b
  let c ← hexDigit c
  let d ← hexDigit d
  return ((a * 16 + b) * 16 + c) * 16 + d

/-- `BACKSLASH`. -/
def escape : Char → Option Char
  | '"' => some '"'
  | '\\' => some '\\'
  | '/' => some '/'
  | 'b' => some '\x08'
  | 'f' => some '\x0c'
  | 'n' => some '\n'
  | 'r' => some '\r'
  | 't' => some '\t'
  | _ => none

/-- A string behind its opening quote, and the rest of the text behind its closing quote. -/
def scanString : Text → Option (Codes × Text)
  | [] => none
  | '"' :: rest => some ([], rest)
  | '\\' :: 'u' :: a :: b :: c :: d :: rest => do
    let code ← hexValue a b c d
    let (codes, rest) ← scanString rest
    return (code :: codes, rest)
  | '\\' :: e :: rest => do
    let c ← escape e
    let (codes, rest) ← scanString rest
    return (c.toNat :: codes, rest)
  | c :: rest =>
    if c = '\\' ∨ c.toNat < 0x20 then none
    else do
      let (codes, rest) ← scanString rest
      return (c.toNat :: codes, rest)

/-- The escapes of a surrogate pair stand for one character. -/
def joinSurrogates : Codes → Codes
  | high :: low :: rest =>
    if 0xd800 ≤ high ∧ high ≤ 0xdbff ∧ 0xdc00 ≤ low ∧ low ≤ 0xdfff then
      (0x10000 + (high - 0xd800) * 0x400 + (low - 0xdc00)) :: joinSurrogates rest
    else high :: joinSurrogates (low :: rest)
  | codes => codes

/-- The words that stand for a value; those of `_CONSTANTS` are numbers. -/
def constants : List (Text × Json) :=
  let number word := (word, Json.number word)
  [(['n', 'u', 'l', 'l'], .null), (['t', 'r', 'u', 'e'], .bool true),
    (['f', 'a', 'l', 's', 'e'], .bool false), number ['N', 'a', 'N'],
    number ['I', 'n', 'f', 'i', 'n', 'i', 't', 'y'],
    number ['-', 'I', 'n', 'f', 'i', 'n', 'i', 't', 'y']]

mutual

/-- `scan_once`, to a depth of nesting. -/
def scanOnce : ℕ → Text → Option (Json × Text)
  | 0, _ => none
  | depth + 1, text =>
    match text with
    | '"' :: rest => do
      let (codes, rest) ← scanString rest
      return (.string (joinSurrogates codes), rest)
    | '{' :: rest =>
      match skipSpace rest with
      | '}' :: rest => some (.object [], rest)
      | '"' :: rest => do
        let (pairs, rest) ← scanPairs depth rest
        return (.object pairs, rest)
      | _ => none
    | '[' :: rest =>
      match skipSpace rest with
      | ']' :: rest => some (.array [], rest)
      | rest => do
        let (items, rest) ← scanItems depth rest
        return (.array items, rest)
    | text =>
      match constants.find? (·.1.isPrefixOf text) with
      | some (word, value) => some (value, text.drop word.length)
      | none => do
        let (literal, rest) ← scanNumber text
        return (.number literal, rest)

/-- The pairs of an object, behind the opening quote of a key. -/
def scanPairs : ℕ → Text → Option (List (Codes × Json) × Text)
  | 0, _ => none
  | depth + 1, text => do
    let (codes, rest) ← scanString text
    let rest ← expect ':' (skipSpace rest)
    let (value, rest) ← scanOnce depth (skipSpace rest)
    match skipSpace rest with
    | '}' :: rest => return ([(joinSurrogates codes, value)], rest)
    | ',' :: rest => do
      let rest ← expect '"' (skipSpace rest)
      let (pairs, rest) ← scanPairs depth rest
      return ((joinSurrogates codes, value) :: pairs, rest)
    | _ => none

/-- The items of an array. -/
def scanItems : ℕ → Text → Option (List Json × Text)
  | 0, _ => none
  | depth + 1, text => do
    let (value, rest) ← scanOnce depth text
    match skipSpace rest with
    | ']' :: rest => return ([value], rest)
    | ',' :: rest => do
      let (items, rest) ← scanItems depth (skipSpace rest)
      return (value :: items, rest)
    | _ => none

end

/-- `json.loads`, which raises where there is no value. The depth is enough for every nesting. -/
def loads (text : Text) : Option Json :=
  if text.head? = some '\ufeff' then none
  else do
    let (value, rest) ← scanOnce (2 * text.length + 1) (skipSpace text)
    if skipSpace rest = [] then return value else none

/-! ## Quotes -/

/-- White space, or a printable character of ASCII. -/
def isPlain (c : Char) : Bool := isSpace c || (0x21 ≤ c.toNat && c.toNat ≤ 0x7e)

/-- Where a text stands: outside of its strings, inside of one, or behind a backslash in one. -/
inductive Quote where
  | outside
  | inside
  | escaped
deriving DecidableEq

namespace Quote

/-- One character of a JSON text. -/
def next : Quote → Char → Option Quote
  | outside, c =>
    if c = '"' then some inside else if isPlain c then some outside else none
  | inside, c =>
    if c = '"' then some outside
    else if c = '\\' then some escaped
    else if c.toNat < 0x20 then none else some inside
  | escaped, c => if isPlain c then some inside else none

/-- The characters of a text. -/
def run (quote : Quote) (text : Text) : Option Quote := text.foldlM next quote

theorem run_append (quote : Quote) (text rest : Text) :
    quote.run (text ++ rest) = quote.run text >>= fun quote => quote.run rest :=
  List.foldlM_append

theorem run_cons (quote : Quote) (c : Char) (text : Text) :
    quote.run (c :: text) = quote.next c >>= fun quote => quote.run text :=
  List.foldlM_cons

end Quote

/-- What is taken off the front of a text ends outside of its strings. -/
def Takes (quote : Quote) (text rest : Text) : Prop :=
  ∃ used, text = used ++ rest ∧ quote.run used = some .outside

namespace Takes

variable {quote : Quote} {text rest last : Text} {c : Char}

theorem refl (text : Text) : Takes .outside text text := ⟨[], rfl, rfl⟩

theorem trans (h : Takes quote text rest) (h' : Takes .outside rest last) :
    Takes quote text last := by
  obtain ⟨used, rfl, hused⟩ := h
  obtain ⟨more, rfl, hmore⟩ := h'
  refine ⟨used ++ more, (List.append_assoc _ _ _).symm, ?_⟩
  rw [Quote.run_append, hused]
  exact hmore

theorem cons {quote' : Quote} (hc : quote.next c = some quote') (h : Takes quote' text rest) :
    Takes quote (c :: text) rest := by
  obtain ⟨used, rfl, hused⟩ := h
  refine ⟨c :: used, rfl, ?_⟩
  rw [Quote.run_cons, hc]
  exact hused

/-- Plain characters outside of a string. -/
theorem plain {used : Text} (h : ∀ c ∈ used, isPlain c ∧ c ≠ '"') (rest : Text) :
    Takes .outside (used ++ rest) rest := by
  induction used with
  | nil => exact refl rest
  | cons c used ih =>
    obtain ⟨⟨hplain, hquote⟩, hused⟩ := List.forall_mem_cons.mp h
    have hnext : Quote.next .outside c = some .outside := by
      rw [Quote.next, if_neg hquote, if_pos hplain]
    exact cons hnext (ih hused)

theorem skipSpace (text : Text) : Takes .outside text (skipSpace text) := by
  conv in Takes _ text => rw [← List.takeWhile_append_dropWhile (p := isSpace) (l := text)]
  apply plain
  intro c hmem
  have hspace : isSpace c := List.mem_takeWhile_imp hmem
  refine ⟨by simp [isPlain, hspace], ?_⟩
  rintro rfl
  exact absurd hspace (by decide)

theorem length_le (h : Takes quote text rest) : rest.length ≤ text.length := by
  obtain ⟨used, rfl, -⟩ := h
  rw [List.length_append]
  exact Nat.le_add_left _ _

/-- Behind a string or an escape something has been taken. -/
theorem length_lt (h : Takes quote text rest) (hquote : quote ≠ .outside) :
    rest.length < text.length := by
  obtain ⟨used, rfl, hused⟩ := h
  cases used with
  | nil => exact absurd (Option.some_inj.mp hused) hquote
  | cons c used =>
    rw [List.length_append, List.length_cons]
    omega

end Takes

theorem expect_eq_some {c : Char} {text rest : Text} (h : expect c text = some rest) :
    text = c :: rest := by
  cases text with
  | nil => exact absurd h (by simp [expect])
  | cons d text =>
    simp only [expect, Option.ite_none_right_eq_some, Option.some_inj] at h
    rw [h.1, h.2]

theorem hexDigit_next {c : Char} {code : ℕ} (h : hexDigit c = some code) :
    Quote.next .inside c = some .inside := by
  have hrange : ('0' ≤ c ∧ c ≤ '9') ∨ ('a' ≤ c ∧ c ≤ 'f') ∨ ('A' ≤ c ∧ c ≤ 'F') := by
    unfold hexDigit at h
    split_ifs at h with hdigit hlower hupper
    · exact Or.inl hdigit
    · exact Or.inr (Or.inl hlower)
    · exact Or.inr (Or.inr hupper)
  have hquote : c ≠ '"' := by
    rintro rfl
    exact absurd hrange (by decide)
  have hbackslash : c ≠ '\\' := by
    rintro rfl
    exact absurd hrange (by decide)
  have hcontrol : ¬ c.toNat < 0x20 := by
    simp only [Char.le_def, UInt32.le_iff_toNat_le] at hrange
    change ¬ c.val.toNat < 32
    rcases hrange with ⟨hle, -⟩ | ⟨hle, -⟩ | ⟨hle, -⟩
    · exact fun hlt => absurd (hle.trans_lt hlt) (by decide)
    · exact fun hlt => absurd (hle.trans_lt hlt) (by decide)
    · exact fun hlt => absurd (hle.trans_lt hlt) (by decide)
  rw [Quote.next, if_neg hquote, if_neg hbackslash, if_neg hcontrol]

theorem escape_next {e c : Char} (h : escape e = some c) :
    Quote.next .escaped e = some .inside := by
  unfold escape at h
  split at h <;> first | rfl | exact absurd h (by simp)

theorem scanString_takes {text rest : Text} {codes : Codes}
    (h : scanString text = some (codes, rest)) : Takes .inside text rest := by
  fun_induction scanString text generalizing codes rest with
  | case1 => exact absurd h (by simp)
  | case2 text =>
    cases h
    exact (Takes.refl _).cons rfl
  | case3 a b c d text ih =>
    obtain ⟨code, hcode, h⟩ := Option.bind_eq_some_iff.mp h
    obtain ⟨⟨codes', rest'⟩, hscan, h⟩ := Option.bind_eq_some_iff.mp h
    cases h
    obtain ⟨_, ha, hcode⟩ := Option.bind_eq_some_iff.mp hcode
    obtain ⟨_, hb, hcode⟩ := Option.bind_eq_some_iff.mp hcode
    obtain ⟨_, hc, hcode⟩ := Option.bind_eq_some_iff.mp hcode
    obtain ⟨_, hd, -⟩ := Option.bind_eq_some_iff.mp hcode
    have hdigits := ((((ih hscan).cons (hexDigit_next hd)).cons (hexDigit_next hc)).cons
      (hexDigit_next hb)).cons (hexDigit_next ha)
    have hescape : Takes .escaped ('u' :: a :: b :: c :: d :: text) rest := hdigits.cons rfl
    exact hescape.cons rfl
  | case4 e text _ ih =>
    obtain ⟨c, hescape, h⟩ := Option.bind_eq_some_iff.mp h
    obtain ⟨⟨codes', rest'⟩, hscan, h⟩ := Option.bind_eq_some_iff.mp h
    cases h
    exact ((ih hscan).cons (escape_next hescape)).cons rfl
  | case5 => exact absurd h (by simp)
  | case6 c text hquote _ _ hchar ih =>
    obtain ⟨⟨codes', rest'⟩, hscan, h⟩ := Option.bind_eq_some_iff.mp h
    cases h
    rw [not_or] at hchar
    apply (ih hscan).cons
    rw [Quote.next, if_neg hquote, if_neg hchar.1, if_neg hchar.2]

section Numbers

/-- What a part of a number takes is plain, and stands at the front of the text. -/
def PlainPart (part : Text → Text) : Prop :=
  ∀ text, part text <+: text ∧ ∀ c ∈ part text, isPlain c ∧ c ≠ '"'

theorem isDigit_plain {c : Char} (h : c.isDigit) : isPlain c ∧ c ≠ '"' := by
  constructor
  · simp only [Char.isDigit, Bool.and_eq_true, decide_eq_true_eq, ge_iff_le,
      UInt32.le_iff_toNat_le] at h
    obtain ⟨hlower, hupper⟩ := h
    have hlower : 0x21 ≤ c.toNat := le_trans (by decide) hlower
    have hupper : c.toNat ≤ 0x7e := le_trans hupper (by decide)
    simp [isPlain, hlower, hupper]
  · rintro rfl
    exact absurd h (by decide)

theorem digits_plain : PlainPart digits := fun _ =>
  ⟨List.takeWhile_prefix _, fun _ hmem => isDigit_plain (List.mem_takeWhile_imp hmem)⟩

theorem signPart_plain : PlainPart signPart := by
  intro text
  unfold signPart
  split
  · exact ⟨⟨_, rfl⟩, forall_of_all (by decide)⟩
  · exact ⟨List.nil_prefix, by simp⟩

theorem integerPart_plain : PlainPart integerPart := by
  intro text
  unfold integerPart
  split
  · exact ⟨⟨_, rfl⟩, forall_of_all (by decide)⟩
  · exact digits_plain text

theorem fractionPart_plain : PlainPart fractionPart := by
  intro text
  unfold fractionPart
  split
  · rename_i text
    obtain ⟨hstarts, hplain⟩ := digits_plain text
    split_ifs
    · exact ⟨List.nil_prefix, by simp⟩
    · exact ⟨(List.cons_prefix_cons).mpr ⟨rfl, hstarts⟩,
        List.forall_mem_cons.mpr ⟨by decide, hplain⟩⟩
  · exact ⟨List.nil_prefix, by simp⟩

theorem exponentSign_plain : PlainPart exponentSign := by
  intro text
  unfold exponentSign
  split
  · exact ⟨⟨_, rfl⟩, forall_of_all (by decide)⟩
  · exact ⟨⟨_, rfl⟩, forall_of_all (by decide)⟩
  · exact ⟨List.nil_prefix, by simp⟩

theorem PlainPart.followedBy {first second : Text → Text} (h : PlainPart first)
    (h' : PlainPart second) : PlainPart (followedBy first second) := by
  intro text
  obtain ⟨⟨rest, hrest⟩, hplain⟩ := h text
  obtain ⟨hstarts, hplain'⟩ := h' (text.drop (first text).length)
  constructor
  · conv_rhs => rw [← List.take_append_drop (first text).length text]
    rw [← List.prefix_iff_eq_take.mp ⟨rest, hrest⟩]
    exact (List.prefix_append_right_inj _).mpr hstarts
  · intro c hmem
    rcases List.mem_append.mp hmem with hfirst | hsecond
    · exact hplain c hfirst
    · exact hplain' c hsecond

theorem exponentPart_plain : PlainPart exponentPart := by
  intro text
  cases text with
  | nil => exact ⟨List.nil_prefix, by simp [exponentPart]⟩
  | cons c text =>
    obtain ⟨hstarts, hplain⟩ := exponentSign_plain.followedBy digits_plain text
    rw [exponentPart]
    split_ifs with hexponent
    · refine ⟨(List.cons_prefix_cons).mpr ⟨rfl, hstarts⟩, List.forall_mem_cons.mpr ⟨?_, hplain⟩⟩
      rcases hexponent.1 with rfl | rfl <;> decide
    · exact ⟨List.nil_prefix, by simp⟩

theorem scanNumber_takes {text literal rest : Text} (h : scanNumber text = some (literal, rest)) :
    Takes .outside text rest := by
  unfold scanNumber at h
  split_ifs at h
  cases h
  obtain ⟨hstarts, hplain⟩ := (signPart_plain.followedBy (integerPart_plain.followedBy
    (fractionPart_plain.followedBy exponentPart_plain))) text
  have htext := List.prefix_iff_eq_append.mp hstarts
  conv in Takes _ text => rw [← htext]
  exact Takes.plain hplain _

end Numbers

/-! ## What the scanners take -/

theorem constants_plain : ∀ constant ∈ constants, ∀ c ∈ constant.1, isPlain c ∧ c ≠ '"' := by
  intro constant hmem
  apply forall_of_all
  revert constant
  decide

/-- The scanners of a depth take what ends outside of the strings. -/
structure ScansTake (depth : ℕ) : Prop where
  once : ∀ {text rest value}, scanOnce depth text = some (value, rest) → Takes .outside text rest
  pairs : ∀ {text rest pairs}, scanPairs depth text = some (pairs, rest) → Takes .inside text rest
  items : ∀ {text rest items}, scanItems depth text = some (items, rest) → Takes .outside text rest

namespace ScansTake

variable {depth : ℕ} (ih : ScansTake depth)
include ih

theorem scanOnce_succ {text rest : Text} {value : Json}
    (h : scanOnce (depth + 1) text = some (value, rest)) : Takes .outside text rest := by
  unfold scanOnce at h
  split at h
  · -- a string
    obtain ⟨⟨codes, rest'⟩, hscan, h⟩ := Option.bind_eq_some_iff.mp h
    cases h
    exact (scanString_takes hscan).cons rfl
  · -- an object
    rename_i text
    have hspace : Takes .outside ('{' :: text) (skipSpace text) := (Takes.skipSpace text).cons rfl
    split at h
    · rename_i hnext
      cases h
      rw [hnext] at hspace
      exact hspace.trans ((Takes.refl _).cons rfl)
    · rename_i hnext
      obtain ⟨⟨pairs, rest'⟩, hscan, h⟩ := Option.bind_eq_some_iff.mp h
      cases h
      rw [hnext] at hspace
      exact hspace.trans ((ih.pairs hscan).cons rfl)
    · exact absurd h (by simp)
  · -- an array
    rename_i text
    have hspace : Takes .outside ('[' :: text) (skipSpace text) := (Takes.skipSpace text).cons rfl
    split at h
    · rename_i hnext
      cases h
      rw [hnext] at hspace
      exact hspace.trans ((Takes.refl _).cons rfl)
    · obtain ⟨⟨items, rest'⟩, hscan, h⟩ := Option.bind_eq_some_iff.mp h
      cases h
      exact hspace.trans (ih.items hscan)
  · split at h
    · -- a word
      rename_i word _ hfound
      cases h
      have hword := List.find?_some hfound
      rw [List.isPrefixOf_iff_prefix, List.prefix_iff_eq_append] at hword
      conv in Takes _ text => rw [← hword]
      exact Takes.plain (constants_plain _ (List.mem_of_find?_eq_some hfound)) _
    · -- a number
      obtain ⟨⟨literal, rest'⟩, hscan, h⟩ := Option.bind_eq_some_iff.mp h
      cases h
      exact scanNumber_takes hscan

theorem scanPairs_succ {text rest : Text} {pairs : List (Codes × Json)}
    (h : scanPairs (depth + 1) text = some (pairs, rest)) : Takes .inside text rest := by
  unfold scanPairs at h
  obtain ⟨⟨codes, afterKey⟩, hkey, h⟩ := Option.bind_eq_some_iff.mp h
  obtain ⟨afterColon, hcolon, h⟩ := Option.bind_eq_some_iff.mp h
  obtain ⟨⟨value, afterValue⟩, hvalue, h⟩ := Option.bind_eq_some_iff.mp h
  have hmember : Takes .inside text (skipSpace afterValue) := by
    have hskipped := Takes.skipSpace afterKey
    rw [expect_eq_some hcolon] at hskipped
    have hcolon : Takes .outside (':' :: afterColon) (skipSpace afterColon) :=
      (Takes.skipSpace afterColon).cons rfl
    exact (scanString_takes hkey).trans (hskipped.trans (hcolon.trans
      ((ih.once hvalue).trans (Takes.skipSpace afterValue))))
  simp only at h
  split at h
  · rename_i hnext
    cases h
    rw [hnext] at hmember
    exact hmember.trans ((Takes.refl _).cons rfl)
  · rename_i afterComma hnext
    obtain ⟨afterQuote, hquote, h⟩ := Option.bind_eq_some_iff.mp h
    obtain ⟨⟨pairs', rest'⟩, hpairs, h⟩ := Option.bind_eq_some_iff.mp h
    cases h
    have hskipped := Takes.skipSpace afterComma
    rw [expect_eq_some hquote] at hskipped
    have hnextPair : Takes .outside ('"' :: afterQuote) rest' := (ih.pairs hpairs).cons rfl
    have hcomma : Takes .outside (',' :: afterComma) rest' := (hskipped.trans hnextPair).cons rfl
    rw [hnext] at hmember
    exact hmember.trans hcomma
  · exact absurd h (by simp)

theorem scanItems_succ {text rest : Text} {items : List Json}
    (h : scanItems (depth + 1) text = some (items, rest)) : Takes .outside text rest := by
  unfold scanItems at h
  obtain ⟨⟨value, afterValue⟩, hvalue, h⟩ := Option.bind_eq_some_iff.mp h
  have hitem : Takes .outside text (skipSpace afterValue) :=
    (ih.once hvalue).trans (Takes.skipSpace afterValue)
  simp only at h
  split at h
  · rename_i hnext
    cases h
    rw [hnext] at hitem
    exact hitem.trans ((Takes.refl _).cons rfl)
  · rename_i afterComma hnext
    obtain ⟨⟨items', rest'⟩, hitems, h⟩ := Option.bind_eq_some_iff.mp h
    cases h
    have hcomma : Takes .outside (',' :: afterComma) rest' :=
      ((Takes.skipSpace afterComma).trans (ih.items hitems)).cons rfl
    rw [hnext] at hitem
    exact hitem.trans hcomma
  · exact absurd h (by simp)

end ScansTake

theorem scansTake (depth : ℕ) : ScansTake depth := by
  induction depth with
  | zero =>
    constructor
    · exact fun h => absurd h (by simp [scanOnce])
    · exact fun h => absurd h (by simp [scanPairs])
    · exact fun h => absurd h (by simp [scanItems])
  | succ depth ih => exact ⟨ih.scanOnce_succ, ih.scanPairs_succ, ih.scanItems_succ⟩

/-- **A text that decodes** ends outside of its strings. -/
theorem run_of_loads {text : Text} {value : Json} (h : loads text = some value) :
    Quote.run .outside text = some .outside := by
  unfold loads at h
  split_ifs at h
  obtain ⟨⟨value, rest⟩, hscan, h⟩ := Option.bind_eq_some_iff.mp h
  simp only [Option.ite_none_right_eq_some] at h
  have htakes := (Takes.skipSpace text).trans (((scansTake _).once hscan).trans
    (Takes.skipSpace rest))
  rw [h.1] at htakes
  obtain ⟨used, rfl, hused⟩ := htakes
  rwa [List.append_nil]

/-- **A cut text is none**: what stands before a character that is not plain does not decode. -/
theorem loads_cut {text rest : Text} {c : Char} (hc : isPlain c = false)
    (h : (loads (text ++ c :: rest)).isSome) : loads text = none := by
  obtain ⟨value, h⟩ := Option.isSome_iff_exists.mp h
  have hrun := run_of_loads h
  rw [Quote.run_append] at hrun
  obtain ⟨quote, htext, hrest⟩ := Option.bind_eq_some_iff.mp hrun
  rw [Quote.run_cons] at hrest
  obtain ⟨quote', hnext, -⟩ := Option.bind_eq_some_iff.mp hrest
  rw [Option.eq_none_iff_forall_ne_some]
  intro value' h'
  rw [run_of_loads h', Option.some_inj] at htext
  subst htext
  have hquote : c ≠ '"' := by
    rintro rfl
    exact absurd hc (by decide)
  rw [Quote.next, if_neg hquote, hc] at hnext
  exact absurd hnext (by simp)

/-! ## The depth -/

/-- A greater depth finds the same in texts that are short enough. -/
structure DepthSuffices (depth : ℕ) : Prop where
  once : ∀ text : Text, 2 * text.length < depth → scanOnce (depth + 1) text = scanOnce depth text
  pairs : ∀ text : Text, 2 * text.length + 1 < depth →
    scanPairs (depth + 1) text = scanPairs depth text
  items : ∀ text : Text, 2 * text.length + 1 < depth →
    scanItems (depth + 1) text = scanItems depth text

namespace DepthSuffices

variable {depth : ℕ} (ih : DepthSuffices depth)
include ih

theorem scanOnce_succ {text : Text} (h : 2 * text.length < depth + 1) :
    scanOnce (depth + 2) text = scanOnce (depth + 1) text := by
  unfold scanOnce
  split
  · rfl
  · rename_i text
    have hspace := (Takes.skipSpace text).length_le
    rw [List.length_cons] at h
    split
    · rfl
    · rename_i hnext
      rw [hnext, List.length_cons] at hspace
      rw [ih.pairs _ (by omega)]
    · rfl
  · rename_i text
    have hspace := (Takes.skipSpace text).length_le
    rw [List.length_cons] at h
    split
    · rfl
    · rw [ih.items _ (by omega)]
  · rfl

theorem scanPairs_succ {text : Text} (h : 2 * text.length + 1 < depth + 1) :
    scanPairs (depth + 2) text = scanPairs (depth + 1) text := by
  unfold scanPairs
  refine Option.bind_congr fun ⟨codes, afterKey⟩ hkey => ?_
  refine Option.bind_congr fun afterColon hcolon => ?_
  have hkeyLength := (scanString_takes hkey).length_lt (by decide)
  have hkeySpace := (Takes.skipSpace afterKey).length_le
  have hcolonSpace := (Takes.skipSpace afterColon).length_le
  rw [expect_eq_some hcolon, List.length_cons] at hkeySpace
  rw [ih.once _ (by omega)]
  refine Option.bind_congr fun ⟨value, afterValue⟩ hvalue => ?_
  have hvalueLength := ((scansTake depth).once hvalue).length_le
  have hvalueSpace := (Takes.skipSpace afterValue).length_le
  simp only
  split
  · rfl
  · rename_i afterComma hnext
    refine Option.bind_congr fun afterQuote hquote => ?_
    have hcommaSpace := (Takes.skipSpace afterComma).length_le
    rw [hnext, List.length_cons] at hvalueSpace
    rw [expect_eq_some hquote, List.length_cons] at hcommaSpace
    rw [ih.pairs _ (by omega)]
  · rfl

theorem scanItems_succ {text : Text} (h : 2 * text.length + 1 < depth + 1) :
    scanItems (depth + 2) text = scanItems (depth + 1) text := by
  unfold scanItems
  rw [ih.once _ (by omega)]
  refine Option.bind_congr fun ⟨value, afterValue⟩ hvalue => ?_
  have hvalueLength := ((scansTake depth).once hvalue).length_le
  have hvalueSpace := (Takes.skipSpace afterValue).length_le
  simp only
  split
  · rfl
  · rename_i afterComma hnext
    have hcommaSpace := (Takes.skipSpace afterComma).length_le
    rw [hnext, List.length_cons] at hvalueSpace
    rw [ih.items _ (by omega)]
  · rfl

end DepthSuffices

theorem depthSuffices (depth : ℕ) : DepthSuffices depth := by
  induction depth with
  | zero =>
    constructor
    · exact fun _ h => absurd h (by omega)
    · exact fun _ h => absurd h (by omega)
    · exact fun _ h => absurd h (by omega)
  | succ depth ih =>
    exact ⟨fun _ => ih.scanOnce_succ, fun _ => ih.scanPairs_succ, fun _ => ih.scanItems_succ⟩

/-- **The depth of `loads` is enough**: a greater one finds the same value. -/
theorem scanOnce_eq_of_le {text : Text} {depth : ℕ} (h : 2 * text.length + 1 ≤ depth) :
    scanOnce depth text = scanOnce (2 * text.length + 1) text := by
  induction depth, h using Nat.le_induction with
  | base => rfl
  | succ depth hle ih => rw [(depthSuffices depth).once text hle, ih]

end Json

end Python
