import CodingOpd.Python.Json

/-!
# JSON texts that were written

`json.dumps` with its defaults: ASCII alone, with one space behind commas and colons. A value that
`json.loads` can return is written so that it is read again.

## Main definitions

* `Json.dumps`: `json.dumps`
* `Json.Writable`: what the strings and numbers of a value are like

## Main results

* `Json.printable_dumps`: what is written is printable ASCII
* `Json.loads_dumps_append`: **the round trip**
* `Json.joined_codes`, `Json.isNumber_toString`: strings and integers of Python can be written
-/

namespace Python

namespace Json

/-- `'\\u{0:04x}'.format(n)` -/
def escapeUnit (n : ℕ) : Text :=
  ['\\', 'u', Nat.digitChar (n / 0x1000 % 16), Nat.digitChar (n / 0x100 % 16),
    Nat.digitChar (n / 0x10 % 16), Nat.digitChar (n % 16)]

/-- The replacements of `py_encode_basestring_ascii`, and the characters that stay. -/
def escapeCode (n : ℕ) : Text :=
  if n = 0x22 then ['\\', '"']
  else if n = 0x5c then ['\\', '\\']
  else if n = 0x0a then ['\\', 'n']
  else if n = 0x0d then ['\\', 'r']
  else if n = 0x09 then ['\\', 't']
  else if n = 0x0c then ['\\', 'f']
  else if n = 0x08 then ['\\', 'b']
  else if 0x20 ≤ n ∧ n ≤ 0x7e then [Char.ofNat n]
  else if n < 0x10000 then escapeUnit n
  else
    escapeUnit (0xd800 + (n - 0x10000) / 0x400 % 0x400) ++
      escapeUnit (0xdc00 + (n - 0x10000) % 0x400)

/-- `encode_basestring_ascii` -/
def quoted (codes : Codes) : Text := '"' :: (codes.flatMap escapeCode ++ ['"'])

mutual

/-- `json.dumps(value)` -/
def dumps : Json → Text
  | null => ['n', 'u', 'l', 'l']
  | bool true => ['t', 'r', 'u', 'e']
  | bool false => ['f', 'a', 'l', 's', 'e']
  | number literal => literal
  | string codes => quoted codes
  | array items => '[' :: (join [',', ' '] (dumpsItems items) ++ [']'])
  | object pairs => '{' :: (join [',', ' '] (dumpsPairs pairs) ++ ['}'])

/-- The items of an array. -/
def dumpsItems : List Json → List Text
  | [] => []
  | item :: items => dumps item :: dumpsItems items

/-- The pairs of an object. -/
def dumpsPairs : List (Codes × Json) → List Text
  | [] => []
  | (key, value) :: pairs => (quoted key ++ ':' :: ' ' :: dumps value) :: dumpsPairs pairs

end

/-- A code point of the higher half of a surrogate pair, and of the lower half. -/
def IsHigh (n : ℕ) : Prop := 0xd800 ≤ n ∧ n ≤ 0xdbff

def IsLow (n : ℕ) : Prop := 0xdc00 ≤ n ∧ n ≤ 0xdfff

/-- A string of code points in which no two would be read as a surrogate pair. -/
structure Joined (codes : Codes) : Prop where
  lt : ∀ n ∈ codes, n < 0x110000
  chain : codes.IsChain fun high low => ¬ (IsHigh high ∧ IsLow low)

/-- The literals of numbers. -/
def IsNumber (literal : Text) : Prop :=
  literal ∈ [['N', 'a', 'N'], ['I', 'n', 'f', 'i', 'n', 'i', 't', 'y'],
    ['-', 'I', 'n', 'f', 'i', 'n', 'i', 't', 'y']] ∨ scanNumber literal = some (literal, [])

mutual

/-- What can be written so that it is read again. -/
def Writable : Json → Prop
  | null | bool _ => True
  | number literal => IsNumber literal
  | string codes => Joined codes
  | array items => WritableItems items
  | object pairs => WritablePairs pairs

def WritableItems : List Json → Prop
  | [] => True
  | item :: items => Writable item ∧ WritableItems items

def WritablePairs : List (Codes × Json) → Prop
  | [] => True
  | (key, value) :: pairs => Joined key ∧ Writable value ∧ WritablePairs pairs

end

/-! ## Strings -/

theorem hexDigit_digitChar : ∀ n < 16, hexDigit (Nat.digitChar n) = some n := by decide

theorem scanString_escapeUnit {n : ℕ} (h : n < 0x10000) (text : Text) :
    scanString (escapeUnit n ++ text) =
      (scanString text).map fun read => (n :: read.1, read.2) := by
  have hvalue : hexValue (Nat.digitChar (n / 0x1000 % 16)) (Nat.digitChar (n / 0x100 % 16))
      (Nat.digitChar (n / 0x10 % 16)) (Nat.digitChar (n % 16)) = some n := by
    simp only [hexValue, hexDigit_digitChar _ (Nat.mod_lt _ (by decide : 0 < 16)),
      Option.pure_def, Option.bind_eq_bind, Option.bind_some, Option.some_inj]
    omega
  simp only [escapeUnit, List.cons_append, List.nil_append, scanString, hvalue,
    Option.bind_eq_bind, Option.bind_some]
  cases scanString text <;> rfl

/-- The units that are written for a code point. -/
def unitsOf (n : ℕ) : Codes :=
  if n < 0x10000 then [n]
  else [0xd800 + (n - 0x10000) / 0x400 % 0x400, 0xdc00 + (n - 0x10000) % 0x400]

theorem scanString_escape {e c : Char} (hescape : escape e = some c) (text : Text) :
    scanString ('\\' :: e :: text) =
      (scanString text).map fun read => (c.toNat :: read.1, read.2) := by
  have hu : e ≠ 'u' := by
    rintro rfl
    cases hescape
  rw [scanString, hescape, Option.bind_eq_bind, Option.bind_some]
  · cases scanString text <;> rfl
  · exact fun _ _ _ _ _ heq => absurd heq hu

theorem scanString_plain {c : Char} (hquote : c ≠ '"') (hbackslash : c ≠ '\\')
    (hcontrol : 0x20 ≤ c.toNat) (text : Text) :
    scanString (c :: text) = (scanString text).map fun read => (c.toNat :: read.1, read.2) := by
  rw [scanString]
  · rw [if_neg (not_or.mpr ⟨hbackslash, Nat.not_lt.mpr hcontrol⟩)]
    cases scanString text <;> rfl
  · exact hquote
  · exact fun _ _ _ _ _ heq _ => hbackslash heq
  · exact fun _ _ heq _ => hbackslash heq

theorem toNat_ofNat : ∀ n < 0x80, (Char.ofNat n).toNat = n := by decide

theorem scanString_escapeCode {n : ℕ} (h : n < 0x110000) (text : Text) :
    scanString (escapeCode n ++ text) =
      (scanString text).map fun read => (unitsOf n ++ read.1, read.2) := by
  have hsmall : n < 0x10000 → unitsOf n = [n] := fun hlt => if_pos hlt
  unfold escapeCode
  split_ifs with hquote hbackslash hfeed hreturn htab hform hback hplain hunit
  · subst hquote
    exact scanString_escape (rfl : escape '"' = some '"') text
  · subst hbackslash
    exact scanString_escape (rfl : escape '\\' = some '\\') text
  · subst hfeed
    exact scanString_escape (rfl : escape 'n' = some '\n') text
  · subst hreturn
    exact scanString_escape (rfl : escape 'r' = some '\r') text
  · subst htab
    exact scanString_escape (rfl : escape 't' = some '\t') text
  · subst hform
    exact scanString_escape (rfl : escape 'f' = some '\x0c') text
  · subst hback
    exact scanString_escape (rfl : escape 'b' = some '\x08') text
  · have hnat : (Char.ofNat n).toNat = n := toNat_ofNat n (by omega)
    have hne : ∀ c : Char, n ≠ c.toNat → Char.ofNat n ≠ c := fun c hc heq => hc (heq ▸ hnat.symm)
    have hread := scanString_plain (hne '"' hquote) (hne '\\' hbackslash)
      (hnat.symm ▸ hplain.1) text
    rw [hnat] at hread
    rw [hsmall (by omega)]
    exact hread
  · rw [scanString_escapeUnit hunit, hsmall hunit]
    rfl
  · have hunits : unitsOf n = [0xd800 + (n - 0x10000) / 0x400 % 0x400,
        0xdc00 + (n - 0x10000) % 0x400] := if_neg hunit
    rw [List.append_assoc, scanString_escapeUnit (by omega), scanString_escapeUnit (by omega),
      hunits, Option.map_map]
    rfl

/-- A string behind its opening quote. -/
theorem scanString_flatMap {codes : Codes} (h : ∀ n ∈ codes, n < 0x110000) (rest : Text) :
    scanString (codes.flatMap escapeCode ++ '"' :: rest) = some (codes.flatMap unitsOf, rest) := by
  induction codes with
  | nil => rfl
  | cons n codes ih =>
    obtain ⟨hn, hcodes⟩ := List.forall_mem_cons.mp h
    rw [List.flatMap_cons, List.append_assoc, scanString_escapeCode hn, ih hcodes]
    rfl

/-- The first unit of what stands behind a code point is no lower half of it. -/
theorem not_isLow_head {n u : ℕ} {codes us : Codes} (hchain : (n :: codes).IsChain fun high low =>
    ¬ (IsHigh high ∧ IsLow low)) (hunits : codes.flatMap unitsOf = u :: us) :
    ¬ (IsHigh n ∧ IsLow u) := by
  cases codes with
  | nil => cases hunits
  | cons m codes =>
    have hfirst : ¬ (IsHigh n ∧ IsLow m) := (List.isChain_cons_cons.mp hchain).1
    rw [List.flatMap_cons, unitsOf] at hunits
    split_ifs at hunits
    · cases hunits
      exact hfirst
    · cases hunits
      rintro ⟨-, hlow⟩
      have hle := hlow.1
      omega

theorem joinSurrogates_flatMap {codes : Codes} (h : Joined codes) :
    joinSurrogates (codes.flatMap unitsOf) = codes := by
  obtain ⟨hlt, hchain⟩ := h
  induction codes with
  | nil => rfl
  | cons n codes ih =>
    obtain ⟨hn, hcodes⟩ := List.forall_mem_cons.mp hlt
    have hrest := ih hcodes hchain.of_cons
    by_cases hsmall : n < 0x10000
    · have hunits : unitsOf n = [n] := if_pos hsmall
      rw [List.flatMap_cons, hunits, List.singleton_append]
      cases hcodes' : codes.flatMap unitsOf with
      | nil =>
        rw [hcodes'] at hrest
        rw [← hrest]
        rfl
      | cons u us =>
        have hnot := not_isLow_head hchain hcodes'
        rw [hcodes'] at hrest
        rw [joinSurrogates, if_neg fun hpair => hnot ⟨⟨hpair.1, hpair.2.1⟩, hpair.2.2⟩, hrest]
    · have hunits : unitsOf n = [0xd800 + (n - 0x10000) / 0x400 % 0x400,
          0xdc00 + (n - 0x10000) % 0x400] := if_neg hsmall
      rw [List.flatMap_cons, hunits]
      show joinSurrogates (_ :: _ :: codes.flatMap unitsOf) = n :: codes
      have hcode : 0x10000 + (0xd800 + (n - 0x10000) / 0x400 % 0x400 - 0xd800) * 0x400 +
          (0xdc00 + (n - 0x10000) % 0x400 - 0xdc00) = n := by omega
      rw [joinSurrogates, if_pos (by omega), hcode, hrest]

/-- **A string is read as it was written.** -/
theorem scanString_quoted {codes : Codes} (h : Joined codes) (rest : Text) :
    ∃ units, scanString (codes.flatMap escapeCode ++ '"' :: rest) = some (units, rest) ∧
      joinSurrogates units = codes :=
  ⟨_, scanString_flatMap h.lt rest, joinSurrogates_flatMap h⟩

/-! ## Numbers -/

/-- What may stand behind a value. -/
def Stops (rest : Text) : Prop := ∀ c ∈ rest.head?, c = ',' ∨ c = ']' ∨ c = '}' ∨ c = '\n'

/-- A part of a number takes nothing of what stands behind it. -/
def LocalPart (part : Text → Text) : Prop :=
  ∀ text rest, Stops rest → part (text ++ rest) = part text

theorem Stops.not_isDigit {c : Char} {rest : Text} (h : Stops (c :: rest)) : c.isDigit = false := by
  rcases h c rfl with rfl | rfl | rfl | rfl <;> rfl

theorem digits_local : LocalPart digits := by
  intro text rest hstops
  induction text with
  | nil =>
    cases rest with
    | nil => rfl
    | cons c rest => exact List.takeWhile_cons_of_neg (Bool.eq_false_iff.mp hstops.not_isDigit)
  | cons c text ih =>
    unfold digits at ih ⊢
    rw [List.cons_append, List.takeWhile_cons, List.takeWhile_cons, ih]

theorem signPart_local : LocalPart signPart := by
  intro text rest hstops
  cases text with
  | nil =>
    cases rest with
    | nil => rfl
    | cons c rest => rcases hstops c rfl with rfl | rfl | rfl | rfl <;> rfl
  | cons c text =>
    by_cases hsign : c = '-'
    · rw [hsign]
      rfl
    · rw [List.cons_append, signPart, signPart]
      · exact fun _ heq => hsign (List.cons.inj heq).1
      · exact fun _ heq => hsign (List.cons.inj heq).1

theorem integerPart_local : LocalPart integerPart := by
  intro text rest hstops
  have hdigits := digits_local text rest hstops
  cases text with
  | nil =>
    cases rest with
    | nil => rfl
    | cons c rest =>
      rw [List.nil_append] at hdigits ⊢
      rw [integerPart, hdigits]
      · rfl
      · rintro _ heq
        rcases hstops c rfl with rfl | rfl | rfl | rfl <;> cases heq
  | cons c text =>
    by_cases hzero : c = '0'
    · rw [hzero]
      rfl
    · rw [List.cons_append] at hdigits ⊢
      rw [integerPart, integerPart, hdigits]
      · exact fun _ heq => hzero (List.cons.inj heq).1
      · exact fun _ heq => hzero (List.cons.inj heq).1

theorem fractionPart_local : LocalPart fractionPart := by
  intro text rest hstops
  cases text with
  | nil =>
    cases rest with
    | nil => rfl
    | cons c rest => rcases hstops c rfl with rfl | rfl | rfl | rfl <;> rfl
  | cons c text =>
    by_cases hpoint : c = '.'
    · rw [hpoint, List.cons_append, fractionPart, fractionPart, digits_local text rest hstops]
    · rw [List.cons_append, fractionPart, fractionPart]
      · exact fun _ heq => hpoint (List.cons.inj heq).1
      · exact fun _ heq => hpoint (List.cons.inj heq).1

theorem exponentSign_local : LocalPart exponentSign := by
  intro text rest hstops
  cases text with
  | nil =>
    cases rest with
    | nil => rfl
    | cons c rest => rcases hstops c rfl with rfl | rfl | rfl | rfl <;> rfl
  | cons c text =>
    by_cases hplus : c = '+'
    · rw [hplus]
      rfl
    · by_cases hminus : c = '-'
      · rw [hminus]
        rfl
      · rw [List.cons_append, exponentSign, exponentSign]
        · exact fun _ heq => hplus (List.cons.inj heq).1
        · exact fun _ heq => hminus (List.cons.inj heq).1
        · exact fun _ heq => hplus (List.cons.inj heq).1
        · exact fun _ heq => hminus (List.cons.inj heq).1

/-- What a part leaves of a text, with something behind it. -/
theorem PlainPart.drop_append {part : Text → Text} (h : PlainPart part) (text rest : Text) :
    (text ++ rest).drop (part text).length = text.drop (part text).length ++ rest :=
  List.drop_append_of_le_length (h text).1.length_le

theorem LocalPart.followedBy {first second : Text → Text} (h : LocalPart first)
    (h' : LocalPart second) (hplain : PlainPart first) : LocalPart (followedBy first second) := by
  intro text rest hstops
  rw [Json.followedBy, Json.followedBy, h text rest hstops, hplain.drop_append,
    h' _ rest hstops]

theorem exponentPart_local : LocalPart exponentPart := by
  intro text rest hstops
  cases text with
  | nil =>
    cases rest with
    | nil => rfl
    | cons c rest => rcases hstops c rfl with rfl | rfl | rfl | rfl <;> rfl
  | cons c text =>
    have hsign := exponentSign_local text rest hstops
    have hdigits : digits ((text ++ rest).drop (exponentSign text).length) =
        digits (text.drop (exponentSign text).length) := by
      rw [exponentSign_plain.drop_append, digits_local _ rest hstops]
    rw [List.cons_append, exponentPart, exponentPart, hsign]
    simp only [hdigits]

/-- **A number ends** where something else stands behind it. -/
theorem scanNumber_append {literal rest : Text} (h : scanNumber literal = some (literal, []))
    (hstops : Stops rest) : scanNumber (literal ++ rest) = some (literal, rest) := by
  unfold scanNumber at h ⊢
  have hsign := signPart_local literal rest hstops
  have hinteger : integerPart ((literal ++ rest).drop (signPart literal).length) =
      integerPart (literal.drop (signPart literal).length) := by
    rw [signPart_plain.drop_append, integerPart_local _ rest hstops]
  have hwhole := (signPart_local.followedBy (integerPart_local.followedBy
    (fractionPart_local.followedBy exponentPart_local fractionPart_plain) integerPart_plain)
    signPart_plain) literal rest hstops
  split_ifs at h with hnone
  simp only [Option.some_inj, Prod.mk.injEq] at h
  rw [hsign, hinteger, if_neg hnone, hwhole, h.1]
  show some (literal, (literal ++ rest).drop literal.length) = _
  rw [List.drop_left]

/-- A number begins with a digit, or with a digit behind its sign. -/
theorem scanNumber_head {text : Text} {read : Text × Text} (h : scanNumber text = some read) :
    ∃ c tail, text = c :: tail ∧
      (c.isDigit = true ∨ c = '-' ∧ ∃ d more, tail = d :: more ∧ d.isDigit = true) := by
  have hdigit : ∀ {text : Text}, integerPart text ≠ [] →
      ∃ d more, text = d :: more ∧ d.isDigit = true := fun {text} hne => by
    cases text with
    | nil => exact absurd rfl hne
    | cons d more =>
      refine ⟨d, more, rfl, ?_⟩
      by_contra hnot
      have hzero : d ≠ '0' := by
        rintro rfl
        exact hnot rfl
      rw [integerPart, digits, List.takeWhile_cons_of_neg hnot] at hne
      · exact hne rfl
      · exact fun _ heq => hzero (List.cons.inj heq).1
  unfold scanNumber at h
  split_ifs at h with hnone
  cases text with
  | nil => exact absurd rfl hnone
  | cons c tail =>
    refine ⟨c, tail, rfl, ?_⟩
    by_cases hsign : c = '-'
    · subst hsign
      exact .inr ⟨rfl, hdigit hnone⟩
    · have hpart : signPart (c :: tail) = [] := by
        rw [signPart]
        exact fun _ heq => hsign (List.cons.inj heq).1
      rw [hpart] at hnone
      obtain ⟨d, more, heq, hd⟩ := hdigit hnone
      cases heq
      exact .inl hd

/-- The characters of numbers. -/
def Numeric (c : Char) : Prop := c.isDigit = true ∨ c ∈ ['-', '+', '.', 'e', 'E']

theorem numeric_of_mem_digits {text : Text} : ∀ c ∈ digits text, Numeric c := fun _ hmem =>
  .inl (List.mem_takeWhile_imp hmem)

theorem numeric_of_mem_singleton {c sign : Char} (hsign : sign ∈ ['-', '+', '.', 'e', 'E'])
    (hmem : c ∈ [sign]) : Numeric c :=
  .inr (List.mem_singleton.mp hmem ▸ hsign)

theorem numeric_of_mem_signPart {text : Text} : ∀ c ∈ signPart text, Numeric c := by
  unfold signPart
  split
  · exact fun c => numeric_of_mem_singleton (by decide)
  · exact List.forall_mem_nil _

theorem numeric_of_mem_integerPart {text : Text} : ∀ c ∈ integerPart text, Numeric c := by
  unfold integerPart
  split
  · exact fun c hmem => .inl (List.mem_singleton.mp hmem ▸ by decide)
  · exact numeric_of_mem_digits

theorem numeric_of_mem_fractionPart {text : Text} : ∀ c ∈ fractionPart text, Numeric c := by
  unfold fractionPart
  split
  · split_ifs
    · exact List.forall_mem_nil _
    · exact List.forall_mem_cons.mpr ⟨.inr (by decide), numeric_of_mem_digits⟩
  · exact List.forall_mem_nil _

theorem numeric_of_mem_exponentPart {text : Text} : ∀ c ∈ exponentPart text, Numeric c := by
  cases text with
  | nil => exact List.forall_mem_nil _
  | cons c text =>
    rw [exponentPart]
    split_ifs with hexponent
    · refine List.forall_mem_cons.mpr ⟨.inr ?_, fun d hmem => ?_⟩
      · rcases hexponent.1 with rfl | rfl <;> decide
      · rcases List.mem_append.mp hmem with hsign | hdigit
        · unfold exponentSign at hsign
          split at hsign
          · exact numeric_of_mem_singleton (by decide) hsign
          · exact numeric_of_mem_singleton (by decide) hsign
          · cases hsign
        · exact numeric_of_mem_digits d hdigit
    · exact List.forall_mem_nil _

theorem numeric_of_scanNumber {literal rest : Text}
    (h : scanNumber literal = some (literal, rest)) : ∀ c ∈ literal, Numeric c := by
  unfold scanNumber at h
  split_ifs at h
  simp only [Option.some_inj, Prod.mk.injEq] at h
  intro c hmem
  rw [← h.1] at hmem
  rcases List.mem_append.mp hmem with hmem | hmem
  · exact numeric_of_mem_signPart c hmem
  rcases List.mem_append.mp hmem with hmem | hmem
  · exact numeric_of_mem_integerPart c hmem
  rcases List.mem_append.mp hmem with hmem | hmem
  · exact numeric_of_mem_fractionPart c hmem
  · exact numeric_of_mem_exponentPart c hmem

/-! ## Values -/

/-- A value is read from some depth on, whatever stops behind it. -/
def ReadsBack (text : Text) (value : Json) : Prop :=
  ∀ rest, Stops rest → ∃ least, ∀ depth ≥ least, scanOnce depth (text ++ rest) = some (value, rest)

/-- The words, one by one. -/
theorem mem_constants {word : Text} {value : Json} (h : (word, value) ∈ constants) :
    word = ['n', 'u', 'l', 'l'] ∧ value = .null ∨ word = ['t', 'r', 'u', 'e'] ∧ value = .bool true ∨
      word = ['f', 'a', 'l', 's', 'e'] ∧ value = .bool false ∨
      word = ['N', 'a', 'N'] ∧ value = .number word ∨
      word = ['I', 'n', 'f', 'i', 'n', 'i', 't', 'y'] ∧ value = .number word ∨
      word = ['-', 'I', 'n', 'f', 'i', 'n', 'i', 't', 'y'] ∧ value = .number word := by
  simp only [constants, List.mem_cons, Prod.mk.injEq, List.not_mem_nil, or_false] at h
  rcases h with ⟨rfl, rfl⟩ | ⟨rfl, rfl⟩ | ⟨rfl, rfl⟩ | ⟨rfl, rfl⟩ | ⟨rfl, rfl⟩ | ⟨rfl, rfl⟩ <;> simp

theorem readsBack_constant {word : Text} {value : Json} (h : (word, value) ∈ constants) :
    ReadsBack word value := by
  refine fun rest _ => ⟨1, fun depth hdepth => ?_⟩
  obtain ⟨depth, rfl⟩ := Nat.exists_eq_add_of_le' hdepth
  rcases mem_constants h with ⟨rfl, rfl⟩ | ⟨rfl, rfl⟩ | ⟨rfl, rfl⟩ | ⟨rfl, rfl⟩ | ⟨rfl, rfl⟩ |
    ⟨rfl, rfl⟩ <;> rfl

/-- A number is none of the words. -/
theorem find?_constants_eq_none {c : Char} {tail : Text}
    (hhead : c.isDigit = true ∨ c = '-' ∧ ∃ d more, tail = d :: more ∧ d.isDigit = true) :
    constants.find? (·.1.isPrefixOf (c :: tail)) = none := by
  rw [List.find?_eq_none]
  rintro ⟨word, value⟩ hmem hprefix
  obtain ⟨more, hmore⟩ := List.isPrefixOf_iff_prefix.mp hprefix
  rcases mem_constants hmem with ⟨rfl, -⟩ | ⟨rfl, -⟩ | ⟨rfl, -⟩ | ⟨rfl, -⟩ | ⟨rfl, -⟩ | ⟨rfl, -⟩ <;>
    cases hmore <;> rcases hhead with hdigit | ⟨hsign, d, more', htail, hdigit⟩
  all_goals first | cases hdigit | cases hsign
  cases htail
  cases hdigit

theorem readsBack_number {literal : Text} (h : IsNumber literal) :
    ReadsBack literal (.number literal) := by
  rcases h with hword | hnumber
  · refine readsBack_constant ?_
    simp only [List.mem_cons, List.not_mem_nil, or_false] at hword
    rcases hword with rfl | rfl | rfl <;> simp [constants]
  · refine fun rest hstops => ⟨1, fun depth hdepth => ?_⟩
    obtain ⟨depth, rfl⟩ := Nat.exists_eq_add_of_le' hdepth
    have hread := scanNumber_append hnumber hstops
    obtain ⟨c, tail, rfl, hhead⟩ := scanNumber_head hnumber
    have hother : c ≠ '"' ∧ c ≠ '{' ∧ c ≠ '[' := by
      refine ⟨?_, ?_, ?_⟩ <;> rintro rfl <;> rcases hhead with hdigit | ⟨hsign, -⟩
      all_goals first | cases hdigit | cases hsign
    have hnone : constants.find? (·.1.isPrefixOf (c :: tail ++ rest)) = none := by
      refine find?_constants_eq_none (hhead.imp_right ?_)
      rintro ⟨hsign, d, more, rfl, hdigit⟩
      exact ⟨hsign, d, more ++ rest, rfl, hdigit⟩
    rw [List.cons_append] at hread hnone ⊢
    rw [scanOnce]
    · simp only [hnone, hread, Option.bind_eq_bind, Option.bind_some, Option.pure_def]
    · exact fun _ heq => hother.1 (List.cons.inj heq).1
    · exact fun _ heq => hother.2.1 (List.cons.inj heq).1
    · exact fun _ heq => hother.2.2 (List.cons.inj heq).1

theorem skipSpace_cons {c : Char} (h : isSpace c = false) (text : Text) :
    skipSpace (c :: text) = c :: text :=
  List.dropWhile_cons_of_neg (Bool.eq_false_iff.mp h)

/-- The characters that a value begins with. -/
theorem dumps_head {value : Json} (h : Writable value) :
    ∃ c tail, dumps value = c :: tail ∧ isSpace c = false ∧ c ≠ ']' := by
  cases value with
  | null => exact ⟨_, _, by rw [dumps], rfl, by decide⟩
  | bool value => cases value <;> exact ⟨_, _, by rw [dumps], rfl, by decide⟩
  | number literal =>
    rw [dumps]
    rw [Writable] at h
    rcases h with hword | hnumber
    · simp only [List.mem_cons, List.not_mem_nil, or_false] at hword
      rcases hword with rfl | rfl | rfl <;> exact ⟨_, _, rfl, rfl, by decide⟩
    · obtain ⟨c, tail, rfl, hhead⟩ := scanNumber_head hnumber
      refine ⟨c, tail, rfl, ?_, ?_⟩
      · rw [isSpace, decide_eq_false_iff_not]
        intro hmem
        simp only [List.mem_cons, List.not_mem_nil, or_false] at hmem
        rcases hmem with rfl | rfl | rfl | rfl <;> rcases hhead with hdigit | ⟨hsign, -⟩
        all_goals first | cases hdigit | cases hsign
      · rintro rfl
        rcases hhead with hdigit | ⟨hsign, -⟩
        · cases hdigit
        · cases hsign
  | string codes => exact ⟨_, _, by rw [dumps, quoted], rfl, by decide⟩
  | array items => exact ⟨_, _, by rw [dumps], rfl, by decide⟩
  | object pairs => exact ⟨_, _, by rw [dumps], rfl, by decide⟩

/-- Items that are read back, behind the opening bracket. -/
def ReadsItems (items : List Json) : Prop :=
  ∀ rest, ∃ least, ∀ depth ≥ least,
    scanItems depth (join [',', ' '] (dumpsItems items) ++ ']' :: rest) = some (items, rest)

/-- Pairs that are read back, behind the opening quote of the first key. -/
def ReadsPairs (pairs : List (Codes × Json)) : Prop :=
  ∀ rest, ∃ text, join [',', ' '] (dumpsPairs pairs) ++ '}' :: rest = '"' :: text ∧
    ∃ least, ∀ depth ≥ least, scanPairs depth text = some (pairs, rest)

theorem stops_cons {c : Char} (h : c = ',' ∨ c = ']' ∨ c = '}' ∨ c = '\n') (rest : Text) :
    Stops (c :: rest) := by
  rintro d ⟨⟩
  exact h

theorem readsItems_singleton {item : Json} (h : ReadsBack (dumps item) item) :
    ReadsItems [item] := by
  intro rest
  obtain ⟨least, hleast⟩ := h (']' :: rest) (stops_cons (.inr (.inl rfl)) rest)
  refine ⟨least + 1, fun depth hdepth => ?_⟩
  obtain ⟨depth, rfl⟩ : ∃ smaller, depth = smaller + 1 := ⟨depth - 1, by omega⟩
  have hscan := hleast depth (by omega)
  rw [dumpsItems, dumpsItems, join, List.intercalate_singleton, scanItems, hscan]
  rfl

/-- What stands behind the opening bracket. -/
theorem readsItems_head {item : Json} (items : List Json) (h : WritableItems (item :: items))
    (rest : Text) : ∃ c text,
      join [',', ' '] (dumpsItems (item :: items)) ++ ']' :: rest = c :: text ∧
        isSpace c = false ∧ c ≠ ']' := by
  rw [WritableItems] at h
  obtain ⟨c, tail, hc, hspace, hbracket⟩ := dumps_head h.1
  rw [dumpsItems, hc]
  cases items with
  | nil => exact ⟨c, _, rfl, hspace, hbracket⟩
  | cons other items =>
    rw [join, List.intercalate_cons_of_ne_nil (by rw [dumpsItems]; exact List.cons_ne_nil _ _)]
    exact ⟨c, _, rfl, hspace, hbracket⟩

theorem readsItems_cons {item : Json} {items : List Json} (h : ReadsBack (dumps item) item)
    (hne : items ≠ []) (hwritable : WritableItems items) (hitems : ReadsItems items) :
    ReadsItems (item :: items) := by
  intro rest
  obtain ⟨leastItems, hleastItems⟩ := hitems rest
  set text := join [',', ' '] (dumpsItems items) ++ ']' :: rest with htext
  obtain ⟨least, hleast⟩ := h (',' :: ' ' :: text) (stops_cons (.inl rfl) _)
  obtain ⟨next, others, rfl⟩ := List.exists_cons_of_ne_nil hne
  have hjoin : join [',', ' '] (dumpsItems (item :: next :: others)) ++ ']' :: rest =
      dumps item ++ ',' :: ' ' :: text := by
    have hpieces : dumpsItems (next :: others) ≠ [] := by
      rw [dumpsItems]
      exact List.cons_ne_nil _ _
    rw [dumpsItems, join, List.intercalate_cons_of_ne_nil hpieces]
    simp only [htext, join, List.append_assoc, List.cons_append, List.nil_append]
  have hskip : skipSpace (' ' :: text) = text := by
    obtain ⟨c, more, hmore, hspace, -⟩ := readsItems_head others hwritable rest
    rw [htext, hmore]
    exact (List.dropWhile_cons_of_pos rfl).trans (skipSpace_cons hspace more)
  refine ⟨max least leastItems + 1, fun depth hdepth => ?_⟩
  obtain ⟨depth, rfl⟩ : ∃ smaller, depth = smaller + 1 := ⟨depth - 1, by omega⟩
  have hscan := hleast depth (by omega)
  have hscanItems := hleastItems depth (by omega)
  rw [hjoin, scanItems, hscan]
  show (scanItems depth (skipSpace (' ' :: text))).bind _ = _
  rw [hskip, hscanItems]
  rfl

theorem readsPairs_singleton {key : Codes} {value : Json} (hkey : Joined key)
    (hvalue : Writable value) (h : ReadsBack (dumps value) value) : ReadsPairs [(key, value)] := by
  intro rest
  obtain ⟨least, hleast⟩ := h ('}' :: rest) (stops_cons (.inr (.inr (.inl rfl))) rest)
  refine ⟨key.flatMap escapeCode ++ '"' :: ':' :: ' ' :: (dumps value ++ '}' :: rest), ?_,
    least + 1, fun depth hdepth => ?_⟩
  · rw [dumpsPairs, dumpsPairs, join, List.intercalate_singleton, quoted]
    simp only [List.append_assoc, List.cons_append, List.nil_append]
  · obtain ⟨depth, rfl⟩ : ∃ smaller, depth = smaller + 1 := ⟨depth - 1, by omega⟩
    obtain ⟨units, hunits, hkey⟩ :=
      scanString_quoted hkey (':' :: ' ' :: (dumps value ++ '}' :: rest))
    have hscan := hleast depth (by omega)
    obtain ⟨c, tail, hc, hspace, -⟩ := dumps_head hvalue
    have hskip : skipSpace (' ' :: (dumps value ++ '}' :: rest)) = dumps value ++ '}' :: rest := by
      rw [hc]
      exact (List.dropWhile_cons_of_pos rfl).trans (skipSpace_cons hspace _)
    rw [scanPairs, hunits]
    show (scanOnce depth (skipSpace (' ' :: (dumps value ++ '}' :: rest)))).bind _ = _
    rw [hskip, hscan, hkey]
    rfl

theorem readsPairs_cons {key : Codes} {value : Json} {pairs : List (Codes × Json)}
    (hkey : Joined key) (hvalue : Writable value) (h : ReadsBack (dumps value) value)
    (hne : pairs ≠ []) (hpairs : ReadsPairs pairs) : ReadsPairs ((key, value) :: pairs) := by
  intro rest
  obtain ⟨text, htext, leastPairs, hleastPairs⟩ := hpairs rest
  obtain ⟨least, hleast⟩ := h (',' :: ' ' :: '"' :: text) (stops_cons (.inl rfl) _)
  have hjoin : join [',', ' '] (dumpsPairs ((key, value) :: pairs)) ++ '}' :: rest =
      '"' :: (key.flatMap escapeCode ++ '"' :: ':' :: ' ' ::
        (dumps value ++ ',' :: ' ' :: '"' :: text)) := by
    have hpieces : dumpsPairs pairs ≠ [] := by
      cases pairs with
      | nil => exact absurd rfl hne
      | cons pair pairs =>
        rw [dumpsPairs]
        exact List.cons_ne_nil _ _
    rw [dumpsPairs, join, List.intercalate_cons_of_ne_nil hpieces, ← htext, quoted, join]
    simp only [List.append_assoc, List.cons_append, List.nil_append]
  refine ⟨_, hjoin, max least leastPairs + 1, fun depth hdepth => ?_⟩
  obtain ⟨depth, rfl⟩ : ∃ smaller, depth = smaller + 1 := ⟨depth - 1, by omega⟩
  obtain ⟨units, hunits, hkey⟩ :=
    scanString_quoted hkey (':' :: ' ' :: (dumps value ++ ',' :: ' ' :: '"' :: text))
  have hscan := hleast depth (by omega)
  have hscanPairs := hleastPairs depth (by omega)
  obtain ⟨c, tail, hc, hspace, -⟩ := dumps_head hvalue
  have hskip : skipSpace (' ' :: (dumps value ++ ',' :: ' ' :: '"' :: text)) =
      dumps value ++ ',' :: ' ' :: '"' :: text := by
    rw [hc]
    exact (List.dropWhile_cons_of_pos rfl).trans (skipSpace_cons hspace _)
  rw [scanPairs, hunits]
  show (scanOnce depth (skipSpace (' ' :: (dumps value ++ ',' :: ' ' :: '"' :: text)))).bind _ = _
  rw [hskip, hscan, hkey]
  show (scanPairs depth text).bind _ = _
  rw [hscanPairs]
  rfl

mutual

/-- **A value is read as it was written.** -/
theorem readsBack_dumps : ∀ value : Json, Writable value → ReadsBack (dumps value) value
  | null, _ => by
    rw [dumps]
    exact readsBack_constant (by simp [constants])
  | bool true, _ => by
    rw [dumps]
    exact readsBack_constant (by simp [constants])
  | bool false, _ => by
    rw [dumps]
    exact readsBack_constant (by simp [constants])
  | number literal, h => by
    rw [dumps]
    rw [Writable] at h
    exact readsBack_number h
  | string codes, h => by
    rw [Writable] at h
    intro rest _
    obtain ⟨units, hunits, hcodes⟩ := scanString_quoted h rest
    refine ⟨1, fun depth hdepth => ?_⟩
    obtain ⟨depth, rfl⟩ : ∃ smaller, depth = smaller + 1 := ⟨depth - 1, by omega⟩
    rw [dumps, quoted, List.cons_append, List.append_assoc, scanOnce]
    show (scanString (codes.flatMap escapeCode ++ '"' :: rest)).bind _ = _
    rw [hunits, ← hcodes]
    rfl
  | array [], _ => by
    refine fun rest _ => ⟨1, fun depth hdepth => ?_⟩
    obtain ⟨depth, rfl⟩ : ∃ smaller, depth = smaller + 1 := ⟨depth - 1, by omega⟩
    rw [dumps, dumpsItems]
    rfl
  | array (item :: items), h => by
    rw [Writable] at h
    intro rest _
    obtain ⟨least, hleast⟩ := readsItems_dumps (item :: items) h (List.cons_ne_nil _ _) rest
    refine ⟨least + 1, fun depth hdepth => ?_⟩
    obtain ⟨depth, rfl⟩ : ∃ smaller, depth = smaller + 1 := ⟨depth - 1, by omega⟩
    have hscan := hleast depth (by omega)
    obtain ⟨c, text, htext, hspace, hbracket⟩ := readsItems_head items h rest
    rw [dumps, List.cons_append, List.append_assoc]
    show scanOnce (depth + 1) ('[' :: (join [',', ' '] (dumpsItems (item :: items)) ++
      ']' :: rest)) = _
    rw [htext] at hscan ⊢
    rw [scanOnce, skipSpace_cons hspace]
    split
    · rename_i heq
      exact absurd (List.cons.inj heq).1 hbracket
    · rw [hscan]
      rfl
  | object [], _ => by
    refine fun rest _ => ⟨1, fun depth hdepth => ?_⟩
    obtain ⟨depth, rfl⟩ : ∃ smaller, depth = smaller + 1 := ⟨depth - 1, by omega⟩
    rw [dumps, dumpsPairs]
    rfl
  | object ((key, value) :: pairs), h => by
    rw [Writable] at h
    intro rest _
    obtain ⟨text, htext, least, hleast⟩ :=
      readsPairs_dumps ((key, value) :: pairs) h (List.cons_ne_nil _ _) rest
    refine ⟨least + 1, fun depth hdepth => ?_⟩
    obtain ⟨depth, rfl⟩ : ∃ smaller, depth = smaller + 1 := ⟨depth - 1, by omega⟩
    have hscan := hleast depth (by omega)
    rw [dumps, List.cons_append, List.append_assoc]
    show scanOnce (depth + 1) ('{' :: (join [',', ' '] (dumpsPairs ((key, value) :: pairs)) ++
      '}' :: rest)) = _
    rw [htext, scanOnce]
    show (scanPairs depth text).bind _ = _
    rw [hscan]
    rfl

theorem readsItems_dumps : ∀ items : List Json, WritableItems items → items ≠ [] →
    ReadsItems items
  | [], _, hne => absurd rfl hne
  | item :: items, h, _ => by
    rw [WritableItems] at h
    rcases eq_or_ne items [] with rfl | hne
    · exact readsItems_singleton (readsBack_dumps item h.1)
    · exact readsItems_cons (readsBack_dumps item h.1) hne h.2 (readsItems_dumps items h.2 hne)

theorem readsPairs_dumps : ∀ pairs : List (Codes × Json), WritablePairs pairs → pairs ≠ [] →
    ReadsPairs pairs
  | [], _, hne => absurd rfl hne
  | (key, value) :: pairs, h, _ => by
    rw [WritablePairs] at h
    rcases eq_or_ne pairs [] with rfl | hne
    · exact readsPairs_singleton h.1 h.2.1 (readsBack_dumps value h.2.1)
    · exact readsPairs_cons h.1 h.2.1 (readsBack_dumps value h.2.1) hne
        (readsPairs_dumps pairs h.2.2 hne)

end

/-! ## ASCII -/

/-- A printable character of ASCII. -/
def Printable (c : Char) : Prop := 0x20 ≤ c.toNat ∧ c.toNat ≤ 0x7e

instance : DecidablePred Printable := fun c =>
  inferInstanceAs (Decidable (0x20 ≤ c.toNat ∧ c.toNat ≤ 0x7e))

theorem printable_digitChar : ∀ n < 16, Printable (Nat.digitChar n) := by decide

theorem printable_escapeUnit (n : ℕ) : ∀ c ∈ escapeUnit n, Printable c := by
  have hdigit : ∀ m, Printable (Nat.digitChar (m % 16)) := fun m =>
    printable_digitChar _ (Nat.mod_lt m (by decide))
  simp only [escapeUnit, List.forall_mem_cons]
  exact ⟨by decide, by decide, hdigit _, hdigit _, hdigit _, hdigit _, List.forall_mem_nil _⟩

theorem printable_escapeCode (n : ℕ) : ∀ c ∈ escapeCode n, Printable c := by
  unfold escapeCode
  split_ifs with _ _ _ _ _ _ _ hplain
  all_goals first | exact forall_of_all (by decide) | skip
  · intro c hmem
    rw [List.mem_singleton.mp hmem, Printable, toNat_ofNat n (by omega)]
    exact hplain
  · exact printable_escapeUnit n
  · intro c hmem
    rcases List.mem_append.mp hmem with hmem | hmem <;> exact printable_escapeUnit _ c hmem

theorem printable_quoted (codes : Codes) : ∀ c ∈ quoted codes, Printable c := by
  rw [quoted]
  refine List.forall_mem_cons.mpr ⟨by decide, fun c hmem => ?_⟩
  rcases List.mem_append.mp hmem with hmem | hmem
  · obtain ⟨n, -, hn⟩ := List.mem_flatMap.mp hmem
    exact printable_escapeCode n c hn
  · exact List.mem_singleton.mp hmem ▸ by decide

theorem printable_numeric {c : Char} (h : Numeric c) : Printable c := by
  rcases h with hdigit | hmem
  · simp only [Char.isDigit, Bool.and_eq_true, decide_eq_true_eq, ge_iff_le,
      UInt32.le_iff_toNat_le] at hdigit
    have hlower : 48 ≤ c.toNat := hdigit.1
    have hupper : c.toNat ≤ 57 := hdigit.2
    exact ⟨by omega, by omega⟩
  · simp only [List.mem_cons, List.not_mem_nil, or_false] at hmem
    rcases hmem with rfl | rfl | rfl | rfl | rfl <;> decide

/-- Pieces with commas between them, and brackets around. -/
theorem printable_join {pieces : List Text} (h : ∀ piece ∈ pieces, ∀ c ∈ piece, Printable c) :
    ∀ c ∈ join [',', ' '] pieces, Printable c := by
  have hcomma : ∀ c ∈ [',', ' '], Printable c := forall_of_all (by decide)
  induction pieces with
  | nil => exact List.forall_mem_nil _
  | cons piece pieces ih =>
    obtain ⟨hpiece, hpieces⟩ := List.forall_mem_cons.mp h
    rcases eq_or_ne pieces [] with rfl | hne
    · rw [join, List.intercalate_singleton]
      exact hpiece
    · rw [join, List.intercalate_cons_of_ne_nil hne]
      intro c hmem
      rcases List.mem_append.mp hmem with hmem | hmem
      · rcases List.mem_append.mp hmem with hmem | hmem
        · exact hpiece c hmem
        · exact hcomma c hmem
      · exact ih hpieces c hmem

mutual

/-- **What is written is printable ASCII**, on one line. -/
theorem printable_dumps : ∀ value : Json, Writable value → ∀ c ∈ dumps value, Printable c
  | null, _ => by
    rw [dumps]
    exact forall_of_all (by decide)
  | bool true, _ => by
    rw [dumps]
    exact forall_of_all (by decide)
  | bool false, _ => by
    rw [dumps]
    exact forall_of_all (by decide)
  | number literal, h => by
    rw [dumps]
    rw [Writable] at h
    rcases h with hword | hnumber
    · simp only [List.mem_cons, List.not_mem_nil, or_false] at hword
      rcases hword with rfl | rfl | rfl <;> exact forall_of_all (by decide)
    · exact fun c hmem => printable_numeric (numeric_of_scanNumber hnumber c hmem)
  | string codes, _ => by
    rw [dumps]
    exact printable_quoted codes
  | array items, h => by
    rw [Writable] at h
    rw [dumps]
    refine List.forall_mem_cons.mpr ⟨by decide, fun c hmem => ?_⟩
    rcases List.mem_append.mp hmem with hmem | hmem
    · exact printable_join (printable_dumpsItems items h) c hmem
    · exact List.mem_singleton.mp hmem ▸ by decide
  | object pairs, h => by
    rw [Writable] at h
    rw [dumps]
    refine List.forall_mem_cons.mpr ⟨by decide, fun c hmem => ?_⟩
    rcases List.mem_append.mp hmem with hmem | hmem
    · exact printable_join (printable_dumpsPairs pairs h) c hmem
    · exact List.mem_singleton.mp hmem ▸ by decide

theorem printable_dumpsItems : ∀ items : List Json, WritableItems items →
    ∀ piece ∈ dumpsItems items, ∀ c ∈ piece, Printable c
  | [], _ => by
    rw [dumpsItems]
    exact List.forall_mem_nil _
  | item :: items, h => by
    rw [WritableItems] at h
    rw [dumpsItems]
    exact List.forall_mem_cons.mpr
      ⟨printable_dumps item h.1, printable_dumpsItems items h.2⟩

theorem printable_dumpsPairs : ∀ pairs : List (Codes × Json), WritablePairs pairs →
    ∀ piece ∈ dumpsPairs pairs, ∀ c ∈ piece, Printable c
  | [], _ => by
    rw [dumpsPairs]
    exact List.forall_mem_nil _
  | (key, value) :: pairs, h => by
    rw [WritablePairs] at h
    rw [dumpsPairs]
    refine List.forall_mem_cons.mpr ⟨fun c hmem => ?_, printable_dumpsPairs pairs h.2.2⟩
    rcases List.mem_append.mp hmem with hmem | hmem
    · exact printable_quoted key c hmem
    · rcases List.mem_cons.mp hmem with rfl | hmem
      · decide
      · rcases List.mem_cons.mp hmem with rfl | hmem
        · decide
        · exact printable_dumps value h.2.1 c hmem

end

/-- **The round trip**, of a value alone or on a line of its own. -/
theorem loads_dumps_append {value : Json} (h : Writable value) {space : Text}
    (hspace : space = [] ∨ space = ['\n']) : loads (dumps value ++ space) = some value := by
  have hstops : Stops space := by
    rcases hspace with rfl | rfl
    · exact nofun
    · exact stops_cons (.inr (.inr (.inr rfl))) []
  obtain ⟨least, hleast⟩ := readsBack_dumps value h space hstops
  obtain ⟨c, tail, hc, hhead, -⟩ := dumps_head h
  have hbom : (dumps value ++ space).head? ≠ some '\ufeff' := by
    rw [hc]
    rintro ⟨⟩
    exact absurd (printable_dumps value h '\ufeff' (hc ▸ List.mem_cons_self)) (by decide)
  have hdepth : scanOnce (2 * (dumps value ++ space).length + 1) (dumps value ++ space) =
      some (value, space) := by
    rw [← scanOnce_eq_of_le (le_max_left _ least)]
    exact hleast _ (le_max_right _ _)
  have hskip : skipSpace (dumps value ++ space) = dumps value ++ space := by
    rw [hc]
    exact skipSpace_cons hhead (tail ++ space)
  have hnone : skipSpace space = [] := by
    rcases hspace with rfl | rfl <;> rfl
  rw [loads, if_neg hbom, hskip, hdepth]
  exact if_pos hnone

/-! ## Strings and integers of Python -/

theorem joined_codes (text : Text) : Joined (text.map Char.toNat) := by
  have hvalid : ∀ n ∈ text.map Char.toNat, n.isValidChar := by
    intro n hn
    obtain ⟨c, -, rfl⟩ := List.mem_map.mp hn
    exact c.valid
  have hsurrogate : ∀ n ∈ text.map Char.toNat, ¬ IsHigh n := by
    intro n hn ⟨hlow, hhigh⟩
    rcases hvalid n hn with h | h <;> omega
  refine ⟨fun n hn => ?_, ?_⟩
  · rcases hvalid n hn with h | h <;> omega
  · generalize text.map Char.toNat = codes at hsurrogate
    induction codes with
    | nil => exact .nil
    | cons n codes ih =>
      obtain ⟨hn, hcodes⟩ := List.forall_mem_cons.mp hsurrogate
      cases codes with
      | nil => exact .singleton n
      | cons m codes => exact .cons_cons (fun h => hn h.1) (ih hcodes)

/-- A decimal text does not begin with a zero, but that of zero. -/
theorem toDigits_head {n : ℕ} (h : 0 < n) :
    ∃ c tail, Nat.toDigits 10 n = c :: tail ∧ c ≠ '0' := by
  induction n using Nat.strong_induction_on with
  | _ n ih =>
    rcases Nat.lt_or_ge n 10 with hlt | hge
    · refine ⟨Nat.digitChar n, [], Nat.toDigits_of_lt_base hlt, ?_⟩
      exact (by decide : ∀ n < 10, 0 < n → Nat.digitChar n ≠ '0') n hlt h
    · obtain ⟨c, tail, htext, hc⟩ := ih (n / 10) (by omega) (by omega)
      refine ⟨c, tail ++ [Nat.digitChar (n % 10)], ?_, hc⟩
      rw [Nat.toDigits_of_base_le (by decide) hge, htext, List.cons_append]

theorem digits_eq_self {text : Text} (h : ∀ c ∈ text, c.isDigit = true) : digits text = text :=
  List.takeWhile_eq_self_iff.mpr h

theorem integerPart_toDigits (n : ℕ) : integerPart (Nat.toDigits 10 n) = Nat.toDigits 10 n := by
  rcases Nat.eq_zero_or_pos n with rfl | hpos
  · rfl
  · obtain ⟨c, tail, htext, hc⟩ := toDigits_head hpos
    have hdigits : ∀ d ∈ Nat.toDigits 10 n, d.isDigit = true := fun d hd =>
      Nat.isDigit_of_mem_toDigits (by decide) (by decide) hd
    rw [htext] at hdigits ⊢
    rw [integerPart, digits_eq_self hdigits]
    exact fun _ heq => hc (List.cons.inj heq).1

/-- **Integers** are numbers. -/
theorem isNumber_toString (n : ℤ) : IsNumber (toString n).toList := by
  have hwhole : ∀ m : ℕ, followedBy integerPart (followedBy fractionPart exponentPart)
      (Nat.toDigits 10 m) = Nat.toDigits 10 m := by
    intro m
    rw [followedBy, integerPart_toDigits, List.drop_length]
    exact List.append_nil _
  have hne : ∀ m : ℕ, integerPart (Nat.toDigits 10 m) ≠ [] := fun m =>
    (integerPart_toDigits m).symm ▸ Nat.toDigits_ne_nil
  have hnat : ∀ m : ℕ, signPart (Nat.toDigits 10 m) = [] := by
    intro m
    cases htext : Nat.toDigits 10 m with
    | nil => rfl
    | cons c tail =>
      have hc : c.isDigit = true := Nat.isDigit_of_mem_toDigits (by decide) (by decide)
        (htext ▸ List.mem_cons_self : c ∈ Nat.toDigits 10 m)
      rw [signPart]
      rintro _ heq
      rw [(List.cons.inj heq).1] at hc
      exact absurd hc (by decide)
  right
  rw [Int.toString_eq_repr, Int.repr_eq_if]
  split
  case isTrue hnonneg =>
    rw [Nat.toList_repr, scanNumber, hnat]
    refine (if_neg (hne _)).trans ?_
    rw [followedBy, hnat]
    show some (followedBy _ _ (Nat.toDigits 10 _),
      List.drop (followedBy _ _ (Nat.toDigits 10 _)).length _) = _
    rw [hwhole, List.drop_length]
  case isFalse hneg =>
    have htext : ("-" ++ (-n).toNat.repr).toList = '-' :: Nat.toDigits 10 (-n).toNat := by
      rw [String.toList_append, Nat.toList_repr]
      rfl
    rw [htext, scanNumber]
    refine (if_neg (hne _)).trans ?_
    rw [followedBy]
    show some ('-' :: followedBy _ _ (Nat.toDigits 10 _),
      List.drop ('-' :: followedBy _ _ (Nat.toDigits 10 _)).length _) = _
    rw [hwhole, List.drop_length]

end Json

end Python
