import CodingOpd.Python.Text

/-!
# UTF-8

`bytes.decode("utf-8", errors="replace")` reads one byte after the other. A byte that cannot
continue the character begun before it ends that character as U+FFFD and is read on its own.

## Main definitions

* `encode`: the bytes of a text
* `decode`: the text of some bytes, ill-formed or not

## Main results

* `decode_encode_append`: encoded text is decoded as itself
* `decode_append_encode`: a byte string is decoded apart from the ASCII text behind it
-/

namespace Python

/-- A byte string. -/
abbrev Bytes := List UInt8

namespace Utf8

/-- `text.encode("utf-8")`. -/
def encode (text : Text) : Bytes := text.flatMap String.utf8EncodeChar

/-- U+FFFD. -/
def replacement : Char := '\ufffd'

/-- A character of several bytes that is not read to its end. -/
structure Started where
  /-- the least and the greatest byte that continue it -/
  low : ℕ
  high : ℕ
  /-- the bytes it takes behind the next one -/
  left : ℕ
  /-- its bits so far -/
  code : ℕ
  beyondAscii : 0x80 ≤ low

/-- Reads a byte between two characters. -/
def lead (byte : ℕ) : Text × Option Started :=
  if byte < 0x80 then ([Char.ofNat byte], none)
  else if 0xc2 ≤ byte ∧ byte ≤ 0xdf then
    ([], some ⟨0x80, 0xbf, 0, byte % 0x20, le_rfl⟩)
  else if byte = 0xe0 then ([], some ⟨0xa0, 0xbf, 1, byte % 0x10, by decide⟩)
  -- 0xed would begin a surrogate with a byte from 0xa0 on
  else if byte = 0xed then ([], some ⟨0x80, 0x9f, 1, byte % 0x10, le_rfl⟩)
  else if 0xe1 ≤ byte ∧ byte ≤ 0xef then ([], some ⟨0x80, 0xbf, 1, byte % 0x10, le_rfl⟩)
  else if byte = 0xf0 then ([], some ⟨0x90, 0xbf, 2, byte % 0x08, by decide⟩)
  else if 0xf1 ≤ byte ∧ byte ≤ 0xf3 then ([], some ⟨0x80, 0xbf, 2, byte % 0x08, le_rfl⟩)
  else if byte = 0xf4 then ([], some ⟨0x80, 0x8f, 2, byte % 0x08, le_rfl⟩)
  else ([replacement], none)

/-- Reads a byte. -/
def next : Option Started → ℕ → Text × Option Started
  | none, byte => lead byte
  | some started, byte =>
    if started.low ≤ byte ∧ byte ≤ started.high then
      match started.left with
      | 0 => ([Char.ofNat (started.code * 0x40 + byte % 0x40)], none)
      | left + 1 => ([], some ⟨0x80, 0xbf, left, started.code * 0x40 + byte % 0x40, le_rfl⟩)
    else (replacement :: (lead byte).1, (lead byte).2)

/-- The text of the bytes behind a started character. -/
def decodeFrom : Option Started → Bytes → Text
  | none, [] => []
  | some _, [] => [replacement]
  | started, byte :: bytes =>
    (next started byte.toNat).1 ++ decodeFrom (next started byte.toNat).2 bytes

/-- `bytes.decode("utf-8", errors="replace")`. -/
def decode (bytes : Bytes) : Text := decodeFrom none bytes

@[simp] theorem encode_nil : encode [] = [] := rfl

@[simp] theorem encode_cons (c : Char) (text : Text) :
    encode (c :: text) = String.utf8EncodeChar c ++ encode text := rfl

@[simp] theorem encode_append (text rest : Text) :
    encode (text ++ rest) = encode text ++ encode rest := List.flatMap_append

@[simp] theorem decode_nil : decode [] = [] := rfl

theorem decodeFrom_cons (started : Option Started) (byte : UInt8) (bytes : Bytes) :
    decodeFrom started (byte :: bytes) =
      (next started byte.toNat).1 ++ decodeFrom (next started byte.toNat).2 bytes := by
  cases started <;> rfl

theorem next_last {started : Started} {byte : ℕ} (hleft : started.left = 0)
    (hbyte : started.low ≤ byte ∧ byte ≤ started.high) :
    next (some started) byte = ([Char.ofNat (started.code * 0x40 + byte % 0x40)], none) := by
  rw [next, if_pos hbyte, hleft]

theorem next_more {started : Started} {byte left : ℕ} (hleft : started.left = left + 1)
    (hbyte : started.low ≤ byte ∧ byte ≤ started.high) :
    next (some started) byte =
      ([], some ⟨0x80, 0xbf, left, started.code * 0x40 + byte % 0x40, le_rfl⟩) := by
  rw [next, if_pos hbyte, hleft]

theorem lead_three (byte : ℕ) (h : 0xe0 ≤ byte ∧ byte ≤ 0xef) :
    ∃ started, lead byte = ([], some started) ∧ started.left = 1 ∧ started.code = byte % 0x10 ∧
      started.low = (if byte = 0xe0 then 0xa0 else 0x80) ∧
      started.high = (if byte = 0xed then 0x9f else 0xbf) := by
  unfold lead
  rw [if_neg (by omega), if_neg (by omega)]
  by_cases he0 : byte = 0xe0
  · exact ⟨_, if_pos he0, rfl, rfl, by simp [he0], by simp [he0]⟩
  by_cases hed : byte = 0xed
  · exact ⟨_, by rw [if_neg he0, if_pos hed], rfl, rfl, by simp [hed], by simp [hed]⟩
  · refine ⟨_, by rw [if_neg he0, if_neg hed, if_pos (by omega)], rfl, rfl, ?_, ?_⟩
    · rw [if_neg he0]
    · rw [if_neg hed]

theorem lead_four (byte : ℕ) (h : 0xf0 ≤ byte ∧ byte ≤ 0xf4) :
    ∃ started, lead byte = ([], some started) ∧ started.left = 2 ∧ started.code = byte % 0x08 ∧
      started.low = (if byte = 0xf0 then 0x90 else 0x80) ∧
      started.high = (if byte = 0xf4 then 0x8f else 0xbf) := by
  unfold lead
  rw [if_neg (by omega), if_neg (by omega), if_neg (by omega), if_neg (by omega),
    if_neg (by omega)]
  by_cases hf0 : byte = 0xf0
  · exact ⟨_, if_pos hf0, rfl, rfl, by simp [hf0], by simp [hf0]⟩
  by_cases hf4 : byte = 0xf4
  · refine ⟨_, by rw [if_neg hf0, if_neg (by omega), if_pos hf4], rfl, rfl, ?_, ?_⟩
    · rw [if_neg hf0]
    · rw [if_pos hf4]
  · refine ⟨_, by rw [if_neg hf0, if_pos (by omega)], rfl, rfl, ?_, ?_⟩
    · rw [if_neg hf0]
    · rw [if_neg hf4]

theorem tail_mem (v : ℕ) : 0x80 ≤ v % 0x40 + 0x80 ∧ v % 0x40 + 0x80 ≤ 0xbf := by omega

/-- The bytes of a character are decoded as the character. -/
theorem decode_utf8EncodeChar_append (c : Char) (bytes : Bytes) :
    decode (String.utf8EncodeChar c ++ bytes) = c :: decode bytes := by
  have hvalid : c.val.toNat < 0xd800 ∨ 0xdfff < c.val.toNat ∧ c.val.toNat < 0x110000 := c.valid
  have hof : Char.ofNat c.val.toNat = c := Char.ofNat_toNat c
  have htoNat : ∀ n : ℕ, n < 0x100 → (UInt8.ofNat n).toNat = n := fun n hn => by
    rw [UInt8.toNat_ofNat', Nat.mod_eq_of_lt hn]
  rw [String.utf8EncodeChar]
  generalize c.val.toNat = v at hvalid hof ⊢
  -- One case for each number of bytes, and the tail bytes are read one by one.
  split_ifs with hone htwo hthree
  · rw [List.cons_append, decode, decodeFrom_cons, htoNat v (by omega), next, lead,
      if_pos (by omega), hof]
    rfl
  · rw [List.cons_append, decode, decodeFrom_cons, htoNat _ (by omega), next, lead,
      if_neg (by omega), if_pos (by omega), List.cons_append, decodeFrom_cons, htoNat _ (by omega),
      next_last rfl (tail_mem v)]
    have hcode : (v / 64 % 0x20 + 0xc0) % 0x20 * 0x40 + (v % 0x40 + 0x80) % 0x40 = v := by omega
    rw [hcode, hof]
    rfl
  · obtain ⟨started, hlead, hleft, hcode, hlow, hhigh⟩ :=
      lead_three (v / 4096 % 0x10 + 0xe0) ⟨by omega, by omega⟩
    rw [List.cons_append, decode, decodeFrom_cons, htoNat _ (by omega), next, hlead,
      List.cons_append, decodeFrom_cons, htoNat _ (by omega), next_more hleft]
    swap
    · -- no surrogate and no long form: the second byte is in the range of the lead byte
      rw [hlow, hhigh]
      split_ifs <;> omega
    rw [List.cons_append, decodeFrom_cons, htoNat _ (by omega),
      next_last rfl (tail_mem v), hcode]
    have hcode : ((v / 4096 % 0x10 + 0xe0) % 0x10 * 0x40 + (v / 64 % 0x40 + 0x80) % 0x40) * 0x40 +
        (v % 0x40 + 0x80) % 0x40 = v := by omega
    dsimp only
    rw [hcode, hof]
    rfl
  · obtain ⟨started, hlead, hleft, hcode, hlow, hhigh⟩ :=
      lead_four (v / 262144 % 0x08 + 0xf0) ⟨by omega, by omega⟩
    rw [List.cons_append, decode, decodeFrom_cons, htoNat _ (by omega), next, hlead,
      List.cons_append, decodeFrom_cons, htoNat _ (by omega), next_more hleft]
    swap
    · rw [hlow, hhigh]
      split_ifs <;> omega
    rw [List.cons_append, decodeFrom_cons, htoNat _ (by omega),
      next_more rfl (tail_mem (v / 64)), List.cons_append, decodeFrom_cons,
      htoNat _ (by omega), next_last rfl (tail_mem v), hcode]
    have hcode : (((v / 262144 % 0x08 + 0xf0) % 0x08 * 0x40 + (v / 4096 % 0x40 + 0x80) % 0x40) *
        0x40 + (v / 64 % 0x40 + 0x80) % 0x40) * 0x40 + (v % 0x40 + 0x80) % 0x40 = v := by omega
    dsimp only
    rw [hcode, hof]
    rfl

/-- **Encoded text is decoded as itself.** -/
theorem decode_encode_append (text : Text) (bytes : Bytes) :
    decode (encode text ++ bytes) = text ++ decode bytes := by
  induction text with
  | nil => rfl
  | cons c text ih =>
    rw [encode_cons, List.append_assoc, decode_utf8EncodeChar_append, ih, List.cons_append]

theorem decode_encode (text : Text) : decode (encode text) = text := by
  simpa using decode_encode_append text []

theorem encode_injective : Function.Injective encode := Function.LeftInverse.injective decode_encode

/-- An ASCII byte ends a started character. -/
theorem decodeFrom_ascii (started : Option Started) {byte : UInt8} (hbyte : byte.toNat < 0x80)
    (bytes : Bytes) :
    decodeFrom started (byte :: bytes) =
      decodeFrom started [] ++ Char.ofNat byte.toNat :: decode bytes := by
  have hlead : lead byte.toNat = ([Char.ofNat byte.toNat], none) := by rw [lead, if_pos hbyte]
  rw [decodeFrom_cons]
  rcases started with _ | started
  · rw [next, hlead]
    rfl
  · have hlow := started.beyondAscii
    rw [next, if_neg (by omega), hlead]
    rfl

theorem decodeFrom_append_ascii (started : Option Started) (before : Bytes) {byte : UInt8}
    (hbyte : byte.toNat < 0x80) (bytes : Bytes) :
    decodeFrom started (before ++ byte :: bytes) =
      decodeFrom started before ++ Char.ofNat byte.toNat :: decode bytes := by
  induction before generalizing started with
  | nil => exact decodeFrom_ascii started hbyte bytes
  | cons first before ih =>
    rw [List.cons_append, decodeFrom_cons, ih, decodeFrom_cons, List.append_assoc]

/-- **Bytes are decoded apart** from the text behind them, where it begins with an ASCII
character. -/
theorem decode_append_encode (before : Bytes) {c : Char} (hc : c.toNat < 0x80) (text : Text)
    (bytes : Bytes) :
    decode (before ++ (encode (c :: text) ++ bytes)) =
      decode before ++ (c :: text) ++ decode bytes := by
  have hbyte : String.utf8EncodeChar c = [UInt8.ofNat c.toNat] := by
    rw [String.utf8EncodeChar]
    exact if_pos (by rw [Char.toNat] at hc; omega)
  have htoNat : (UInt8.ofNat c.toNat).toNat = c.toNat := by
    rw [UInt8.toNat_ofNat']
    omega
  rw [encode_cons, hbyte, List.singleton_append, List.cons_append, decode,
    decodeFrom_append_ascii none before (by rwa [htoNat]), htoNat, Char.ofNat_toNat,
    decode_encode_append, ← decode]
  simp

end Utf8

end Python
