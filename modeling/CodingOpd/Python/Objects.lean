import CodingOpd.Python.Collections
import CodingOpd.Python.Text

/-!
# Objects

The objects that come from JSON texts, and what `json.dumps` writes for them. A text that it writes
has no line feed: those of the strings are escaped.

## Main definitions

* `Object`: a value of a JSON text, in memory
* `dumps`: `json.dumps(value, ensure_ascii=False)`

## Main results

* `newline_notMem_dumps`: what is written stands on one line
-/

namespace Python

/-- What `json.dumps` writes for a number: letters, digits, signs and points. -/
structure Literal where
  text : Text
  plain : ∀ c ∈ text, c.isAlphanum ∨ c ∈ ['+', '-', '.']

/-- A value of a JSON text, in memory. -/
inductive Object where
  | null
  | bool (value : Bool)
  | number (literal : Literal)
  | str (text : Text)
  | list (items : List Object)
  | dict (items : List (String × Object))

namespace Object

/-- `ESCAPE_DCT` -/
def escapeChar : Char → Text
  | '"' => ['\\', '"']
  | '\\' => ['\\', '\\']
  | '\n' => ['\\', 'n']
  | '\r' => ['\\', 'r']
  | '\t' => ['\\', 't']
  | '\x08' => ['\\', 'b']
  | '\x0c' => ['\\', 'f']
  | c =>
    if c.toNat < 0x20 then
      ['\\', 'u', '0', '0', Nat.digitChar (c.toNat / 16), Nat.digitChar (c.toNat % 16)]
    else [c]

/-- `encode_basestring` -/
def quoted (text : Text) : Text := '"' :: (text.flatMap escapeChar ++ ['"'])

mutual

/-- `json.dumps(value, ensure_ascii=False)` -/
def dumps : Object → Text
  | null => ['n', 'u', 'l', 'l']
  | bool true => ['t', 'r', 'u', 'e']
  | bool false => ['f', 'a', 'l', 's', 'e']
  | number literal => literal.text
  | str text => quoted text
  | list items => '[' :: (join [',', ' '] (dumpsItems items) ++ [']'])
  | dict items => '{' :: (join [',', ' '] (dumpsPairs items) ++ ['}'])

/-- The items of a list. -/
def dumpsItems : List Object → List Text
  | [] => []
  | item :: items => dumps item :: dumpsItems items

/-- The items of a dictionary. -/
def dumpsPairs : List (String × Object) → List Text
  | [] => []
  | (key, value) :: items => (quoted key.toList ++ ':' :: ' ' :: dumps value) :: dumpsPairs items

end

/-! ## Lines -/

theorem newline_ne_digitChar : ∀ n < 16, '\n' ≠ Nat.digitChar n := by decide

theorem newline_notMem_escapeChar (c : Char) : '\n' ∉ escapeChar c := by
  unfold escapeChar
  split
  case h_3 => decide
  case h_8 hnewline _ _ _ _ =>
    split
    case isTrue hcontrol =>
      have hhigh := newline_ne_digitChar (c.toNat / 16) (by omega)
      have hlow := newline_ne_digitChar (c.toNat % 16) (Nat.mod_lt _ (by decide))
      simp [hhigh, hlow]
    case isFalse => simpa using Ne.symm hnewline
  all_goals decide

theorem newline_notMem_quoted (text : Text) : '\n' ∉ quoted text := by
  rw [quoted, List.mem_cons, List.mem_append, List.mem_flatMap]
  rintro (heq | ⟨c, -, hmem⟩ | hmem)
  · exact absurd heq (by decide)
  · exact newline_notMem_escapeChar c hmem
  · exact absurd hmem (by decide)

/-- A character of joined pieces is one of the separator or of a piece. -/
theorem mem_join {separator : Text} {pieces : List Text} {c : Char}
    (h : c ∈ join separator pieces) : c ∈ separator ∨ ∃ piece ∈ pieces, c ∈ piece := by
  induction pieces with
  | nil => exact absurd h List.not_mem_nil
  | cons piece pieces ih =>
    rcases eq_or_ne pieces [] with rfl | hne
    · rw [join, List.intercalate_singleton] at h
      exact Or.inr ⟨piece, List.mem_cons_self, h⟩
    · rw [join, List.intercalate_cons_of_ne_nil hne, List.mem_append, List.mem_append] at h
      rcases h with (h | h) | h
      · exact Or.inr ⟨piece, List.mem_cons_self, h⟩
      · exact Or.inl h
      · refine (ih h).imp_right fun hpiece => ?_
        obtain ⟨other, hother, hmem⟩ := hpiece
        exact ⟨other, List.mem_cons_of_mem _ hother, hmem⟩

mutual

/-- **What is written stands on one line.** -/
theorem newline_notMem_dumps : ∀ value : Object, '\n' ∉ dumps value
  | null => by
    rw [dumps]
    decide
  | bool true => by
    rw [dumps]
    decide
  | bool false => by
    rw [dumps]
    decide
  | number literal => by
    rw [dumps]
    intro hmem
    rcases literal.plain _ hmem with halpha | hsign
    · exact absurd halpha (by decide)
    · exact absurd hsign (by decide)
  | str text => by
    rw [dumps]
    exact newline_notMem_quoted text
  | list items => by
    rw [dumps, List.mem_cons, List.mem_append]
    rintro (heq | hmem | hmem)
    · exact absurd heq (by decide)
    · rcases mem_join hmem with hmem | ⟨piece, hpiece, hmem⟩
      · exact absurd hmem (by decide)
      · exact newline_notMem_dumpsItems items piece hpiece hmem
    · exact absurd hmem (by decide)
  | dict items => by
    rw [dumps, List.mem_cons, List.mem_append]
    rintro (heq | hmem | hmem)
    · exact absurd heq (by decide)
    · rcases mem_join hmem with hmem | ⟨piece, hpiece, hmem⟩
      · exact absurd hmem (by decide)
      · exact newline_notMem_dumpsPairs items piece hpiece hmem
    · exact absurd hmem (by decide)

theorem newline_notMem_dumpsItems : ∀ items : List Object, ∀ piece ∈ dumpsItems items, '\n' ∉ piece
  | [] => by simp [dumpsItems]
  | item :: items => by
    rw [dumpsItems]
    exact List.forall_mem_cons.mpr
      ⟨newline_notMem_dumps item, newline_notMem_dumpsItems items⟩

theorem newline_notMem_dumpsPairs :
    ∀ items : List (String × Object), ∀ piece ∈ dumpsPairs items, '\n' ∉ piece
  | [] => by simp [dumpsPairs]
  | (key, value) :: items => by
    rw [dumpsPairs]
    refine List.forall_mem_cons.mpr ⟨?_, newline_notMem_dumpsPairs items⟩
    simp [newline_notMem_quoted, newline_notMem_dumps value]

end

end Object

end Python
