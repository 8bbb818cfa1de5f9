import Mathlib.Data.List.DropRight
import Mathlib.Data.List.Infix

/-!
# Text

A string of Python is the list of its characters.

## Main definitions

* `splitlines`, `strip`, `partition`, `split`, `rsplit`: `str.splitlines`, `str.strip`, and
  `str.split` of a separator, once, throughout and from the right
* `Ends`: a piece of text that the next separator ends

## Main results

* `splitlines_append_newline`: the lines of a text behind its first line feed
* `partition_append`, `split_append`: a text is split behind a piece that the separator ends
-/

namespace Python

/-- A string, as its characters. -/
abbrev Text := List Char

/-- A property of all the characters of a text, by a check of each. -/
theorem forall_of_all {p : Char → Prop} [DecidablePred p] {text : Text}
    (h : text.all (p ·) = true) : ∀ c ∈ text, p c := by
  intro c hmem
  exact of_decide_eq_true (List.all_eq_true.mp h c hmem)

/-- The boundaries of `str.splitlines`, of one character. -/
def isLineBreak (c : Char) : Bool :=
  c ∈ ['\n', '\r', '\x0b', '\x0c', '\x1c', '\x1d', '\x1e', '\u0085', '\u2028', '\u2029']

/-- The lines of a text, behind the start of its first line. -/
def splitlinesFrom (line : Text) : Text → List Text
  | [] => if line = [] then [] else [line]
  | '\r' :: '\n' :: rest => line :: splitlinesFrom [] rest
  | c :: rest =>
    if isLineBreak c then line :: splitlinesFrom [] rest else splitlinesFrom (line ++ [c]) rest

/-- `text.splitlines()`. -/
def splitlines (text : Text) : List Text := splitlinesFrom [] text

theorem splitlinesFrom_cons {line rest : Text} {c : Char} (hc : c ≠ '\r') :
    splitlinesFrom line (c :: rest) =
      if isLineBreak c then line :: splitlinesFrom [] rest
      else splitlinesFrom (line ++ [c]) rest := by
  rw [splitlinesFrom]
  exact fun _ h => absurd h hc

/-- The lines up to a line feed are what the boundaries leave of the text before it. -/
theorem splitlinesFrom_append_newline {line text rest : Text} (hreturn : '\r' ∉ text) :
    splitlinesFrom line (text ++ '\n' :: rest) =
      (text.splitOnP isLineBreak).modifyHead (line ++ ·) ++ splitlinesFrom [] rest := by
  induction text generalizing line with
  | nil =>
    rw [List.nil_append, splitlinesFrom_cons (by decide), if_pos (by decide), List.splitOnP_nil]
    simp
  | cons c text ih =>
    obtain ⟨hc, htext⟩ := List.ne_and_not_mem_of_not_mem_cons hreturn
    rw [List.cons_append, splitlinesFrom_cons hc.symm, List.splitOnP_cons_eq_if_modifyHead]
    split
    · rw [ih htext]
      cases h : text.splitOnP isLineBreak <;> simp
    · rw [ih htext, List.modifyHead_modifyHead]
      congr 2
      funext piece
      simp

/-- **The lines of a text** behind a line feed are split on their own. -/
theorem splitlines_append_newline {text rest : Text} (hreturn : '\r' ∉ text) :
    splitlines (text ++ '\n' :: rest) = text.splitOnP isLineBreak ++ splitlines rest := by
  rw [splitlines, splitlinesFrom_append_newline hreturn, splitlines]
  cases h : text.splitOnP isLineBreak <;> simp

/-- The lines of a file that is read as text, behind the start of the first one: every line break is
read as a line feed, which the lines keep. -/
def fileLinesFrom (line : Text) : Text → List Text
  | [] => if line = [] then [] else [line]
  | '\r' :: '\n' :: rest => (line ++ ['\n']) :: fileLinesFrom [] rest
  | c :: rest =>
    if c = '\n' ∨ c = '\r' then (line ++ ['\n']) :: fileLinesFrom [] rest
    else fileLinesFrom (line ++ [c]) rest

/-- The lines of a file that is read as text. -/
def fileLines (text : Text) : List Text := fileLinesFrom [] text

theorem fileLinesFrom_append_newline {line text : Text}
    (h : ∀ c ∈ text, c ≠ '\n' ∧ c ≠ '\r') (rest : Text) :
    fileLinesFrom line (text ++ '\n' :: rest) = (line ++ text ++ ['\n']) :: fileLines rest := by
  induction text generalizing line with
  | nil =>
    rw [List.nil_append, fileLinesFrom, if_pos (.inl rfl), List.append_nil, fileLines]
    rintro _ heq -
    exact absurd heq (by decide)
  | cons c text ih =>
    obtain ⟨hc, htext⟩ := List.forall_mem_cons.mp h
    rw [List.cons_append, fileLinesFrom, if_neg (not_or.mpr hc), ih htext, List.append_assoc line,
      List.singleton_append]
    · exact fun _ heq _ => hc.2 heq

/-- **The lines that were written** to a file, with a line feed behind each. -/
theorem fileLines_flatMap {lines : List Text}
    (h : ∀ line ∈ lines, ∀ c ∈ line, c ≠ '\n' ∧ c ≠ '\r') :
    fileLines (lines.flatMap (· ++ ['\n'])) = lines.map (· ++ ['\n']) := by
  induction lines with
  | nil => rfl
  | cons line lines ih =>
    obtain ⟨hline, hlines⟩ := List.forall_mem_cons.mp h
    rw [List.flatMap_cons, List.append_assoc, List.singleton_append, fileLines,
      fileLinesFrom_append_newline hline, ih hlines]
    rfl

/-! ## Blanks -/

/-- The characters of `str.isspace`, which are those of `\s`. -/
def isSpace (c : Char) : Bool :=
  c ∈ ['\t', '\n', '\x0b', '\x0c', '\r', '\x1c', '\x1d', '\x1e', '\x1f', ' ', '\u0085', '\u00a0',
    '\u1680', '\u2000', '\u2001', '\u2002', '\u2003', '\u2004', '\u2005', '\u2006', '\u2007',
    '\u2008', '\u2009', '\u200a', '\u2028', '\u2029', '\u202f', '\u205f', '\u3000']

/-- `text.rstrip()`. -/
def rstrip (text : Text) : Text := text.rdropWhile isSpace

/-- `text.strip()`. -/
def strip (text : Text) : Text := rstrip (text.dropWhile isSpace)

/-- A text with no blanks at its ends. -/
def Stripped (text : Text) : Prop :=
  (∀ c ∈ text.head?, isSpace c = false) ∧ ∀ c ∈ text.getLast?, isSpace c = false

instance (text : Text) : Decidable (Stripped text) :=
  decidable_of_iff (text.head?.all (! isSpace ·) ∧ text.getLast?.all (! isSpace ·))
    (by simp [Stripped, Option.all_eq_true])

/-- What is dropped at the end of a text is dropped at the end of its last piece. -/
theorem rdropWhile_append_cons {p : Char → Bool} {text : Text} {c : Char} (hc : p c = false)
    (rest : Text) : (text ++ c :: rest).rdropWhile p = text ++ c :: rest.rdropWhile p := by
  have hstop : ((c :: text.reverse).dropWhile p) = c :: text.reverse :=
    List.dropWhile_cons_of_neg (by simp [hc])
  rw [List.rdropWhile, List.rdropWhile, List.reverse_append, List.reverse_cons,
    List.append_assoc, List.singleton_append, List.dropWhile_append, hstop]
  split_ifs with hempty
  · rw [List.isEmpty_iff.mp hempty]
    simp
  · simp

/-- `text.split(separator, 1)`: what stands before the first separator and behind it. -/
def partition (separator : Text) : Text → Option (Text × Text)
  | [] => none
  | c :: text =>
    if separator.isPrefixOf (c :: text) then some ([], (c :: text).drop separator.length)
    else (partition separator text).map fun (before, after) => (c :: before, after)

/-- `text.rpartition(separator)`, where the separator occurs: what stands before the last one and
behind it. -/
def rpartition (separator text : Text) : Option (Text × Text) :=
  (partition separator.reverse text.reverse).map fun (after, before) =>
    (before.reverse, after.reverse)

/-- The pieces of a text, behind what is left of a separator. -/
def splitFrom (separator : Text) : ℕ → Text → List Text
  | _, [] => [[]]
  | left + 1, _ :: text => splitFrom separator left text
  | 0, c :: text =>
    if separator.isPrefixOf (c :: text) then
      [] :: splitFrom separator (separator.length - 1) text
    else (splitFrom separator 0 text).modifyHead (c :: ·)

/-- `text.split(separator)`. -/
def split (separator text : Text) : List Text := splitFrom separator 0 text

/-- `separator.join(pieces)`. -/
def join (separator : Text) (pieces : List Text) : Text := List.intercalate separator pieces

/-- The separator behind a piece of text is the first one. -/
def Ends (separator piece : Text) : Prop := ¬ separator <:+: piece ++ separator.dropLast

instance (separator piece : Text) : Decidable (Ends separator piece) :=
  inferInstanceAs (Decidable (¬ _))

section Separators

variable {separator piece rest text : Text}

/-- Before its end no separator starts in a piece. -/
theorem Ends.not_isPrefixOf {c : Char} (h : Ends separator (c :: piece)) (rest : Text) :
    ¬ separator.isPrefixOf (c :: (piece ++ (separator ++ rest))) := by
  rw [List.isPrefixOf_iff_prefix]
  intro hstarts
  apply h
  have hpiece : c :: piece ++ separator.dropLast <+: c :: (piece ++ (separator ++ rest)) :=
    (List.prefix_append_right_inj (c :: piece)).mpr
      ((List.dropLast_prefix _).trans (List.prefix_append _ _))
  refine (List.prefix_of_prefix_length_le hstarts hpiece ?_).isInfix
  rw [List.length_append, List.length_dropLast, List.length_cons]
  omega

theorem Ends.tail {c : Char} (h : Ends separator (c :: piece)) : Ends separator piece :=
  fun hwithin => h (hwithin.trans (List.suffix_cons _ _).isInfix)

/-- **A text is parted** behind a piece that the separator ends. -/
theorem partition_append (hseparator : separator ≠ []) (h : Ends separator piece) (rest : Text) :
    partition separator (piece ++ (separator ++ rest)) = some (piece, rest) := by
  induction piece with
  | nil =>
    obtain ⟨c, separator, rfl⟩ := List.exists_cons_of_ne_nil hseparator
    have hstarts : (c :: separator).isPrefixOf (c :: (separator ++ rest)) := by
      rw [List.isPrefixOf_iff_prefix]
      exact List.prefix_append (c :: separator) rest
    rw [List.nil_append, List.cons_append, partition, if_pos hstarts]
    simp
  | cons c piece ih =>
    rw [List.cons_append, partition, if_neg (h.not_isPrefixOf rest), ih h.tail]
    rfl

/-- A separator within a text has a first place. -/
theorem exists_ends (hseparator : separator ≠ []) (h : separator <:+: text) :
    ∃ before after, text = before ++ (separator ++ after) ∧ Ends separator before := by
  induction text with
  | nil => exact absurd (List.eq_nil_of_infix_nil h) hseparator
  | cons c text ih =>
    by_cases hstarts : separator <+: c :: text
    · obtain ⟨after, hafter⟩ := hstarts
      refine ⟨[], after, hafter.symm, fun hwithin => ?_⟩
      have hlength := hwithin.length_le
      have hpos := List.length_pos_iff.mpr hseparator
      rw [List.nil_append, List.length_dropLast] at hlength
      omega
    · obtain ⟨before, after, rfl, hends⟩ := ih ((List.infix_cons_iff.mp h).resolve_left hstarts)
      refine ⟨c :: before, after, rfl, fun hwithin => ?_⟩
      rcases List.infix_cons_iff.mp hwithin with hstarts' | hwithin
      · refine hstarts (hstarts'.trans ?_)
        rw [List.prefix_cons_inj]
        exact (List.prefix_append_right_inj before).mpr
          ((List.dropLast_prefix _).trans (List.prefix_append _ _))
      · exact hends hwithin

theorem partition_eq_none (h : ¬ separator <:+: text) : partition separator text = none := by
  induction text with
  | nil => rfl
  | cons c text ih =>
    have hstarts : ¬ separator.isPrefixOf (c :: text) := fun hstarts =>
      h (List.isPrefixOf_iff_prefix.mp hstarts).isInfix
    rw [partition, if_neg hstarts,
      ih fun hwithin => h (hwithin.trans (List.suffix_cons _ _).isInfix)]
    rfl

/-- The separator before a piece of text is the last one. -/
def Begins (separator piece : Text) : Prop := ¬ separator <:+: separator.tail ++ piece

theorem ends_reverse_iff : Ends separator.reverse piece.reverse ↔ Begins separator piece := by
  rw [Ends, Begins, List.dropLast_reverse, ← List.reverse_append, List.reverse_infix]

/-- **A text is parted** before a piece that the last separator begins. -/
theorem rpartition_append (hseparator : separator ≠ []) (h : Begins separator piece)
    (before : Text) :
    rpartition separator (before ++ (separator ++ piece)) = some (before, piece) := by
  have hparts := partition_append (mt List.reverse_eq_nil_iff.mp hseparator)
    (ends_reverse_iff.mpr h) before.reverse
  rw [rpartition, List.reverse_append, List.reverse_append, List.append_assoc, hparts]
  simp

theorem rpartition_eq_none (h : ¬ separator <:+: text) : rpartition separator text = none := by
  rw [rpartition, partition_eq_none (mt List.reverse_infix.mp h)]
  rfl

/-- `text.rsplit(separator, maxsplit)`. -/
def rsplit (separator : Text) : ℕ → Text → List Text
  | 0, text => [text]
  | maxsplit + 1, text =>
    match rpartition separator text with
    | none => [text]
    | some (before, piece) => rsplit separator maxsplit before ++ [piece]

theorem rsplit_of_notMem {c : Char} (h : c ∉ text) (maxsplit : ℕ) :
    rsplit [c] maxsplit text = [text] := by
  cases maxsplit with
  | zero => rfl
  | succ maxsplit =>
    rw [rsplit, rpartition_eq_none fun hwithin => h (hwithin.subset List.mem_cons_self)]

/-- A text is split before a piece without separators. -/
theorem rsplit_append_cons {c : Char} (h : c ∉ piece) (maxsplit : ℕ) (before : Text) :
    rsplit [c] (maxsplit + 1) (before ++ c :: piece) = rsplit [c] maxsplit before ++ [piece] := by
  have hbegins : Begins [c] piece := fun hwithin => h (hwithin.subset List.mem_cons_self)
  have hparts : rpartition [c] (before ++ c :: piece) = some (before, piece) :=
    rpartition_append (List.cons_ne_nil c []) hbegins before
  rw [rsplit, hparts]

/-- A separator within a text has a last place. -/
theorem exists_begins (hseparator : separator ≠ []) (h : separator <:+: text) :
    ∃ before after, text = before ++ (separator ++ after) ∧ Begins separator after := by
  obtain ⟨after, before, hparts, hends⟩ :=
    exists_ends (mt List.reverse_eq_nil_iff.mp hseparator) (List.reverse_infix.mpr h)
  refine ⟨before.reverse, after.reverse, ?_, ?_⟩
  · rw [← List.reverse_reverse text, hparts]
    simp
  · rw [← ends_reverse_iff, List.reverse_reverse]
    exact hends

/-- A separator does not reach over a character that it has not. -/
theorem infix_append_cons_iff {c : Char} (hc : c ∉ separator) {before after : Text} :
    separator <:+: before ++ c :: after ↔ separator <:+: before ∨ separator <:+: after := by
  constructor
  · rintro ⟨s, t, heq⟩
    rw [List.append_assoc, List.append_eq_append_iff] at heq
    rcases heq with ⟨rest, rfl, hrest⟩ | ⟨rest, rfl, hrest⟩
    · rcases List.append_eq_append_iff.mp hrest with ⟨rest', rfl, -⟩ | ⟨rest', hsep, hafter⟩
      · exact .inl ⟨s, rest', by simp⟩
      · rcases rest' with _ | ⟨d, rest'⟩
        · rw [List.append_nil] at hsep
          exact .inl ⟨s, [], by simp [hsep]⟩
        · rw [List.cons_append, List.cons.injEq] at hafter
          rw [hsep, hafter.1] at hc
          simp at hc
    · rcases rest with _ | ⟨d, rest⟩
      · rcases separator with _ | ⟨e, separator⟩
        · exact .inl (List.nil_infix)
        · rw [List.nil_append, List.cons_append, List.cons.injEq] at hrest
          exact absurd (by rw [hrest.1]; exact List.mem_cons_self) hc
      · rw [List.cons_append, List.cons.injEq] at hrest
        exact .inr ⟨rest, t, by rw [hrest.2, List.append_assoc]⟩
  · rintro (h | h)
    · exact h.trans (List.prefix_append _ _).isInfix
    · exact h.trans ((List.suffix_cons c after).trans (List.suffix_append _ _)).isInfix

theorem splitFrom_append (left rest : Text) :
    splitFrom separator left.length (left ++ rest) = splitFrom separator 0 rest := by
  induction left with
  | nil => rfl
  | cons c left ih => rw [List.length_cons, List.cons_append, splitFrom, ih]

/-- **A text is split** behind a piece that the separator ends. -/
theorem split_append (hseparator : separator ≠ []) (h : Ends separator piece) (rest : Text) :
    split separator (piece ++ (separator ++ rest)) = piece :: split separator rest := by
  induction piece with
  | nil =>
    obtain ⟨c, separator, rfl⟩ := List.exists_cons_of_ne_nil hseparator
    have hstarts : (c :: separator).isPrefixOf (c :: (separator ++ rest)) := by
      rw [List.isPrefixOf_iff_prefix]
      exact List.prefix_append (c :: separator) rest
    rw [List.nil_append, List.cons_append, split, splitFrom, if_pos hstarts, List.length_cons,
      Nat.add_sub_cancel, splitFrom_append, split]
  | cons c piece ih =>
    have hrest := ih h.tail
    rw [split] at hrest ⊢
    rw [List.cons_append, splitFrom, if_neg (h.not_isPrefixOf rest), hrest]
    rfl

theorem split_eq_singleton (h : ¬ separator <:+: text) : split separator text = [text] := by
  induction text with
  | nil => rfl
  | cons c text ih =>
    have hstarts : ¬ separator.isPrefixOf (c :: text) := fun hstarts =>
      h (List.isPrefixOf_iff_prefix.mp hstarts).isInfix
    have hrest := ih fun hwithin => h (hwithin.trans (List.suffix_cons _ _).isInfix)
    rw [split] at hrest ⊢
    rw [splitFrom, if_neg hstarts, hrest]
    rfl

/-- The pieces of a joined text, each of them ended by the separator behind it. -/
theorem split_join (hseparator : separator ≠ []) {pieces : List Text} {last : Text}
    (hpieces : ∀ piece ∈ pieces, Ends separator piece) (hlast : ¬ separator <:+: last) :
    split separator (join separator (pieces ++ [last])) = pieces ++ [last] := by
  induction pieces with
  | nil =>
    rw [List.nil_append, join, List.intercalate_singleton]
    exact split_eq_singleton hlast
  | cons piece pieces ih =>
    obtain ⟨hpiece, hpieces⟩ := List.forall_mem_cons.mp hpieces
    rw [List.cons_append, join, List.intercalate_cons_of_ne_nil (by simp), List.append_assoc,
      split_append hseparator hpiece, ← join, ih hpieces]

end Separators

end Python
