import Mathlib.Algebra.Order.Group.Multiset
import Mathlib.Data.Multiset.Filter
import CodingOpd.Python.Json
import CodingOpd.Python.Values

/-!
# The event stream of the Codex command line

`_summarize_jsonl` reads the output of `codex exec --json`, one JSON object a line, among lines that
other programs write. It splits the text with `str.splitlines`, which knows more boundaries than the
line feed that the writer ends its lines with, and catches a `JSONDecodeError`, but not what else
`json.loads` raises at limits of the interpreter.

## Main definitions

* `Limits`: what `json.loads` raises at limits of the interpreter
* `Summary`, `summarizeJsonl`: what is kept of the events, and `_summarize_jsonl`
* `Lossless`: the summary of the lines that were written

## Main results

* `foldlM_addLine_eq_ok`: the summary of some lines, event by event
* `summarizeJsonl_lossless_iff`: nothing is lost when no line holds a foreign boundary or is beyond
  the limits
-/

open Python

namespace CodexAgent

/-- The pairs of a JSON object. -/
abbrev Object := List (Codes × Json)

/-- What `json.loads` raises besides a `JSONDecodeError`, at limits of the interpreter: a
`ValueError` for an integer of too many digits, a `RecursionError` for too deep a nesting. -/
abbrev Limits := Text → Option PyError

/-- Python's truth of a number, and its `str` of a value that `json.loads` returns and that is no
string. -/
structure Builtins where
  bool : Text → Bool
  str : Json → Codes

/-- A literal of the source. -/
def codes (text : String) : Codes := text.toList.map Char.toNat

/-- `event.get(key)`. -/
def Object.get (object : Object) (key : String) : Option Json :=
  (object.reverse.find? (·.1 = codes key)).map (·.2)

/-- A message of the transcript. -/
structure Message where
  role : String
  content : Codes
deriving DecidableEq

/-- What `_summarize_jsonl` collects. The dictionary of counts is the bag of what was counted. -/
structure Summary where
  transcript : List Message := []
  counts : Multiset Codes := 0
  parseErrors : ℕ := 0
  threadId : Option Json := none
  usage : Object := []

section

variable (builtins : Builtins) (limits : Limits)

/-- `bool(value)`. -/
def isTrue : Json → Bool
  | .null => false
  | .bool value => value
  | .number literal => builtins.bool literal
  | .string codes => codes ≠ []
  | .array items => !items.isEmpty
  | .object pairs => !pairs.isEmpty

/-- `str(value)`. -/
def str : Json → Codes
  | .string codes => codes
  | value => builtins.str value

/-- `str(object.get("type") or "unknown")`. -/
def typeOf (object : Object) : Codes :=
  match object.get "type" with
  | none => codes "unknown"
  | some value => if isTrue builtins value then str builtins value else codes "unknown"

/-- `event.get(key)`, where it is a dictionary. -/
def Object.getObject (object : Object) (key : String) : Option Object :=
  match object.get key with
  | some (.object pairs) => some pairs
  | _ => none

/-- The item of an event that completes one. -/
def completedItem (event : Object) : Option Object :=
  if typeOf builtins event = codes "item.completed" then event.getObject "item" else none

/-- What an event counts as. -/
def counted (event : Object) : Multiset Codes :=
  match completedItem builtins event with
  | some item => {typeOf builtins event, codes "item." ++ typeOf builtins item}
  | none => {typeOf builtins event}

/-- The message of an event that completes one of the agent's. -/
def message (event : Object) : Option Message :=
  match completedItem builtins event with
  | some item =>
    if typeOf builtins item = codes "agent_message" then
      match item.get "text" with
      | some (.string text) => some { role := "assistant", content := text }
      | _ => none
    else none
  | none => none

/-- The thread that an event starts. -/
def startedThread (event : Object) : Option (Option Json) :=
  if typeOf builtins event = codes "thread.started" then some (event.get "thread_id") else none

/-- The usage of the turn that an event completes. -/
def turnUsage (event : Object) : Option Object :=
  if typeOf builtins event = codes "turn.completed" then event.getObject "usage" else none

/-- One event of the loop. -/
def Summary.addEvent (summary : Summary) (event : Object) : Summary where
  transcript := summary.transcript ++ (message builtins event).toList
  counts := summary.counts + counted builtins event
  parseErrors := summary.parseErrors
  threadId := (startedThread builtins event).getD summary.threadId
  usage := (turnUsage builtins event).getD summary.usage

/-- `json.loads`, where a `JSONDecodeError` is caught. -/
def tryLoads (text : Text) : Except PyError (Option Json) :=
  (limits text).elim (.ok (Json.loads text)) .error

/-- A value that is a dictionary. -/
def asEvent : Option Json → Option Object
  | some (.object pairs) => some pairs
  | _ => none

/-- One line of the loop. -/
def Summary.addLine (summary : Summary) (line : Text) : Except PyError Summary := do
  match asEvent (← tryLoads limits line) with
  | some event => return summary.addEvent builtins event
  | none => return { summary with parseErrors := summary.parseErrors + 1 }

/-- `_summarize_jsonl`. -/
def summarizeJsonl (output : Text) : Except PyError Summary :=
  (splitlines output).foldlM (Summary.addLine builtins limits) {}

/-! ## The lines that are written -/

/-- A line holds no line end. -/
def OneLine (line : Text) : Prop := '\n' ∉ line ∧ '\r' ∉ line

instance (line : Text) : Decidable (OneLine line) := inferInstanceAs (Decidable (_ ∧ _))

/-- Lines, each ended by a line feed. -/
def output (lines : List Text) : Text := lines.flatMap (· ++ ['\n'])

/-- The event that a line holds, where it is a JSON object. -/
def eventOf (line : Text) : Option Object := asEvent (Json.loads line)

/-- The lines that hold an event; the others are none, or no JSON at all. -/
def eventLines (lines : List Text) : List Text := lines.filter fun line => (eventOf line).isSome

/-- The lines that hold no event. -/
def noise (lines : List Text) : ℕ := lines.countP fun line => (eventOf line).isNone

/-- **Nothing is lost**: the events among the lines are summarized one by one, without an error, and
each of the other lines adds an error and nothing else. -/
structure Lossless (lines : List Text) (summary : Summary) : Prop where
  summarized : summarizeJsonl builtins limits (output (eventLines lines)) = .ok summary
  parseErrors : summary.parseErrors = 0
  transcript : summary.transcript = (lines.filterMap eventOf).filterMap (message builtins)
  threadId : summary.threadId =
    ((lines.filterMap eventOf).filterMap (startedThread builtins)).getLast?.getD none
  usage : summary.usage =
    ((lines.filterMap eventOf).filterMap (turnUsage builtins)).getLast?.getD []
  inserted : summarizeJsonl builtins limits (output lines) =
    .ok { summary with parseErrors := summary.parseErrors + noise lines }

variable {builtins limits}

/-! ## The summary of a list of lines -/

/-- The summary of some lines, behind the lines before them. -/
def Summary.extend (builtins : Builtins) (summary : Summary) (lines : List Text) : Summary :=
  let events := lines.filterMap eventOf
  { transcript := summary.transcript ++ events.filterMap (message builtins)
    counts := summary.counts + (events.map (counted builtins)).sum
    parseErrors := summary.parseErrors + noise lines
    threadId := (events.filterMap (startedThread builtins)).getLast?.getD summary.threadId
    usage := (events.filterMap (turnUsage builtins)).getLast?.getD summary.usage }

/-- The last value of a list is the last one of its rest, or its head. -/
theorem getD_getLast?_filterMap_cons {α β : Type} (f : α → Option β) (a : α) (l : List α) (b : β) :
    ((a :: l).filterMap f).getLast?.getD b = (l.filterMap f).getLast?.getD ((f a).getD b) := by
  cases h : f a with
  | none => rw [List.filterMap_cons_none h, Option.getD_none]
  | some value => rw [List.filterMap_cons_some h, List.getLast?_cons, Option.getD_some,
      Option.getD_some]

/-- **A line is an event or an error**, within the limits. -/
theorem addLine_eq_ok {summary result : Summary} {line : Text} :
    summary.addLine builtins limits line = .ok result ↔
      limits line = none ∧
        result = (eventOf line).elim { summary with parseErrors := summary.parseErrors + 1 }
          (summary.addEvent builtins) := by
  unfold Summary.addLine tryLoads
  cases limits line with
  | some error => simp
  | none =>
    rw [Option.elim_none, ok_bind]
    cases hevent : asEvent (Json.loads line) with
    | none => simp [eventOf, hevent, pure, Except.pure, eq_comm]
    | some event => simp [eventOf, hevent, pure, Except.pure, eq_comm]

theorem extend_cons (summary : Summary) (line : Text) (lines : List Text) :
    ((eventOf line).elim { summary with parseErrors := summary.parseErrors + 1 }
      (summary.addEvent builtins)).extend builtins lines =
      summary.extend builtins (line :: lines) := by
  cases hevent : eventOf line with
  | none =>
    simp only [Option.elim_none, Summary.extend, List.filterMap_cons_none hevent]
    congr 1
    rw [noise, noise, List.countP_cons_of_pos (by simp [hevent])]
    omega
  | some event =>
    simp only [Option.elim_some, Summary.extend, Summary.addEvent,
      List.filterMap_cons_some hevent, getD_getLast?_filterMap_cons, List.map_cons,
      List.sum_cons, noise, List.countP_cons_of_neg (p := fun line => (eventOf line).isNone)
        (a := line) (by simp [hevent])]
    congr 1
    · cases hmessage : message builtins event with
      | none => rw [List.filterMap_cons_none hmessage, Option.toList_none, List.append_nil]
      | some text =>
        rw [List.filterMap_cons_some hmessage, Option.toList_some, List.append_assoc,
          List.singleton_append]
    · rw [add_assoc]

/-- **The summary of some lines**, event by event, within the limits. -/
theorem foldlM_addLine_eq_ok {summary result : Summary} {lines : List Text} :
    lines.foldlM (Summary.addLine builtins limits) summary = .ok result ↔
      (∀ line ∈ lines, limits line = none) ∧ result = summary.extend builtins lines := by
  induction lines generalizing summary with
  | nil => simp [Summary.extend, noise, pure, Except.pure, eq_comm]
  | cons line lines ih =>
    rw [List.foldlM_cons, bind_eq_ok, List.forall_mem_cons]
    constructor
    · rintro ⟨next, hnext, hrest⟩
      obtain ⟨hline, rfl⟩ := addLine_eq_ok.mp hnext
      obtain ⟨hlines, rfl⟩ := ih.mp hrest
      exact ⟨⟨hline, hlines⟩, extend_cons ..⟩
    · rintro ⟨⟨hline, hlines⟩, rfl⟩
      exact ⟨_, addLine_eq_ok.mpr ⟨hline, rfl⟩, ih.mpr ⟨hlines, (extend_cons ..).symm⟩⟩

/-! ## The lines that are read -/

/-- A line without a boundary of `str.splitlines`. -/
def Unbroken (line : Text) : Prop := ∀ c ∈ line, isLineBreak c = false

/-- The lines that `str.splitlines` finds. -/
def pieces (lines : List Text) : List Text := lines.flatMap fun line => line.splitOnP isLineBreak

theorem pieces_cons (line : Text) (lines : List Text) :
    pieces (line :: lines) = line.splitOnP isLineBreak ++ pieces lines :=
  List.flatMap_cons

theorem pieces_of_unbroken {lines : List Text} (h : ∀ line ∈ lines, Unbroken line) :
    pieces lines = lines := by
  induction lines with
  | nil => rfl
  | cons line lines ih =>
    obtain ⟨hline, hlines⟩ := List.forall_mem_cons.mp h
    rw [pieces_cons, List.splitOnP_eq_singleton hline, ih hlines, List.singleton_append]

theorem splitlines_output {lines : List Text} (h : ∀ line ∈ lines, OneLine line) :
    splitlines (output lines) = pieces lines := by
  induction lines with
  | nil => rfl
  | cons line lines ih =>
    obtain ⟨hline, hlines⟩ := List.forall_mem_cons.mp h
    rw [output, List.flatMap_cons, List.append_assoc, List.singleton_append,
      splitlines_append_newline hline.2, pieces_cons, ← ih hlines, output]

theorem summarizeJsonl_output_eq_ok {lines : List Text} {summary : Summary}
    (h : ∀ line ∈ lines, OneLine line) :
    summarizeJsonl builtins limits (output lines) = .ok summary ↔
      (∀ piece ∈ pieces lines, limits piece = none) ∧
        summary = Summary.extend builtins {} (pieces lines) := by
  rw [summarizeJsonl, splitlines_output h, foldlM_addLine_eq_ok]

/-- The first boundary of a line. -/
theorem exists_first_break {line : Text} (h : ¬ Unbroken line) :
    ∃ before c after, line = before ++ c :: after ∧ Unbroken before ∧ isLineBreak c := by
  induction line with
  | nil => exact absurd (fun c hmem => absurd hmem List.not_mem_nil) h
  | cons d line ih =>
    by_cases hd : isLineBreak d
    · exact ⟨[], d, line, rfl, fun c hmem => absurd hmem List.not_mem_nil, hd⟩
    · have hrest : ¬ Unbroken line := fun hline =>
        h (List.forall_mem_cons.mpr ⟨Bool.eq_false_iff.mpr hd, hline⟩)
      obtain ⟨before, c, after, rfl, hbefore, hbreak⟩ := ih hrest
      exact ⟨d :: before, c, after, rfl,
        List.forall_mem_cons.mpr ⟨Bool.eq_false_iff.mpr hd, hbefore⟩, hbreak⟩

/-- A boundary other than a line end is foreign to JSON. -/
theorem isPlain_of_isLineBreak {line : Text} (h : OneLine line) {c : Char} (hmem : c ∈ line)
    (hbreak : isLineBreak c) : Json.isPlain c = false := by
  rw [isLineBreak, decide_eq_true_eq, List.mem_cons, List.mem_cons] at hbreak
  rcases hbreak with rfl | rfl | hbreak
  · exact absurd hmem h.1
  · exact absurd hmem h.2
  · have hforeign : ∀ c ∈ ['\x0b', '\x0c', '\x1c', '\x1d', '\x1e', '\u0085', '\u2028', '\u2029'],
        Json.isPlain c = false := forall_of_all (by decide)
    exact hforeign c hbreak

/-- An event's line falls into pieces of which one is no event. -/
theorem exists_noise_piece {line : Text} (hline : OneLine line) (hevent : (eventOf line).isSome)
    (hbroken : ¬ Unbroken line) :
    ∃ piece ∈ line.splitOnP isLineBreak, eventOf piece = none := by
  obtain ⟨before, c, after, rfl, hbefore, hbreak⟩ := exists_first_break hbroken
  refine ⟨before, ?_, ?_⟩
  · rw [List.splitOnP_append_cons_of_forall_mem hbefore c hbreak]
    exact List.mem_cons_self
  · have hplain := isPlain_of_isLineBreak hline (by simp) hbreak
    have hloads : (Json.loads (before ++ c :: after)).isSome := by
      unfold eventOf at hevent
      cases h : Json.loads (before ++ c :: after) with
      | none => rw [h] at hevent; exact hevent
      | some value => rfl
    rw [eventOf, Json.loads_cut hplain hloads]
    rfl

/-! ## What the lines weigh -/

/-- What is counted in some lines, errors and all. -/
def weight (builtins : Builtins) (lines : List Text) : ℕ :=
  ((lines.filterMap eventOf).map (counted builtins)).sum.card + noise lines

theorem weight_append (lines lines' : List Text) :
    weight builtins (lines ++ lines') = weight builtins lines + weight builtins lines' := by
  simp only [weight, noise, List.filterMap_append, List.map_append, List.sum_append,
    Multiset.card_add, List.countP_append]
  omega

theorem weight_noise {line : Text} (h : eventOf line = none) : weight builtins [line] = 1 := by
  simp [weight, noise, h]

theorem weight_pos (builtins : Builtins) (line : Text) : 0 < weight builtins [line] := by
  cases h : eventOf line with
  | none => rw [weight_noise h]; exact Nat.one_pos
  | some event =>
    have hcounted : 0 < (counted builtins event).card := by
      unfold counted
      split <;> simp
    simp [weight, noise, h, hcounted]

theorem length_le_weight (builtins : Builtins) (lines : List Text) :
    lines.length ≤ weight builtins lines := by
  induction lines with
  | nil => exact Nat.zero_le _
  | cons line lines ih =>
    rw [List.length_cons, ← List.singleton_append, weight_append]
    have hpos := weight_pos builtins line
    omega

/-- A broken line has two pieces or more. -/
theorem one_lt_length_pieces {line : Text} (h : ¬ Unbroken line) :
    1 < (line.splitOnP isLineBreak).length := by
  obtain ⟨before, c, after, rfl, hbefore, hbreak⟩ := exists_first_break h
  rw [List.splitOnP_append_cons_of_forall_mem hbefore c hbreak, List.length_cons]
  have hpos := List.length_pos_of_ne_nil (List.splitOnP_ne_nil isLineBreak after)
  omega

/-- The pieces of the lines weigh no less than the lines, and more if a line is broken. -/
theorem weight_le_weight_pieces {lines : List Text}
    (hevents : ∀ line ∈ lines, (eventOf line).isSome → Unbroken line) :
    weight builtins lines ≤ weight builtins (pieces lines) ∧
      (weight builtins (pieces lines) ≤ weight builtins lines → ∀ line ∈ lines, Unbroken line) := by
  induction lines with
  | nil => exact ⟨le_rfl, fun _ line hmem => absurd hmem List.not_mem_nil⟩
  | cons line lines ih =>
    obtain ⟨hline, hlines⟩ := List.forall_mem_cons.mp hevents
    obtain ⟨hle, hunbroken⟩ := ih hlines
    rw [pieces_cons, weight_append, ← List.singleton_append (l := lines), weight_append]
    by_cases hbroken : Unbroken line
    · rw [List.splitOnP_eq_singleton hbroken]
      exact ⟨by omega, fun h => List.forall_mem_cons.mpr ⟨hbroken, hunbroken (by omega)⟩⟩
    · -- the line holds no event, and each of its pieces weighs something
      have hnoise : eventOf line = none := by
        rw [← Option.not_isSome_iff_eq_none]
        exact mt hline hbroken
      have hpieces := length_le_weight builtins (line.splitOnP isLineBreak)
      have hlength := one_lt_length_pieces hbroken
      rw [weight_noise hnoise]
      exact ⟨by omega, fun h => by omega⟩

/-! ## When nothing is lost -/

theorem filterMap_eventLines (lines : List Text) :
    (eventLines lines).filterMap eventOf = lines.filterMap eventOf := by
  induction lines with
  | nil => rfl
  | cons line lines ih =>
    rw [eventLines] at ih ⊢
    cases h : eventOf line with
    | none => rw [List.filter_cons_of_neg (by simp [h]), ih, List.filterMap_cons_none h]
    | some event =>
      rw [List.filter_cons_of_pos (by simp [h]), List.filterMap_cons_some h, ih,
        List.filterMap_cons_some h]

theorem noise_eventLines (lines : List Text) : noise (eventLines lines) = 0 := by
  rw [noise, List.countP_eq_zero]
  intro line hmem
  simpa [Option.isSome_iff_ne_none] using (List.mem_filter.mp hmem).2

/-- Lines without a foreign boundary and within the limits are all summarized. -/
theorem lossless_of_unbroken {lines : List Text} (hlines : ∀ line ∈ lines, OneLine line)
    (hunbroken : ∀ line ∈ lines, Unbroken line) (hlimits : ∀ line ∈ lines, limits line = none) :
    Lossless builtins limits lines (Summary.extend builtins {} (eventLines lines)) := by
  have hsub : eventLines lines ⊆ lines := List.filter_subset_self _
  have hpieces := pieces_of_unbroken hunbroken
  have heventPieces := pieces_of_unbroken fun line hmem => hunbroken line (hsub hmem)
  have hall : summarizeJsonl builtins limits (output lines) = .ok _ :=
    (summarizeJsonl_output_eq_ok hlines).mpr ⟨hpieces.symm ▸ hlimits, rfl⟩
  have hevents : summarizeJsonl builtins limits (output (eventLines lines)) = .ok _ :=
    (summarizeJsonl_output_eq_ok fun line hmem => hlines line (hsub hmem)).mpr
      ⟨heventPieces.symm ▸ fun line hmem => hlimits line (hsub hmem), rfl⟩
  rw [hpieces] at hall
  rw [heventPieces] at hevents
  constructor
  · exact hevents
  · rw [Summary.extend, Nat.zero_add, noise_eventLines]
  · rw [Summary.extend, filterMap_eventLines, List.nil_append]
  · rw [Summary.extend, filterMap_eventLines]
  · rw [Summary.extend, filterMap_eventLines]
  · rw [hall]
    simp only [Summary.extend, filterMap_eventLines, noise_eventLines, Nat.add_zero]

/-- An event's line holds no boundary where its summary has no error. -/
theorem unbroken_of_noise_pieces {lines : List Text} (hlines : ∀ line ∈ lines, OneLine line)
    (hevents : ∀ line ∈ lines, (eventOf line).isSome) (h : noise (pieces lines) = 0) :
    ∀ line ∈ lines, Unbroken line := by
  intro line hmem
  by_contra hbroken
  obtain ⟨piece, hpiece, hnone⟩ :=
    exists_noise_piece (hlines line hmem) (hevents line hmem) hbroken
  rw [noise, List.countP_eq_zero] at h
  exact h piece (List.mem_flatMap.mpr ⟨line, hmem, hpiece⟩) (by rw [hnone]; rfl)

/-- **When nothing is lost.** Events and other lines, each on a line of its own, are summarized
event by event exactly when no line holds another boundary of `str.splitlines`, or is one for which
`json.loads` raises something else than a `JSONDecodeError`. -/
theorem summarizeJsonl_lossless_iff (builtins : Builtins) (limits : Limits) {lines : List Text}
    (hlines : ∀ line ∈ lines, OneLine line) :
    (∃ summary, Lossless builtins limits lines summary) ↔
      ∀ line ∈ lines, (∀ c ∈ line, isLineBreak c = false) ∧ limits line = none := by
  constructor
  · rintro ⟨summary, h⟩
    have hsub : eventLines lines ⊆ lines := List.filter_subset_self _
    obtain ⟨-, rfl⟩ := (summarizeJsonl_output_eq_ok fun line hmem =>
      hlines line (hsub hmem)).mp h.summarized
    -- no event's line is broken, since its first piece would be an error
    have herrors := h.parseErrors
    rw [Summary.extend, Nat.zero_add] at herrors
    have hunbroken : ∀ line ∈ eventLines lines, Unbroken line :=
      unbroken_of_noise_pieces (fun line hmem => hlines line (hsub hmem))
        (fun line hmem => (List.mem_filter.mp hmem).2) herrors
    obtain ⟨hlimits, hinserted⟩ := (summarizeJsonl_output_eq_ok hlines).mp h.inserted
    rw [pieces_of_unbroken hunbroken] at hinserted
    have hcounts := congrArg Summary.counts hinserted
    have hnoise := congrArg Summary.parseErrors hinserted
    simp only [Summary.extend, filterMap_eventLines, noise_eventLines, zero_add] at hcounts hnoise
    have hweight : weight builtins (pieces lines) = weight builtins lines := by
      rw [weight, ← hcounts, ← hnoise, weight]
    have hall := (weight_le_weight_pieces fun line hmem hevent =>
      hunbroken line (List.mem_filter.mpr ⟨hmem, hevent⟩)).2 hweight.le
    rw [pieces_of_unbroken hall] at hlimits
    exact fun line hmem => ⟨hall line hmem, hlimits line hmem⟩
  · intro h
    exact ⟨_, lossless_of_unbroken hlines (fun line hmem => (h line hmem).1)
      fun line hmem => (h line hmem).2⟩

/-! ### A message with a line separator -/

/-- Builtins for lines in which every type is a string. -/
def plainBuiltins : Builtins where
  bool literal := literal.any fun c => '1' ≤ c ∧ c ≤ '9'
  str _ := []

/-- The line of a message of the agent. -/
def messageLine (text : String) : Text :=
  ("\x7b\"type\":\"item.completed\",\"item\":\x7b\"type\":\"agent_message\",\"text\":\"" ++ text ++
    "\"\x7d\x7d").toList

/-- The line that starts a thread. -/
def threadLine : Text := "\x7b\"type\":\"thread.started\",\"thread_id\":\"t\"\x7d".toList

/-- No line is beyond the limits. -/
def unlimited : Limits := fun _ => none

/-- A message with a line separator falls apart: two errors, and no message. -/
theorem summarizeJsonl_separator :
    ¬ ∃ summary, Lossless plainBuiltins unlimited [messageLine "a\u2028b"] summary := by
  rintro ⟨summary, h⟩
  have hmessages : (summarizeJsonl plainBuiltins unlimited
      (output (eventLines [messageLine "a\u2028b"]))).map Summary.parseErrors = .ok 2 := by
    decide +kernel
  rw [h.summarized, Except.map, h.parseErrors] at hmessages
  cases hmessages

/-- A thread, a warning and a message: nothing is lost. -/
theorem summarizeJsonl_plain :
    ∃ summary, Lossless plainBuiltins unlimited
      [threadLine, "WARN".toList, messageLine "done"] summary := by
  apply (summarizeJsonl_lossless_iff plainBuiltins unlimited (by decide +kernel)).mpr
  intro line hmem
  refine ⟨?_, rfl⟩
  apply forall_of_all
  revert line
  decide +kernel

end

end CodexAgent
