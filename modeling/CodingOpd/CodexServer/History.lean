import CodingOpd.Python.Json
import CodingOpd.Python.Objects
import CodingOpd.Python.Values

/-!
# The history of tool calls

The server parses the arguments of earlier tool calls again when it renders the history, and rejects
the whole request when they are malformed. `preserve_invalid_tool_history` preserves such calls as
text of the assistant. It catches a `JSONDecodeError`; what else `json.loads` raises goes through.

## Main definitions

* `Limits`: what the JSON functions raise at limits of the interpreter
* `preserveInvalidToolHistory`: `preserve_invalid_tool_history`
* `MessageRepaired`: what becomes of a message
* `Preserved`: what becomes of a history

## Main results

* `preserveMessage_of_within`: a message within the limits
* `preserveInvalidToolHistory_preserved_iff`: when the history is preserved
-/

open Python

namespace CodexServer

/-- What the JSON functions raise besides a `JSONDecodeError`, at limits of the interpreter: a
`ValueError` for an integer of too many digits, a `RecursionError` for too deep a nesting. -/
structure Limits where
  loads : Text → Option PyError
  dumps : Object → Option PyError

/-- A message of the chat. -/
abbrev Message := Dict Object

/-- The variables of the loop over the calls of a message. -/
structure Sorted where
  valid : List Object := []
  rejected : List Text := []
  count : ℕ

section Definitions

variable (limits : Limits)

/-- `json.loads`, where a `JSONDecodeError` is caught. -/
def tryLoads (text : Text) : Except PyError (Option Json) :=
  (limits.loads text).elim (.ok (Json.loads text)) .error

/-- `json.dumps(value, ensure_ascii=False)` -/
def tryDumps (value : Object) : Except PyError Text :=
  (limits.dumps value).elim (.ok value.dumps) .error

/-- The arguments of a call, where they are a string that is not empty. -/
def callArguments : Object → Option Text
  | .dict call =>
    match call.lookup "function" with
    | some (.dict function) =>
      match function.lookup "arguments" with
      | some (.str (c :: text)) => some (c :: text)
      | _ => none
    | _ => none
  | _ => none

/-- The body of the loop over the calls of a message. -/
def sortCall (sorted : Sorted) (call : Object) : Except PyError Sorted :=
  match callArguments call with
  | none => .ok { sorted with valid := sorted.valid ++ [call] }
  | some arguments => do
    match ← tryLoads limits arguments with
    | some _ => return { sorted with valid := sorted.valid ++ [call] }
    | none =>
      let record ← tryDumps limits call
      return { sorted with rejected := sorted.rejected ++ [record], count := sorted.count + 1 }

/-- `[Previous invalid tool calls; raw records]` -/
def recordsHeader : Text :=
  ['[', 'P', 'r', 'e', 'v', 'i', 'o', 'u', 's', ' ', 'i', 'n', 'v', 'a', 'l', 'i', 'd', ' ',
    't', 'o', 'o', 'l', ' ', 'c', 'a', 'l', 'l', 's', ';', ' ', 'r', 'a', 'w', ' ',
    'r', 'e', 'c', 'o', 'r', 'd', 's', ']']

/-- `raw_text` -/
def rawText (rejected : List Text) : Text :=
  '\n' :: (recordsHeader ++ '\n' :: join ['\n'] rejected)

/-- A content block of text. -/
def textBlock (text : Text) : Object :=
  .dict [("type", .str ['t', 'e', 'x', 't']), ("text", .str text)]

/-- The content of a message with a text appended. -/
def appendContent (raw : Text) : Option Object → Except PyError Object
  | none => .ok (.str raw)
  | some .null => .ok (.str raw)
  | some (.str text) => .ok (.str (text ++ raw))
  | some (.list blocks) => .ok (.list (blocks ++ [textBlock raw]))
  | some _ => .error (.typeError "Expected text or content blocks for invalid tool history")

/-- `message.get("role") == "assistant"` -/
def isAssistant (message : Message) : Bool :=
  match message.lookup "role" with
  | some (.str role) => role = ['a', 's', 's', 'i', 's', 't', 'a', 'n', 't']
  | _ => false

/-- The tool calls that are looked into: those of an assistant message, in a list. -/
def toolCalls (message : Message) : Option (List Object) :=
  match message.lookup "tool_calls" with
  | some (.list calls) => if isAssistant message then some calls else none
  | _ => none

/-- The body of the loop over the messages, and the count behind it. -/
def preserveMessage (count : ℕ) (message : Message) : Except PyError (Message × ℕ) :=
  match toolCalls message with
  | none => .ok (message, count)
  | some calls => do
    let sorted ← calls.foldlM (sortCall limits) { count }
    if sorted.rejected = [] then return (message, sorted.count)
    else
      let content ← appendContent (rawText sorted.rejected) (message.lookup "content")
      return ((message.setItem "content" content).setItem "tool_calls" (.list sorted.valid),
        sorted.count)

/-- `preserve_invalid_tool_history`, which changes the messages in place and returns the count. -/
def preserveFrom : ℕ → List Message → Except PyError (List Message × ℕ)
  | count, [] => .ok ([], count)
  | count, message :: messages => do
    let (message, count) ← preserveMessage limits count message
    let (messages, count) ← preserveFrom count messages
    return (message :: messages, count)

/-- `preserve_invalid_tool_history` -/
def preserveInvalidToolHistory (messages : List Message) : Except PyError (List Message × ℕ) :=
  preserveFrom limits 0 messages

end Definitions

/-! ## What is to become of a history -/

/-- A call whose arguments the server cannot parse. -/
def isInvalid (call : Object) : Bool :=
  (callArguments call).any fun arguments => (Json.loads arguments).isNone

/-- The calls of a message, without those the server cannot parse. -/
def validCalls (message : Message) : List Object :=
  ((toolCalls message).getD []).filter fun call => !isInvalid call

/-- The calls of a message that the server cannot parse. -/
def invalidCalls (message : Message) : List Object :=
  ((toolCalls message).getD []).filter isInvalid

/-- A content that is null, a text or a list of blocks. -/
def TextOrBlocks : Option Object → Prop
  | none => True
  | some .null => True
  | some (.str _) => True
  | some (.list _) => True
  | some _ => False

/-- A text stands behind the unchanged content: behind the text, or in a block of its own. -/
def Appended (raw : Text) : Option Object → Option Object → Prop
  | none, after => after = some (.str raw)
  | some .null, after => after = some (.str raw)
  | some (.str text), after => after = some (.str (text ++ raw))
  | some (.list blocks), after => after = some (.list (blocks ++ [textBlock raw]))
  | some _, _ => False

/-- What becomes of a message: without invalid calls it is the same. Otherwise it keeps its valid
calls, and the lines of a text that is appended to its content are, behind the header, the records
of the invalid ones. -/
structure MessageRepaired (before after : Message) : Prop where
  unchanged : invalidCalls before = [] → after = before
  calls : (toolCalls after).getD [] = validCalls before
  records : invalidCalls before ≠ [] → ∃ raw,
    Appended raw (before.lookup "content") (after.lookup "content") ∧
      split ['\n'] raw = [] :: recordsHeader :: (invalidCalls before).map Object.dumps
  others : ∀ key, key ≠ "content" → key ≠ "tool_calls" → after.lookup key = before.lookup key

/-- What becomes of a history: every message is repaired, the arguments of the remaining calls
parse, the count is that of the invalid calls, and a second time nothing is left to do. -/
structure Preserved (limits : Limits) (messages repaired : List Message) (count : ℕ) : Prop where
  each : List.Forall₂ MessageRepaired messages repaired
  parses : ∀ message ∈ repaired, ∀ call ∈ (toolCalls message).getD [],
    ∀ arguments ∈ callArguments call, (Json.loads arguments).isSome
  count : count = (messages.map fun message => (invalidCalls message).length).sum
  again : preserveInvalidToolHistory limits repaired = .ok (repaired, 0)

/-- The arguments of the calls, and the records of the invalid ones, are within the limits. -/
def WithinLimits (limits : Limits) (calls : List Object) : Prop :=
  ∀ call ∈ calls, ∀ arguments ∈ callArguments call, limits.loads arguments = none ∧
    (Json.loads arguments = none → limits.dumps call = none)

section Results

variable {limits : Limits}

theorem tryLoads_eq_ok {text : Text} {value : Option Json} :
    tryLoads limits text = .ok value ↔ limits.loads text = none ∧ value = Json.loads text := by
  unfold tryLoads
  cases limits.loads text with
  | none => simp [eq_comm]
  | some error => simp

theorem tryDumps_eq_ok {value : Object} {record : Text} :
    tryDumps limits value = .ok record ↔ limits.dumps value = none ∧ record = value.dumps := by
  unfold tryDumps
  cases limits.dumps value with
  | none => simp [eq_comm]
  | some error => simp

/-- **A call is kept or rejected**, within the limits. -/
theorem sortCall_eq_ok {sorted result : Sorted} {call : Object} :
    sortCall limits sorted call = .ok result ↔
      (∀ arguments ∈ callArguments call, limits.loads arguments = none ∧
        (Json.loads arguments = none → limits.dumps call = none)) ∧
      result = if isInvalid call then
          { sorted with rejected := sorted.rejected ++ [call.dumps], count := sorted.count + 1 }
        else { sorted with valid := sorted.valid ++ [call] } := by
  unfold sortCall isInvalid
  cases callArguments call with
  | none => simp [eq_comm]
  | some arguments =>
    simp only [Option.mem_def, Option.some.injEq, forall_eq', Option.any_some]
    rw [bind_eq_ok]
    simp only [tryLoads_eq_ok]
    constructor
    · rintro ⟨value, ⟨hloads, rfl⟩, h⟩
      split at h
      case h_1 value hvalue =>
        cases h
        simp [hloads, hvalue]
      case h_2 hnone =>
        obtain ⟨record, hrecord, h⟩ := bind_eq_ok.mp h
        obtain ⟨hdumps, rfl⟩ := tryDumps_eq_ok.mp hrecord
        cases h
        simp [hloads, hnone, hdumps]
    · rintro ⟨⟨hloads, hdumps⟩, rfl⟩
      refine ⟨_, ⟨hloads, rfl⟩, ?_⟩
      split
      case h_1 value hvalue =>
        simp only [hvalue]
        rfl
      case h_2 hnone =>
        rw [tryDumps_eq_ok.mpr ⟨hdumps hnone, rfl⟩, ok_bind]
        simp only [hnone]
        rfl

/-- **The calls of a message are sorted** into those that are kept and the records of the others. -/
theorem foldlM_sortCall_eq_ok {calls : List Object} {sorted result : Sorted} :
    calls.foldlM (sortCall limits) sorted = .ok result ↔
      WithinLimits limits calls ∧ result =
        { valid := sorted.valid ++ calls.filter fun call => !isInvalid call
          rejected := sorted.rejected ++ (calls.filter isInvalid).map Object.dumps
          count := sorted.count + (calls.filter isInvalid).length } := by
  induction calls generalizing sorted with
  | nil =>
    constructor
    · rintro ⟨rfl⟩
      exact ⟨fun _ hcall => (nomatch hcall), by simp⟩
    · rintro ⟨-, rfl⟩
      simp only [List.filter_nil, List.map_nil, List.append_nil, List.length_nil, add_zero]
      rfl
  | cons call calls ih =>
    rw [List.foldlM_cons, bind_eq_ok, WithinLimits, List.forall_mem_cons]
    constructor
    · rintro ⟨next, hnext, hrest⟩
      obtain ⟨hcall, rfl⟩ := sortCall_eq_ok.mp hnext
      obtain ⟨hcalls, rfl⟩ := ih.mp hrest
      refine ⟨⟨hcall, hcalls⟩, ?_⟩
      cases hinvalid : isInvalid call with
      | true =>
        simp [hinvalid]
        omega
      | false => simp [hinvalid]
    · rintro ⟨⟨hcall, hcalls⟩, rfl⟩
      refine ⟨_, sortCall_eq_ok.mpr ⟨hcall, rfl⟩, ih.mpr ⟨hcalls, ?_⟩⟩
      cases hinvalid : isInvalid call with
      | true =>
        simp [hinvalid]
        omega
      | false => simp [hinvalid]

/-- A content that is null, a text or blocks is appended to. -/
theorem exists_appendContent (raw : Text) {content : Option Object} (h : TextOrBlocks content) :
    ∃ after, appendContent raw content = .ok after ∧ Appended raw content (some after) := by
  unfold TextOrBlocks at h
  split at h
  · exact ⟨_, rfl, rfl⟩
  · exact ⟨_, rfl, rfl⟩
  · exact ⟨_, rfl, rfl⟩
  · exact ⟨_, rfl, rfl⟩
  · exact h.elim

/-- **The lines of the text that is appended** are the header and the records. -/
theorem split_rawText {records : List Text} (hne : records ≠ [])
    (hlines : ∀ record ∈ records, '\n' ∉ record) :
    split ['\n'] (rawText records) = [] :: recordsHeader :: records := by
  have hends : ∀ piece : Text, '\n' ∉ piece → Ends ['\n'] piece := by
    intro piece hpiece
    rwa [Ends, List.dropLast_singleton, List.append_nil, List.singleton_infix_iff]
  obtain ⟨init, last, rfl⟩ := (List.eq_nil_or_concat records).resolve_left hne
  rw [List.concat_eq_append] at hlines ⊢
  have hlast : ¬ ['\n'] <:+: last := by
    rw [List.singleton_infix_iff]
    exact hlines last (List.mem_append_right _ List.mem_cons_self)
  have hpieces : ∀ piece ∈ [] :: recordsHeader :: init, Ends ['\n'] piece := by
    refine List.forall_mem_cons.mpr ⟨hends _ (by decide),
      List.forall_mem_cons.mpr ⟨hends _ (by decide), fun piece hpiece => ?_⟩⟩
    exact hends piece (hlines piece (List.mem_append_left _ hpiece))
  have hraw : rawText (init ++ [last]) =
      join ['\n'] (([] :: recordsHeader :: init) ++ [last]) := by
    have hrecords : init ++ [last] ≠ [] := by simp
    rw [rawText, join, join, List.cons_append, List.cons_append, List.intercalate_cons_cons,
      List.intercalate_cons_of_ne_nil hrecords]
    simp
  rw [hraw, split_join (by decide) hpieces hlast]
  rfl

/-! ## Messages -/

theorem toolCalls_eq_some {message : Message} {calls : List Object} :
    toolCalls message = some calls ↔
      message.lookup "tool_calls" = some (.list calls) ∧ isAssistant message = true := by
  unfold toolCalls
  split
  case h_1 calls' hlookup =>
    rw [hlookup]
    split
    case isTrue h => simp [h]
    case isFalse h => simp [h]
  case h_2 hnot =>
    refine iff_of_false (fun h => (nomatch h)) ?_
    rintro ⟨hlookup, -⟩
    exact hnot calls hlookup

/-- A message whose calls are all valid stays the same. -/
theorem preserveMessage_of_valid {message : Message}
    (hwithin : WithinLimits limits ((toolCalls message).getD []))
    (hvalid : invalidCalls message = []) (count : ℕ) :
    preserveMessage limits count message = .ok (message, count) := by
  unfold preserveMessage
  cases hcalls : toolCalls message with
  | none => rfl
  | some calls =>
    rw [invalidCalls, hcalls, Option.getD_some] at hvalid
    rw [hcalls, Option.getD_some] at hwithin
    dsimp only
    rw [foldlM_sortCall_eq_ok.mpr ⟨hwithin, rfl⟩, ok_bind, hvalid]
    rfl

/-- What is left of the calls of a message is valid. -/
theorem invalidCalls_eq_nil_of_calls {message after : Message}
    (h : (toolCalls after).getD [] = validCalls message) : invalidCalls after = [] := by
  rw [invalidCalls, h, validCalls, List.filter_filter, List.filter_eq_nil_iff]
  intro call _
  simp

/-- A message with other content and other calls. -/
theorem toolCalls_setItem {message : Message} {content : Object} {calls kept : List Object}
    (hcalls : toolCalls message = some calls) :
    toolCalls ((message.setItem "content" content).setItem "tool_calls" (.list kept)) =
      some kept := by
  obtain ⟨-, hassistant⟩ := toolCalls_eq_some.mp hcalls
  rw [toolCalls_eq_some]
  refine ⟨by rw [Dict.lookup_setItem, if_pos rfl], ?_⟩
  rw [← hassistant, isAssistant, isAssistant, Dict.lookup_setItem, if_neg (by decide),
    Dict.lookup_setItem, if_neg (by decide)]

/-- The invalid calls of a message go over into its content. -/
theorem preserveMessage_of_invalid {message : Message} {calls : List Object} {content : Object}
    (hcalls : toolCalls message = some calls) (hwithin : WithinLimits limits calls)
    (hinvalid : calls.filter isInvalid ≠ [])
    (hcontent : appendContent (rawText ((calls.filter isInvalid).map Object.dumps))
      (message.lookup "content") = .ok content) (count : ℕ) :
    preserveMessage limits count message =
      .ok ((message.setItem "content" content).setItem "tool_calls"
        (.list (calls.filter fun call => !isInvalid call)),
        count + (calls.filter isInvalid).length) := by
  have hrecords : (calls.filter isInvalid).map Object.dumps ≠ [] :=
    mt List.map_eq_nil_iff.mp hinvalid
  unfold preserveMessage
  rw [hcalls]
  dsimp only
  rw [foldlM_sortCall_eq_ok.mpr ⟨hwithin, rfl⟩, ok_bind, if_neg (by simpa using hrecords)]
  dsimp only
  rw [List.nil_append, hcontent, ok_bind]
  rfl

/-- A message is repaired when its invalid calls went over into its content. -/
theorem messageRepaired_of_invalid {message : Message} {calls : List Object} {content : Object}
    (hcalls : toolCalls message = some calls) (hinvalid : calls.filter isInvalid ≠ [])
    (happended : Appended (rawText ((calls.filter isInvalid).map Object.dumps))
      (message.lookup "content") (some content)) :
    MessageRepaired message ((message.setItem "content" content).setItem "tool_calls"
      (.list (calls.filter fun call => !isInvalid call))) := by
  have hinvalidCalls : invalidCalls message = calls.filter isInvalid := by
    rw [invalidCalls, hcalls, Option.getD_some]
  have hvalidCalls : validCalls message = calls.filter fun call => !isInvalid call := by
    rw [validCalls, hcalls, Option.getD_some]
  refine ⟨fun hnone => absurd (hinvalidCalls.symm.trans hnone) hinvalid, ?_, fun _ => ?_, ?_⟩
  · rw [toolCalls_setItem hcalls, hvalidCalls, Option.getD_some]
  · refine ⟨rawText ((calls.filter isInvalid).map Object.dumps), ?_, ?_⟩
    · rw [Dict.lookup_setItem, if_neg (by decide), Dict.lookup_setItem, if_pos rfl]
      exact happended
    · rw [hinvalidCalls]
      apply split_rawText (mt List.map_eq_nil_iff.mp hinvalid)
      intro record hrecord
      obtain ⟨call, -, rfl⟩ := List.mem_map.mp hrecord
      exact call.newline_notMem_dumps
  · intro key hcontentKey hcallsKey
    rw [Dict.lookup_setItem, if_neg hcallsKey, Dict.lookup_setItem, if_neg hcontentKey]

/-- **A message within the limits** is repaired, and the invalid calls are counted. -/
theorem preserveMessage_of_within {message : Message}
    (hcontent : isAssistant message = true → TextOrBlocks (message.lookup "content"))
    (hwithin : WithinLimits limits ((toolCalls message).getD [])) (count : ℕ) :
    ∃ after, preserveMessage limits count message =
        .ok (after, count + (invalidCalls message).length) ∧
      MessageRepaired message after := by
  by_cases hnone : invalidCalls message = []
  · refine ⟨message, ?_, fun _ => rfl, ?_, fun hne => absurd hnone hne, fun _ _ _ => rfl⟩
    · rw [preserveMessage_of_valid hwithin hnone, hnone]
      rfl
    · rw [validCalls, List.filter_eq_self.mpr]
      intro call hcall
      have hvalid := List.filter_eq_nil_iff.mp hnone call hcall
      simpa using hvalid
  · cases hcalls : toolCalls message with
    | none =>
      rw [invalidCalls, hcalls] at hnone
      exact absurd rfl hnone
    | some calls =>
      obtain ⟨-, hassistant⟩ := toolCalls_eq_some.mp hcalls
      have hinvalid : invalidCalls message = calls.filter isInvalid := by
        rw [invalidCalls, hcalls, Option.getD_some]
      rw [hcalls, Option.getD_some] at hwithin
      rw [hinvalid] at hnone ⊢
      obtain ⟨content, hok, happended⟩ := exists_appendContent
        (rawText ((calls.filter isInvalid).map Object.dumps)) (hcontent hassistant)
      exact ⟨_, preserveMessage_of_invalid hcalls hwithin hnone hok count,
        messageRepaired_of_invalid hcalls hnone happended⟩

/-- A message that is gone through is within the limits. -/
theorem within_of_preserveMessage {message : Message} {count : ℕ} {result : Message × ℕ}
    (h : preserveMessage limits count message = .ok result) :
    WithinLimits limits ((toolCalls message).getD []) := by
  unfold preserveMessage at h
  cases hcalls : toolCalls message with
  | none => exact fun _ hcall => (nomatch hcall)
  | some calls =>
    rw [hcalls] at h
    obtain ⟨sorted, hsorted, -⟩ := bind_eq_ok.mp h
    exact (foldlM_sortCall_eq_ok.mp hsorted).1

/-! ## Histories -/

/-- **A history within the limits** is repaired message by message. -/
theorem preserveFrom_of_within {messages : List Message}
    (hcontent : ∀ message ∈ messages, isAssistant message = true →
      TextOrBlocks (message.lookup "content"))
    (hwithin : ∀ message ∈ messages, WithinLimits limits ((toolCalls message).getD []))
    (count : ℕ) :
    ∃ repaired, preserveFrom limits count messages = .ok (repaired,
        count + (messages.map fun message => (invalidCalls message).length).sum) ∧
      List.Forall₂ MessageRepaired messages repaired := by
  induction messages generalizing count with
  | nil => exact ⟨[], rfl, .nil⟩
  | cons message messages ih =>
    obtain ⟨hcontentHead, hcontentTail⟩ := List.forall_mem_cons.mp hcontent
    obtain ⟨hhead, htail⟩ := List.forall_mem_cons.mp hwithin
    obtain ⟨after, hafter, hrepaired⟩ := preserveMessage_of_within hcontentHead hhead count
    obtain ⟨rest, hrest, hrests⟩ := ih hcontentTail htail
      (count + (invalidCalls message).length)
    refine ⟨after :: rest, ?_, .cons hrepaired hrests⟩
    rw [preserveFrom, hafter, ok_bind]
    dsimp only
    rw [hrest, ok_bind, List.map_cons, List.sum_cons, ← add_assoc]
    rfl

/-- A history that is gone through is within the limits. -/
theorem within_of_preserveFrom {messages : List Message} {count : ℕ}
    {result : List Message × ℕ} (h : preserveFrom limits count messages = .ok result) :
    ∀ message ∈ messages, WithinLimits limits ((toolCalls message).getD []) := by
  induction messages generalizing count result with
  | nil => exact fun _ hmessage => (nomatch hmessage)
  | cons message messages ih =>
    obtain ⟨⟨after, next⟩, hafter, h⟩ := bind_eq_ok.mp h
    obtain ⟨rest, hrest, -⟩ := bind_eq_ok.mp h
    exact List.forall_mem_cons.mpr ⟨within_of_preserveMessage hafter, ih hrest⟩

/-- A history of valid calls stays the same. -/
theorem preserveFrom_of_valid {messages : List Message}
    (hwithin : ∀ message ∈ messages, WithinLimits limits ((toolCalls message).getD []))
    (hvalid : ∀ message ∈ messages, invalidCalls message = []) (count : ℕ) :
    preserveFrom limits count messages = .ok (messages, count) := by
  induction messages generalizing count with
  | nil => rfl
  | cons message messages ih =>
    obtain ⟨hhead, htail⟩ := List.forall_mem_cons.mp hwithin
    obtain ⟨hvalidHead, hvalidTail⟩ := List.forall_mem_cons.mp hvalid
    rw [preserveFrom, preserveMessage_of_valid hhead hvalidHead, ok_bind]
    dsimp only
    rw [ih htail hvalidTail, ok_bind]
    rfl

/-- **The history is preserved exactly when** the JSON functions raise nothing but a
`JSONDecodeError` on its tool calls. -/
theorem preserveInvalidToolHistory_preserved_iff (limits : Limits) (messages : List Message)
    (hcontent : ∀ message ∈ messages, isAssistant message = true →
      TextOrBlocks (message.lookup "content")) :
    (∃ repaired count, preserveInvalidToolHistory limits messages = .ok (repaired, count) ∧
        Preserved limits messages repaired count) ↔
      ∀ message ∈ messages, WithinLimits limits ((toolCalls message).getD []) := by
  constructor
  · rintro ⟨repaired, count, hok, -⟩
    exact within_of_preserveFrom hok
  · intro hwithin
    obtain ⟨repaired, hok, hrepaired⟩ := preserveFrom_of_within hcontent hwithin 0
    have hvalid : ∀ after ∈ repaired, invalidCalls after = [] ∧
        WithinLimits limits ((toolCalls after).getD []) := by
      intro after hafter
      obtain ⟨message, hmessage, h⟩ := exists_of_forall₂_right hrepaired after hafter
      refine ⟨invalidCalls_eq_nil_of_calls h.calls, ?_⟩
      rw [h.calls]
      exact fun call hcall => hwithin message hmessage call (List.mem_of_mem_filter hcall)
    refine ⟨repaired, _, hok, hrepaired, ?_, by rw [zero_add], ?_⟩
    · intro after hafter call hcall arguments harguments
      have hcallValid := List.filter_eq_nil_iff.mp (hvalid after hafter).1 call hcall
      rw [isInvalid, Option.mem_def.mp harguments, Option.any_some] at hcallValid
      simpa [Option.isSome_iff_ne_none] using hcallValid
    · exact preserveFrom_of_valid (fun after hafter => (hvalid after hafter).2)
        (fun after hafter => (hvalid after hafter).1) 0

end Results

/-! ## Examples -/

/-- A call of the command line tool with some arguments. -/
def commandCall (arguments : Text) : Object :=
  .dict [("type", .str ['f', 'u', 'n', 'c', 't', 'i', 'o', 'n']),
    ("function", .dict [("arguments", .str arguments)])]

/-- A message of the assistant without content. -/
def callingMessage (calls : List Object) : Message :=
  [("role", .str ['a', 's', 's', 'i', 's', 't', 'a', 'n', 't']), ("content", .null),
    ("tool_calls", .list calls)]

/-- A malformed call is preserved. -/
theorem exists_preserved_malformed : ∃ repaired count,
    preserveInvalidToolHistory ⟨fun _ => none, fun _ => none⟩
        [callingMessage [commandCall ['\x7b'], commandCall ['1']]] = .ok (repaired, count) ∧
      Preserved ⟨fun _ => none, fun _ => none⟩
        [callingMessage [commandCall ['\x7b'], commandCall ['1']]] repaired count := by
  refine (preserveInvalidToolHistory_preserved_iff _ _ ?_).mpr ?_
  · intro message hmessage _
    rw [List.mem_singleton.mp hmessage]
    trivial
  · intro message _ call _ arguments _
    exact ⟨rfl, fun _ => rfl⟩

/-- The limit of `int` for texts that are an integer. -/
def integerLimit (digits : ℕ) : Limits where
  loads text :=
    if digits < text.length ∧ text.all Char.isDigit then
      some (.valueError "Exceeds the limit for integer string conversion")
    else none
  dumps _ := none

theorem integerLimit_loads {digits : ℕ} {text : Text}
    (h : digits < text.length ∧ text.all Char.isDigit) :
    (integerLimit digits).loads text =
      some (.valueError "Exceeds the limit for integer string conversion") :=
  if_pos h

/-- A call whose arguments are an integer of 4301 digits is not preserved: the exception goes
through. -/
theorem preserveInvalidToolHistory_long_integer :
    TextOrBlocks ((callingMessage [commandCall (List.replicate 4301 '1')]).lookup "content") ∧
      preserveInvalidToolHistory (integerLimit 4300)
          [callingMessage [commandCall (List.replicate 4301 '1')]] =
        .error (.valueError "Exceeds the limit for integer string conversion") := by
  refine ⟨trivial, ?_⟩
  have hcalls : toolCalls (callingMessage [commandCall (List.replicate 4301 '1')]) =
      some [commandCall (List.replicate 4301 '1')] := rfl
  have harguments : callArguments (commandCall (List.replicate 4301 '1')) =
      some (List.replicate 4301 '1') := rfl
  have hlimit : tryLoads (integerLimit 4300) (List.replicate 4301 '1') =
      .error (.valueError "Exceeds the limit for integer string conversion") := by
    have hlong : (4300 < (List.replicate 4301 '1').length ∧
        (List.replicate 4301 '1').all Char.isDigit) := by
      constructor
      · rw [List.length_replicate]
        decide
      · rw [List.all_eq_true]
        intro c hc
        rw [List.eq_of_mem_replicate hc]
        decide
    rw [tryLoads, integerLimit_loads hlong]
    rfl
  rw [preserveInvalidToolHistory, preserveFrom, preserveMessage, hcalls]
  dsimp only
  rw [List.foldlM_cons, sortCall, harguments]
  dsimp only
  rw [hlimit]
  rfl

end CodexServer
