import CodingOpd.Adaptive.Session

/-!
# Teacher labels of a turn

The Teacher scores a token sequence in one forward pass and answers with one row for each
position. `extract_adaptive_logprobs` keeps the label of every actual token after the first, and
averages the partial entropy of the rows of the generated suffix.

## Main definitions

* `extractAdaptiveLogprobs`: the labels and diagnostics of one answer
* `teacherParams`, `OPDServer.generate`: the request of a turn, and the server that takes it
* `Teacher`: a Teacher whose row at a position depends on the tokens up to that position
* `generate`, `runTurns`: one turn of a session, and a sequence of turns
* `Labelled`: a stored sequence whose rows are the Teacher's labels

## Main results

* `extractAdaptiveLogprobs_labelled`: the labels of a scored sequence
* `runTurns_labelled`: every stored sequence of a session is labelled
-/

open Python

namespace Adaptive

/-- An entry of a Teacher row. -/
structure Logprob (K : Type) where
  logprob : PyFloat K
  rank : ℕ

/-- A Teacher row: the entries of one position by token. -/
abbrev Row (K : Type) := List (Token × Logprob K)

/-- A Teacher answer. The first row, of a token that nothing precedes, is not read. -/
structure PromptOutput (K : Type) where
  promptTokenIds : List Token
  promptLogprobs : List (Row K)

variable {K : Type} [Field K] [LinearOrder K]

/-- The sums that `extract_adaptive_logprobs` accumulates over the suffix. -/
structure Diagnostics (K : Type) where
  entropy : K
  mass : K
  count : ℕ

namespace Diagnostics

variable (exp : K → K)

/-- One entry: a finite one of rank at most 16 adds to the partial entropy and the mass. -/
def addValue (d : Diagnostics K) (value : Logprob K) : Diagnostics K :=
  match value.logprob with
  | .finite logprob =>
    if value.rank ≤ 16 then
      { d with entropy := d.entropy - exp logprob * logprob, mass := d.mass + exp logprob }
    else d
  | _ => d

/-- One row of the suffix. -/
def addRow (d : Diagnostics K) (row : Row K) : Diagnostics K :=
  row.foldl (fun d entry => d.addValue exp entry.2) { d with count := d.count + 1 }

/-- `total / count if count else math.nan`. -/
def average (d : Diagnostics K) (total : K) : PyFloat K :=
  if d.count = 0 then .nan else .finite (total / d.count)

end Diagnostics

/-- What the loop of `extract_adaptive_logprobs` has collected. -/
structure Extraction (K : Type) where
  ids : List (List Token)
  logprobs : List (List (PyFloat K))
  diagnostics : Diagnostics K

/-- The loop of `extract_adaptive_logprobs` over the tokens after the first and their rows. -/
def extractRows (exp : K → K) (start : ℤ) :
    ℕ → Extraction K → List Token → List (Row K) → Except PyError (Extraction K)
  | _, extraction, [], [] => .ok extraction
  | position, extraction, token :: tokens, row :: rows =>
    match row.lookup token with
    | none => .error (.keyError "token")
    | some value =>
      let diagnostics :=
        if start ≤ position then extraction.diagnostics.addRow exp row
        else extraction.diagnostics
      extractRows exp start (position + 1)
        ⟨extraction.ids ++ [[token]], extraction.logprobs ++ [[value.logprob]], diagnostics⟩
        tokens rows
  | _, _, _ :: _, [] => .error (.valueError "zip() argument 2 is shorter than argument 1")
  | _, _, [], _ :: _ => .error (.valueError "zip() argument 2 is longer than argument 1")

/-- `extract_adaptive_logprobs`. -/
def extractAdaptiveLogprobs (exp : K → K) (output : PromptOutput K) (start : ℤ) :
    Except PyError (TeacherFields K) := do
  let e ← extractRows exp start 0 ⟨[], [], ⟨0, 0, 0⟩⟩ (output.promptTokenIds.drop 1)
    (output.promptLogprobs.drop 1)
  return {
    promptIds := e.ids ++ [[0]]
    promptLogprobs := e.logprobs ++ [[.finite 0]]
    opdEntropy := e.diagnostics.average e.diagnostics.entropy
    opdTop16Mass := e.diagnostics.average e.diagnostics.mass }

/-- The sampling parameters of a call of the Teacher. -/
structure SamplingParams where
  maxTokens : ℕ := 1
  temperature : ℕ := 1
  promptLogprobs : ℕ := 16
  opdEntropyStart : Option ℤ := none
deriving DecidableEq

/-- The sampling parameters with which `AdaptiveRolloutClient.generate` has a turn scored. -/
def teacherParams (promptIds : List Token) : SamplingParams where
  opdEntropyStart := some (promptIds.length - 1)

/-- `_extract`, with the start that `_suffix_start` holds. What upstream extracts without a start
has no diagnostics, and `accept` raises when it looks for them. -/
def extract (exp : K → K) (output : PromptOutput K) :
    Option ℤ → Except PyError (TeacherFields K)
  | none => .error (.keyError "opd_entropy")
  | some start => extractAdaptiveLogprobs exp output start

/-- `OPDServer.generate` of a Teacher, to which the configuration gives no `coding_react` policy:
the rows with which the engine answers a prompt, extracted from the start that the call asks for. -/
def OPDServer.generate (exp : K → K) (engine : List Token → PromptOutput K)
    (promptIds : List Token) (samplingParams : SamplingParams) :
    Except PyError (TeacherFields K) :=
  extract exp (engine promptIds) samplingParams.opdEntropyStart

/-- A Teacher whose row at a position depends only on the tokens up to that position, its own
included. -/
abbrev Teacher (K : Type) := List Token → Row K

/-- The Teacher's answer to a sequence. -/
def Teacher.score (teacher : Teacher K) (sequence : List Token) : PromptOutput K where
  promptTokenIds := sequence
  promptLogprobs := (List.range sequence.length).map fun i => teacher (sequence.take (i + 1))

/-- The Student's answer to one request. -/
structure TokenOutput (K E : Type) where
  tokenIds : List Token
  logProbs : Option (List (PyFloat K)) := none
  routedExperts : Option (List E) := none
  stopReason : Option String := none

namespace AdaptiveSession

variable {E : Type}

/-- `AdaptiveRolloutClient.generate` on an adaptive session, from the Student's answer on, with the
Teacher's client: the answer handed to the Gateway, and the session afterwards. -/
def generate (teacherClient : List Token → SamplingParams → Except PyError (TeacherFields K))
    (session : AdaptiveSession K) (promptIds : List Token) (output : TokenOutput K E) :
    Except PyError (TokenOutput K E) × AdaptiveSession K :=
  if output.tokenIds = [] then (.ok output, session)
  else
    let sequence := promptIds ++ output.tokenIds
    match teacherClient sequence (teacherParams promptIds) with
    | .error e => (.error e, session)
    | .ok extra =>
      let (accepted, session) := session.accept sequence extra
      if accepted then (.ok output, session)
      else
        (.ok { tokenIds := [], logProbs := some [], routedExperts := none,
               stopReason := some "length" }, session)

/-- The session after a sequence of turns, each a prompt and the Student's answer to it. -/
def runTurns (exp : K → K) (teacher : Teacher K) (session : AdaptiveSession K)
    (turns : List (List Token × TokenOutput K E)) : AdaptiveSession K :=
  turns.foldl (fun session turn =>
    (session.generate (OPDServer.generate exp teacher.score) turn.1 turn.2).2) session

end AdaptiveSession

/-- `labels` are the labels that `rows` give to `tokens`. -/
def LabelsOf (tokens : List Token) (rows : List (Row K)) (labels : List (List (PyFloat K))) :
    Prop :=
  tokens.length = rows.length ∧ labels.length = rows.length ∧
    ∀ (i : ℕ) (token : Token) (row : Row K), tokens[i]? = some token → rows[i]? = some row →
      ∃ value, row.lookup token = some value ∧ labels[i]? = some [value.logprob]

/-- The rows of a stored sequence are the Teacher's labels of its tokens after the first, and a
dummy. -/
def Labelled (teacher : Teacher K) (tokens : List Token) (logprobs : List (List (PyFloat K))) :
    Prop :=
  ∃ labels, logprobs = labels ++ [[.finite 0]] ∧ labels.length = tokens.length - 1 ∧
    ∀ (i : ℕ) (token : Token), tokens[i + 1]? = some token →
      ∃ value, (teacher (tokens.take (i + 2))).lookup token = some value ∧
        labels[i]? = some [value.logprob]

omit [LinearOrder K] in
theorem extractRows_labels {exp : K → K} {start : ℤ} {position : ℕ} {e e' : Extraction K}
    {tokens : List Token} {rows : List (Row K)}
    (h : extractRows exp start position e tokens rows = .ok e') :
    ∃ labels, e'.logprobs = e.logprobs ++ labels ∧ LabelsOf tokens rows labels := by
  induction tokens generalizing position e rows with
  | nil =>
    cases rows with
    | nil =>
      cases h
      exact ⟨[], by simp, by simp [LabelsOf]⟩
    | cons row rows => cases h
  | cons token tokens ih =>
    cases rows with
    | nil => cases h
    | cons row rows =>
      simp only [extractRows] at h
      cases hvalue : row.lookup token with
      | none => simp [hvalue] at h
      | some value =>
        rw [hvalue] at h
        obtain ⟨labels, hlabels, hlength, hlength', hrows⟩ := ih h
        refine ⟨[value.logprob] :: labels, by simp [hlabels], by simp [hlength], by simp [hlength'],
          ?_⟩
        rintro (_ | i) token' row' htoken hrow
        · simp only [List.getElem?_cons_zero, Option.some.injEq] at htoken hrow ⊢
          subst htoken hrow
          exact ⟨value, hvalue, rfl⟩
        · simp only [List.getElem?_cons_succ] at htoken hrow ⊢
          exact hrows i token' row' htoken hrow

omit [LinearOrder K] in
/-- **The labels of a scored sequence**: one for each token after the first, and a dummy. -/
theorem extractAdaptiveLogprobs_labelled {exp : K → K} {teacher : Teacher K}
    {sequence : List Token} {start : ℤ} {fields : TeacherFields K}
    (h : extractAdaptiveLogprobs exp (teacher.score sequence) start = .ok fields) :
    Labelled teacher sequence fields.promptLogprobs := by
  unfold extractAdaptiveLogprobs at h
  cases hrows : extractRows exp start 0 ⟨[], [], ⟨0, 0, 0⟩⟩
      ((teacher.score sequence).promptTokenIds.drop 1)
      ((teacher.score sequence).promptLogprobs.drop 1) with
  | error e =>
    rw [hrows] at h
    cases h
  | ok e =>
    rw [hrows] at h
    cases h
    obtain ⟨labels, hlabels, hlength, hlength', hlabel⟩ := extractRows_labels hrows
    simp only [Teacher.score, List.length_drop] at hlength'
    refine ⟨labels, by simp [hlabels], by simpa using hlength', ?_⟩
    intro i token htoken
    have hi : i + 1 < sequence.length := (List.getElem?_eq_some_iff.mp htoken).1
    refine hlabel i token _ ?_ ?_
    · simpa [Teacher.score, Nat.add_comm] using htoken
    · simp [Teacher.score, hi]

namespace AdaptiveSession

variable {E : Type}

variable {teacherClient : List Token → SamplingParams → Except PyError (TeacherFields K)}

/-- A turn that the Teacher scores is offered to the session. -/
theorem generate_of_ok {session : AdaptiveSession K} {promptIds : List Token}
    {output : TokenOutput K E} {extra : TeacherFields K} (hgenerated : output.tokenIds ≠ [])
    (h : teacherClient (promptIds ++ output.tokenIds) (teacherParams promptIds) = .ok extra) :
    (session.generate teacherClient promptIds output).2 =
      (session.accept (promptIds ++ output.tokenIds) extra).2 := by
  unfold generate
  rw [if_neg hgenerated]
  simp only [h]
  split <;> rfl

/-- A turn leaves the session as it is, or offers it the sequence that the Teacher scored. -/
theorem generate_session (session : AdaptiveSession K) (promptIds : List Token)
    (output : TokenOutput K E) :
    (session.generate teacherClient promptIds output).2 = session ∨
      ∃ extra,
        teacherClient (promptIds ++ output.tokenIds) (teacherParams promptIds) = .ok extra ∧
        (session.generate teacherClient promptIds output).2 =
          (session.accept (promptIds ++ output.tokenIds) extra).2 := by
  by_cases hempty : output.tokenIds = []
  · exact Or.inl (by rw [generate, if_pos hempty])
  · cases hextract : teacherClient (promptIds ++ output.tokenIds) (teacherParams promptIds) with
    | error e =>
      refine Or.inl ?_
      rw [generate, if_neg hempty]
      simp only [hextract]
    | ok extra => exact Or.inr ⟨extra, rfl, generate_of_ok hempty hextract⟩

/-- One turn stores nothing, or one labelled sequence. -/
theorem generate_labelled {exp : K → K} {teacher : Teacher K} {session : AdaptiveSession K}
    (hsession : ∀ p ∈ session.prefixes, Labelled teacher p.tokens p.logprobs)
    (promptIds : List Token) (output : TokenOutput K E) :
    ∀ p ∈ (session.generate (OPDServer.generate exp teacher.score) promptIds output).2.prefixes,
      Labelled teacher p.tokens p.logprobs := by
  rcases session.generate_session promptIds output with h | ⟨extra, hextract, h⟩
  · rw [h]
    exact hsession
  · rw [h]
    cases hanswer : (session.accept (promptIds ++ output.tokenIds) extra).1 with
    | false =>
      rw [accept_prefixes_of_false hanswer]
      exact hsession
    | true =>
      rw [accept_prefixes_of_true hanswer]
      intro p hp
      rcases List.mem_append.mp hp with hp | hp
      · exact hsession p (List.mem_of_mem_filter hp)
      · obtain rfl := List.mem_singleton.mp hp
        exact extractAdaptiveLogprobs_labelled hextract

/-- **Every stored sequence of a session is labelled.** -/
theorem runTurns_labelled {exp : K → K} {teacher : Teacher K} {session : AdaptiveSession K}
    (hsession : ∀ p ∈ session.prefixes, Labelled teacher p.tokens p.logprobs)
    (turns : List (List Token × TokenOutput K E)) :
    ∀ p ∈ (session.runTurns exp teacher turns).prefixes,
      Labelled teacher p.tokens p.logprobs := by
  induction turns generalizing session with
  | nil => exact hsession
  | cons turn turns ih => exact ih (generate_labelled hsession turn.1 turn.2)

end AdaptiveSession

end Adaptive
