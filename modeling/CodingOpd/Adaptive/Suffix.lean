import Mathlib.Algebra.BigOperators.Group.List.Basic
import CodingOpd.Adaptive.Teacher

/-!
# The entropy of a turn

The client has the diagnostics start at the index before the last prompt token, and the server
counts rows from the second token on, so the rows that are averaged are those of the generated
tokens.

## Main definitions

* `partialEntropy`, `partialMass`: the sums of one row, over its finite entries of rank at most 16
* `PromptOutput.Scores`: an answer whose rows have their tokens
* `relabel`: a row with another value for one token
* `AdaptiveSession.turn`: a session after a turn that is scored with some rows

## Main results

* `extractRows_eq_ok`: what the loop collects
* `AdaptiveSession.generate_suffix`: what a turn adds to its session are averages over the generated
  tokens, and no other row and no entry beyond rank 16 enters them
-/

open Python

namespace Adaptive

variable {K : Type} [Field K]

section Rows

variable (exp : K → K)

/-- The value of an entry that counts: a finite one of rank at most 16. -/
def Logprob.top16 (value : Logprob K) : Option K :=
  match value.logprob with
  | .finite logprob => if value.rank ≤ 16 then some logprob else none
  | _ => none

/-- The values of a row that count. -/
def top16 (row : Row K) : List K := row.filterMap fun entry => entry.2.top16

/-- The partial entropy of a row. -/
def partialEntropy (row : Row K) : K :=
  ((top16 row).map fun logprob => -(exp logprob * logprob)).sum

/-- The mass of the values of a row that count. -/
def partialMass (row : Row K) : K := ((top16 row).map exp).sum

theorem partialEntropy_congr {row row' : Row K} (h : top16 row' = top16 row) :
    partialEntropy exp row' = partialEntropy exp row := by
  rw [partialEntropy, partialEntropy, h]

theorem partialMass_congr {row row' : Row K} (h : top16 row' = top16 row) :
    partialMass exp row' = partialMass exp row := by
  rw [partialMass, partialMass, h]

/-- The average of a measure of some rows. -/
def rowAverage (measure : Row K → K) (rows : List (Row K)) : K :=
  (rows.map measure).sum / rows.length

/-- A row whose entry of a token has another value. -/
def relabel (token : Token) (logprob : PyFloat K) : Row K → Row K
  | [] => []
  | entry :: row =>
    if token = entry.1 then (entry.1, { entry.2 with logprob }) :: row
    else entry :: relabel token logprob row

/-- An answer with a row for each token, in which the token of each row after the first is found. -/
structure PromptOutput.Scores (output : PromptOutput K) : Prop where
  length_eq : output.promptLogprobs.length = output.promptTokenIds.length
  found : ∀ (i : ℕ) (token : Token) (row : Row K), output.promptTokenIds[i + 1]? = some token →
    output.promptLogprobs[i + 1]? = some row → (row.lookup token).isSome

theorem addRow_eq (d : Diagnostics K) (row : Row K) :
    d.addRow exp row =
      ⟨d.entropy + partialEntropy exp row, d.mass + partialMass exp row, d.count + 1⟩ := by
  have hvalues : ∀ d : Diagnostics K, row.foldl (fun d entry => d.addValue exp entry.2) d =
      ⟨d.entropy + partialEntropy exp row, d.mass + partialMass exp row, d.count⟩ := by
    induction row with
    | nil => simp [partialEntropy, partialMass, top16]
    | cons entry row ih =>
      intro d
      rw [List.foldl_cons, ih, partialEntropy, partialEntropy, partialMass, partialMass, top16,
        top16, List.filterMap_cons]
      cases hvalue : entry.2.top16 with
      | none =>
        have hadd : d.addValue exp entry.2 = d := by
          unfold Logprob.top16 at hvalue
          unfold Diagnostics.addValue
          split at hvalue <;> simp_all
        rw [hadd]
      | some logprob =>
        have hadd : d.addValue exp entry.2 =
            { d with
              entropy := d.entropy - exp logprob * logprob
              mass := d.mass + exp logprob } := by
          unfold Logprob.top16 at hvalue
          unfold Diagnostics.addValue
          split at hvalue <;> simp_all
        rw [hadd]
        simp only [List.map_cons, List.sum_cons]
        congr 1 <;> ring
  exact hvalues _

theorem foldl_addRow (d : Diagnostics K) (rows : List (Row K)) :
    rows.foldl (Diagnostics.addRow exp) d =
      ⟨d.entropy + (rows.map (partialEntropy exp)).sum, d.mass + (rows.map (partialMass exp)).sum,
        d.count + rows.length⟩ := by
  induction rows generalizing d with
  | nil => simp
  | cons row rows ih =>
    rw [List.foldl_cons, ih, addRow_eq, List.map_cons, List.map_cons, List.sum_cons, List.sum_cons,
      List.length_cons]
    simp only [add_assoc, Nat.add_comm 1]

/-- The labels that rows give to tokens. -/
def labels (tokens : List Token) (rows : List (Row K)) : List (List (PyFloat K)) :=
  List.zipWith (fun token row => [((row.lookup token).map Logprob.logprob).getD .nan]) tokens rows

/-- **The loop over the rows** collects every token with its label, and adds up the rows from its
start on. -/
theorem extractRows_eq_ok (start : ℤ) {tokens : List Token} {rows : List (Row K)}
    (h : List.Forall₂ (fun token row => (row.lookup token).isSome) tokens rows) (position : ℕ)
    (e : Extraction K) :
    extractRows exp start position e tokens rows =
      .ok ⟨e.ids ++ tokens.map ([·]), e.logprobs ++ labels tokens rows,
        (rows.drop (start - position).toNat).foldl (Diagnostics.addRow exp) e.diagnostics⟩ := by
  induction h generalizing position e with
  | nil => simp [extractRows, labels]
  | @cons token row tokens rows hfound _ ih =>
    obtain ⟨value, hvalue⟩ := Option.isSome_iff_exists.mp hfound
    rw [extractRows, hvalue]
    dsimp only
    rw [ih]
    have hlabels : e.logprobs ++ [[value.logprob]] ++ labels tokens rows =
        e.logprobs ++ labels (token :: tokens) (row :: rows) := by
      simp [labels, hvalue]
    rw [hlabels]
    by_cases hstart : start ≤ position
    · -- the suffix has begun, and each row is added
      have hnext : (start - (position + 1 : ℕ)).toNat = 0 := by omega
      have hhere : (start - position).toNat = 0 := by omega
      rw [if_pos hstart, hnext, hhere]
      simp
    · have hhere : (start - position).toNat = (start - (position + 1 : ℕ)).toNat + 1 := by omega
      rw [if_neg hstart, hhere, List.drop_succ_cons]
      simp

end Rows

section Suffix

variable {exp : K → K} {output : PromptOutput K}

omit [Field K] in
theorem PromptOutput.Scores.forall₂ (h : output.Scores) :
    List.Forall₂ (fun (token : Token) (row : Row K) => (row.lookup token).isSome)
      (output.promptTokenIds.drop 1) (output.promptLogprobs.drop 1) := by
  rw [List.forall₂_iff_get]
  refine ⟨by simp [h.length_eq], fun i htoken hrow => h.found i _ _ ?_ ?_⟩
  · simp
  · simp

/-- The rows of a scored sequence that its generated tokens have. -/
theorem extractAdaptiveLogprobs_eq_ok (exp : K → K) {promptIds generated : List Token}
    (hprompt : promptIds ≠ []) (hgenerated : generated ≠ []) {rows : List (Row K)}
    (h : PromptOutput.Scores ⟨promptIds ++ generated, rows⟩) :
    extractAdaptiveLogprobs exp ⟨promptIds ++ generated, rows⟩ (promptIds.length - 1) =
      .ok {
        promptIds := ((promptIds ++ generated).drop 1).map ([·]) ++ [[0]]
        promptLogprobs := labels ((promptIds ++ generated).drop 1) (rows.drop 1) ++ [[.finite 0]]
        opdEntropy := .finite (rowAverage (partialEntropy exp) (rows.drop promptIds.length))
        opdTop16Mass := .finite (rowAverage (partialMass exp) (rows.drop promptIds.length)) } := by
  have hpos := List.length_pos_iff.mpr hprompt
  have hgenerated := List.length_pos_iff.mpr hgenerated
  have hlength : rows.length = promptIds.length + generated.length :=
    h.length_eq.trans List.length_append
  have hstart : (rows.drop 1).drop ((promptIds.length : ℤ) - 1 - (0 : ℕ)).toNat =
      rows.drop promptIds.length := by
    rw [List.drop_drop]
    congr 1
    omega
  have hcount : (rows.drop promptIds.length).length ≠ 0 := by
    rw [List.length_drop]
    omega
  rw [extractAdaptiveLogprobs, extractRows_eq_ok exp _ h.forall₂, hstart, foldl_addRow]
  simp only [List.nil_append, zero_add, ok_bind]
  rw [Diagnostics.average, Diagnostics.average, if_neg hcount, if_neg hcount]
  rfl

omit [Field K] in
/-- An entry beyond rank 16 does not count, whatever its value. -/
theorem top16_relabel {token : Token} {row : Row K} {value : Logprob K}
    (hvalue : row.lookup token = some value) (hrank : 16 < value.rank) (logprob : PyFloat K) :
    top16 (relabel token logprob row) = top16 row := by
  have hbeyond : ∀ value : Logprob K, 16 < value.rank → value.top16 = none := by
    intro value hrank
    unfold Logprob.top16
    split
    · rw [if_neg (by omega)]
    · rfl
  induction row with
  | nil => rfl
  | cons entry row ih =>
    rw [List.lookup_cons] at hvalue
    rw [relabel]
    by_cases htoken : token = entry.1
    · rw [if_pos htoken, top16, top16, List.filterMap_cons, List.filterMap_cons]
      rw [beq_iff_eq.mpr htoken] at hvalue
      cases hvalue
      rw [hbeyond entry.2 hrank, hbeyond { entry.2 with logprob } hrank]
    · rw [beq_eq_false_iff_ne.mpr htoken] at hvalue
      rw [if_neg htoken, top16, top16, List.filterMap_cons, List.filterMap_cons, ← top16, ← top16,
        ih hvalue]

omit [Field K] in
theorem isSome_lookup_relabel {token other : Token} {row : Row K} (logprob : PyFloat K)
    (h : (row.lookup other).isSome) : ((relabel token logprob row).lookup other).isSome := by
  induction row with
  | nil => exact h
  | cons entry row ih =>
    rw [relabel]
    rw [List.lookup_cons] at h
    by_cases hother : other = entry.1
    · split <;> simp [hother]
    · rw [beq_eq_false_iff_ne.mpr hother] at h
      split
      · rwa [List.lookup_cons, beq_eq_false_iff_ne.mpr hother]
      · rw [List.lookup_cons, beq_eq_false_iff_ne.mpr hother]
        exact ih h

omit [Field K] in
/-- A row that gives a token another value still has its entries. -/
theorem PromptOutput.Scores.relabel {tokens : List Token} {rows : List (Row K)}
    (h : PromptOutput.Scores ⟨tokens, rows⟩) {i : ℕ} {token : Token} {row : Row K}
    (hrow : rows[i]? = some row) (logprob : PyFloat K) :
    PromptOutput.Scores ⟨tokens, rows.set i (Adaptive.relabel token logprob row)⟩ := by
  refine ⟨by rw [List.length_set, h.length_eq], fun j other row' hother hrow' => ?_⟩
  by_cases hj : i = j + 1
  · subst hj
    rw [List.getElem?_set_self (List.getElem?_eq_some_iff.mp hrow).1] at hrow'
    cases hrow'
    exact isSome_lookup_relabel logprob (h.found j other row hother hrow)
  · rw [List.getElem?_set_ne hj] at hrow'
    exact h.found j other row' hother hrow'

/-- The average does not see a row of which a measure is that of another one. -/
theorem rowAverage_set {measure : Row K → K} {rows : List (Row K)} {i : ℕ} {row row' : Row K}
    (hrow : rows[i]? = some row) (hmeasure : measure row' = measure row) :
    rowAverage measure (rows.set i row') = rowAverage measure rows := by
  obtain ⟨hi, rfl⟩ := List.getElem?_eq_some_iff.mp hrow
  have hmap : (rows.map measure).set i (measure rows[i]) = rows.map measure := by
    rw [← List.getElem_map measure, List.set_getElem_self]
    simpa using hi
  rw [rowAverage, rowAverage, List.map_set, hmeasure, hmap, List.length_set]

/-- The averages of the rows from a position on do not see another value beyond rank 16. -/
theorem rowAverage_drop_relabel {measure : Row K → K}
    (hmeasure : ∀ {row row' : Row K}, top16 row' = top16 row → measure row' = measure row)
    {rows : List (Row K)} {start i : ℕ} (hi : start ≤ i) {row : Row K} (hrow : rows[i]? = some row)
    {token : Token} {value : Logprob K} (hvalue : row.lookup token = some value)
    (hrank : 16 < value.rank) (logprob : PyFloat K) :
    rowAverage measure ((rows.set i (relabel token logprob row)).drop start) =
      rowAverage measure (rows.drop start) := by
  have hdrop : (rows.drop start)[i - start]? = some row := by
    rw [List.getElem?_drop, Nat.add_sub_cancel' hi, hrow]
  rw [List.drop_set, if_neg (not_lt.mpr hi)]
  exact rowAverage_set hdrop (hmeasure (top16_relabel hvalue hrank logprob))

omit [Field K] in
/-- Labels are shifted by one: the entry at `i` scores the token at `i + 1`. -/
theorem PromptOutput.Scores.label {tokens : List Token} {rows : List (Row K)}
    (h : PromptOutput.Scores ⟨tokens, rows⟩) {i : ℕ} {token : Token} {row : Row K}
    (htoken : tokens[i + 1]? = some token) (hrow : rows[i + 1]? = some row) :
    ∃ value, row.lookup token = some value ∧
      ((tokens.drop 1).map ([·]))[i]? = some [token] ∧
      (labels (tokens.drop 1) (rows.drop 1))[i]? = some [value.logprob] := by
  obtain ⟨value, hvalue⟩ := Option.isSome_iff_exists.mp (h.found i token row htoken hrow)
  have htoken' : (tokens.drop 1)[i]? = some token := by
    rw [List.getElem?_drop, Nat.add_comm, htoken]
  have hrow' : (rows.drop 1)[i]? = some row := by
    rw [List.getElem?_drop, Nat.add_comm, hrow]
  refine ⟨value, hvalue, ?_, ?_⟩
  · rw [List.getElem?_map, htoken']
    rfl
  · rw [labels, List.getElem?_zipWith, htoken', hrow']
    simp [hvalue]

end Suffix

/-! ## Turns -/

namespace AdaptiveSession

variable [LinearOrder K] {E : Type} (exp : K → K) (session : AdaptiveSession K)
  (promptIds : List Token) (output : TokenOutput K E)

/-- The session after a turn that the Teacher scores with some rows. -/
def turn (rows : List (Row K)) : AdaptiveSession K :=
  (session.generate (OPDServer.generate exp fun sequence => ⟨sequence, rows⟩) promptIds output).2

variable {promptIds output}

omit [LinearOrder K] in
/-- What the Teacher's server answers to the call of a turn. -/
theorem generate_teacherParams_eq_ok (hprompt : promptIds ≠ []) (hgenerated : output.tokenIds ≠ [])
    {rows : List (Row K)} (h : PromptOutput.Scores ⟨promptIds ++ output.tokenIds, rows⟩) :
    OPDServer.generate exp (fun sequence => ⟨sequence, rows⟩) (promptIds ++ output.tokenIds)
        (teacherParams promptIds) =
      .ok {
        promptIds := ((promptIds ++ output.tokenIds).drop 1).map ([·]) ++ [[0]]
        promptLogprobs :=
          labels ((promptIds ++ output.tokenIds).drop 1) (rows.drop 1) ++ [[.finite 0]]
        opdEntropy := .finite (rowAverage (partialEntropy exp) (rows.drop promptIds.length))
        opdTop16Mass := .finite (rowAverage (partialMass exp) (rows.drop promptIds.length)) } :=
  extractAdaptiveLogprobs_eq_ok exp hprompt hgenerated h

/-- The entropy and the mass that a turn adds to its session. -/
theorem turn_eq (hprompt : promptIds ≠ []) (hgenerated : output.tokenIds ≠ [])
    {rows : List (Row K)} (h : PromptOutput.Scores ⟨promptIds ++ output.tokenIds, rows⟩) :
    (session.turn exp promptIds output rows).entropies = session.entropies ++
        [.finite (rowAverage (partialEntropy exp) (rows.drop promptIds.length))] ∧
      (session.turn exp promptIds output rows).masses = session.masses ++
        [.finite (rowAverage (partialMass exp) (rows.drop promptIds.length))] := by
  rw [turn, generate_of_ok hgenerated (generate_teacherParams_eq_ok exp hprompt hgenerated h)]
  exact ⟨accept_entropies .., accept_masses ..⟩

/-- **The diagnostics of a turn** are averages over its generated tokens, of the finite entries of
rank at most 16: another row for a prompt token leaves them alone, and another value for a generated
token beyond rank 16 does. The labels are the entries of the actual tokens. -/
theorem generate_suffix (hprompt : promptIds ≠ []) (hgenerated : output.tokenIds ≠ [])
    {rows : List (Row K)} (h : PromptOutput.Scores ⟨promptIds ++ output.tokenIds, rows⟩) :
    (rows.drop promptIds.length).length = output.tokenIds.length ∧
      (session.turn exp promptIds output rows).entropies = session.entropies ++
        [.finite (rowAverage (partialEntropy exp) (rows.drop promptIds.length))] ∧
      (session.turn exp promptIds output rows).masses = session.masses ++
        [.finite (rowAverage (partialMass exp) (rows.drop promptIds.length))] ∧
      (∃ fields, OPDServer.generate exp (fun sequence => ⟨sequence, rows⟩)
            (promptIds ++ output.tokenIds) (teacherParams promptIds) = .ok fields ∧
        fields.opdEntropy = .finite (rowAverage (partialEntropy exp) (rows.drop promptIds.length)) ∧
        fields.opdTop16Mass = .finite (rowAverage (partialMass exp) (rows.drop promptIds.length)) ∧
        ∀ (i : ℕ) (token : Token) (row : Row K),
          (promptIds ++ output.tokenIds)[i + 1]? = some token → rows[i + 1]? = some row →
          ∃ value, row.lookup token = some value ∧ fields.promptIds[i]? = some [token] ∧
            fields.promptLogprobs[i]? = some [value.logprob]) ∧
      (∀ i < promptIds.length, ∀ row,
        PromptOutput.Scores ⟨promptIds ++ output.tokenIds, rows.set i row⟩ →
        (session.turn exp promptIds output (rows.set i row)).entropies =
            (session.turn exp promptIds output rows).entropies ∧
          (session.turn exp promptIds output (rows.set i row)).masses =
            (session.turn exp promptIds output rows).masses) ∧
      ∀ (i : ℕ) (token : Token) (row : Row K) (value : Logprob K) (logprob : PyFloat K),
        promptIds.length ≤ i → (promptIds ++ output.tokenIds)[i]? = some token →
        rows[i]? = some row → row.lookup token = some value → 16 < value.rank →
        (session.turn exp promptIds output (rows.set i (relabel token logprob row))).entropies =
            (session.turn exp promptIds output rows).entropies ∧
          (session.turn exp promptIds output (rows.set i (relabel token logprob row))).masses =
            (session.turn exp promptIds output rows).masses := by
  obtain ⟨hentropies, hmasses⟩ := session.turn_eq exp hprompt hgenerated h
  refine ⟨?_, hentropies, hmasses, ?_, ?_, ?_⟩
  · have hlength : rows.length = _ := h.length_eq.trans List.length_append
    rw [List.length_drop]
    omega
  · refine ⟨_, generate_teacherParams_eq_ok exp hprompt hgenerated h, rfl, rfl, ?_⟩
    intro i token row htoken hrow
    obtain ⟨value, hvalue, hid, hlabel⟩ := h.label htoken hrow
    refine ⟨value, hvalue, ?_, ?_⟩
    · rw [List.getElem?_append_left (List.getElem?_eq_some_iff.mp hid).1, hid]
    · rw [List.getElem?_append_left (List.getElem?_eq_some_iff.mp hlabel).1, hlabel]
  · intro i hi row hscores
    obtain ⟨hentropies', hmasses'⟩ := session.turn_eq exp hprompt hgenerated hscores
    rw [hentropies', hmasses', hentropies, hmasses, List.drop_set_of_lt hi]
    exact ⟨rfl, rfl⟩
  · intro i token row value logprob hi htoken hrow hvalue hrank
    have hscores : PromptOutput.Scores
        ⟨promptIds ++ output.tokenIds, rows.set i (relabel token logprob row)⟩ :=
      h.relabel hrow logprob
    obtain ⟨hentropies', hmasses'⟩ := session.turn_eq exp hprompt hgenerated hscores
    have hentropy := rowAverage_drop_relabel (partialEntropy_congr exp) hi hrow hvalue hrank logprob
    have hmass := rowAverage_drop_relabel (partialMass_congr exp) hi hrow hvalue hrank logprob
    rw [hentropies', hmasses', hentropies, hmasses, hentropy, hmass]
    exact ⟨rfl, rfl⟩

/-- The rows of a prompt of two tokens and a generated one, which the Teacher ranks seventeenth. -/
def threeRows : List (Row ℚ) :=
  [[], [(7, ⟨.finite 0, 1⟩)], [(1, ⟨.finite (-1 / 2), 1⟩), (99, ⟨.finite (-3), 17⟩)]]

/-- The Student's answer to the prompt. -/
def oneToken : TokenOutput ℚ Unit where
  tokenIds := [99]

theorem suffix_of_three :
    ((create .t0100 none).turn (fun x : ℚ => 1 + x) [8, 7] oneToken threeRows).entropies =
        [.finite (1 / 4)] ∧
      ((create .t0100 none).turn (fun x : ℚ => 1 + x) [8, 7] oneToken threeRows).masses =
        [.finite (1 / 2)] := by
  have hgenerated : oneToken.tokenIds ≠ [] := List.cons_ne_nil _ _
  have hscores : PromptOutput.Scores ⟨[8, 7] ++ oneToken.tokenIds, threeRows⟩ := by
    refine ⟨rfl, ?_⟩
    rintro (_ | _ | i) token row htoken hrow
    · cases htoken
      cases hrow
      rfl
    · cases htoken
      cases hrow
      rfl
    · cases htoken
  obtain ⟨-, hentropies, hmasses, -⟩ := generate_suffix (fun x : ℚ => 1 + x) (create .t0100 none)
    (List.cons_ne_nil _ _) hgenerated hscores
  refine ⟨hentropies.trans ?_, hmasses.trans ?_⟩
  · norm_num [rowAverage, partialEntropy, top16, Logprob.top16, List.filterMap_cons, threeRows,
      create]
  · norm_num [rowAverage, partialMass, top16, Logprob.top16, List.filterMap_cons, threeRows,
      create]

end AdaptiveSession

end Adaptive
