import CodingOpd.Adaptive.Teacher

/-!
# The alignment of the attached labels

The Teacher's rows, the stored label rows and the cropped trajectory each count positions from a
different token. Along a whole session the three conventions meet: the label attached at a
position is the Teacher's label of the trajectory's own next token.

## Main definitions

* `Aligned`: a retained trajectory is cropped to `length` tokens and carries their labels

## Main results

* `attach_aligned`: every trajectory that `attach` retains is aligned
-/

open Python

namespace Adaptive

variable {K E : Type} [Field K] [LinearOrder K]

/-- `t'` is `t` cropped to its first `length` tokens, more than its prompt, and carries the
labels of these tokens: row `i` is the Teacher's label of token `i + 1` after the tokens up to
`i`, and the last row is a dummy. -/
structure Aligned (teacher : Teacher K) (t t' : Trajectory K E) (length : ℕ) : Prop where
  promptIds : t'.promptIds = t.promptIds
  prompt_lt : t.promptIds.length < length
  length_le : length ≤ t.tokens.length
  tokens : t'.tokens = t.tokens.take length
  responseIds : t'.responseIds = t.responseIds.take (length - t.promptIds.length)
  responseMask : t'.responseMask = t.responseMask.take (length - t.promptIds.length)
  responseLogprobs :
    t'.responseLogprobs = t.responseLogprobs.map (List.take (length - t.promptIds.length))
  labels : ∃ ids logprobs, t'.teacherIds = some ids ∧ t'.teacherLogprobs = some logprobs ∧
    ids.length = length ∧ logprobs.length = length ∧
    ids.getLast? = some [0] ∧ logprobs.getLast? = some [.finite 0] ∧
    ∀ i < length - 1, ∃ token value, t.tokens[i + 1]? = some token ∧ ids[i]? = some [token] ∧
      (teacher (t.tokens.take (i + 2))).lookup token = some value ∧
      logprobs[i]? = some [value.logprob]

omit [LinearOrder K] in
/-- Cropping to the common part with a labelled sequence aligns the labels. -/
theorem crop_aligned {teacher : Teacher K} {t : Trajectory K E} {p : ScoredPrefix K}
    (hlabelled : Labelled teacher p.tokens p.logprobs)
    (hagree : AdaptiveSession.Agree t.tokens p.tokens)
    (hprompt : t.promptIds.length < min t.tokens.length p.tokens.length) :
    Aligned teacher t (t.crop (min t.tokens.length p.tokens.length) p.logprobs)
      (min t.tokens.length p.tokens.length) := by
  set length := min t.tokens.length p.tokens.length with hlength
  obtain ⟨labels, hlogprobs, hlabels, hlabel⟩ := hlabelled
  have htake : p.logprobs.take (length - 1) = labels.take (length - 1) := by
    rw [hlogprobs, List.take_append_of_le_length (by omega)]
  have hids : ((t.tokens.take length).drop 1).length = length - 1 := by
    simp only [List.length_drop, List.length_take]
    omega
  refine ⟨rfl, hprompt, by omega, t.crop_tokens _ hprompt.le, rfl, rfl, rfl, _, _, rfl, rfl, ?_, ?_,
    by simp, by simp, ?_⟩
  · rw [List.length_append, List.length_map, hids, List.length_singleton]
    omega
  · rw [htake, List.length_append, List.length_take, List.length_singleton]
    omega
  · intro i hi
    -- up to position `i + 1` the trajectory and the stored sequence are the same
    have hsame : t.tokens.take (i + 2) = p.tokens.take (i + 2) := hagree.take_eq (by omega)
    have hbound : i + 1 < t.tokens.length := by omega
    have hnext : p.tokens[i + 1]? = t.tokens[i + 1]? := by
      have h := congrArg (fun l => l[i + 1]?) hsame
      simpa using h.symm
    obtain ⟨value, hvalue, hrow⟩ := hlabel i t.tokens[i + 1] (by
      rw [hnext, List.getElem?_eq_getElem hbound])
    refine ⟨t.tokens[i + 1], value, List.getElem?_eq_getElem hbound, ?_, hsame ▸ hvalue, ?_⟩
    · rw [List.getElem?_append_left (by rw [List.length_map, hids]; exact hi), List.getElem?_map,
        List.getElem?_drop, List.getElem?_take_of_lt (by omega), Nat.add_comm 1 i,
        List.getElem?_eq_getElem hbound]
      rfl
    · rw [htake, List.getElem?_append_left (by rw [List.length_take]; omega),
        List.getElem?_take_of_lt hi]
      exact hrow

namespace AdaptiveSession

/-- **The attached labels are aligned end to end**: after any sequence of turns, a trajectory
that `attach` retains carries, at each position, the Teacher's label of its own next token after
its own tokens so far. -/
theorem attach_aligned (exp : K → K) (teacher : Teacher K) (algorithm : AdaptiveOPD K)
    (routingKey : Option String) (turns : List (List Token × TokenOutput K E))
    (ts out : List (Trajectory K E))
    (hattach : ((create algorithm routingKey).runTurns exp teacher turns).attach ts = .ok out) :
    ∀ t' ∈ out, ∃ t ∈ ts, ∃ length, Aligned teacher t t' length := by
  obtain ⟨kept, hkept, rfl⟩ := attach_eq_ok_iff.mp hattach
  have hlabelled : ∀ p ∈ ((create algorithm routingKey).runTurns exp teacher turns).prefixes,
      Labelled teacher p.tokens p.logprobs := by
    apply runTurns_labelled
    simp [create]
  intro t' ht'
  induction hkept with
  | nil => simp at ht'
  | @cons t k ts kept hone hrest ih =>
    have later : t' ∈ kept.reduceOption →
        ∃ t₀ ∈ t :: ts, ∃ length, Aligned teacher t₀ t' length := by
      intro hmem
      obtain ⟨t₀, ht₀, haligned⟩ := ih (attach_eq_ok_iff.mpr ⟨kept, hrest, rfl⟩) hmem
      exact ⟨t₀, List.mem_cons_of_mem _ ht₀, haligned⟩
    cases k with
    | none => exact later (by simpa using ht')
    | some t₁ =>
      rw [List.reduceOption_cons_of_some] at ht'
      rcases List.mem_cons.mp ht' with rfl | hmem
      · obtain ⟨-, p, hp, hprompt, rfl⟩ := attachOne_eq_ok_some_iff.mp hone
        obtain ⟨hmem, hagree⟩ := mem_and_agree_of_matching? hp
        exact ⟨t, List.mem_cons_self, _, crop_aligned (hlabelled p hmem) hagree hprompt⟩
      · exact later hmem

/-- A Teacher whose label of the last of `n` tokens is `-n`, outside the Top-16. -/
def countingTeacher : Teacher ℚ := fun tokens =>
  [(tokens.getLastD 0, ⟨.finite (-tokens.length), 17⟩)]

/-- Two turns, the second over a rewritten history. -/
def rewrittenTurns : List (List Token × TokenOutput ℚ Unit) :=
  [([10, 11], { tokenIds := [12, 13] }), ([10, 21], { tokenIds := [22] })]

/-- The trajectory of the first turn, before and after `attach`. -/
def firstTurn : Trajectory ℚ Unit where
  promptIds := [10, 11]
  responseIds := [12, 13]
  responseMask := [1, 1]
  mask_length := rfl

def firstTurnAttached : Trajectory ℚ Unit :=
  { firstTurn with
    teacherIds := some [[11], [12], [13], [0]]
    teacherLogprobs := some [[.finite (-2)], [.finite (-3)], [.finite (-4)], [.finite 0]] }

theorem attach_aligned_rewritten :
    ((create .t0100 none).runTurns (fun _ => 1) countingTeacher rewrittenTurns).attach [firstTurn] =
        .ok [firstTurnAttached] ∧
      ∃ t ∈ [firstTurn], ∃ length, Aligned countingTeacher t firstTurnAttached length := by
  have hattach : ((create .t0100 none).runTurns (fun _ => 1) countingTeacher
      rewrittenTurns).attach [firstTurn] = .ok [firstTurnAttached] := by rfl
  exact ⟨hattach, attach_aligned (fun _ => 1) countingTeacher .t0100 none rewrittenTurns
    [firstTurn] [firstTurnAttached] hattach firstTurnAttached List.mem_cons_self⟩

end AdaptiveSession

end Adaptive
