import CodingOpd.Adaptive.Session

/-!
# Which scored tokens `attach` keeps

Every accepted sequence is the start of a stored one, so the store holds a label for every
scored token. Whether `attach` finds that label depends on the order of the accepted sequences:
it reads the newest stored sequence that agrees with the whole trajectory, or with which the
whole trajectory agrees.

## Main definitions

* `Scores`: an accepted sequence scores response tokens of a trajectory
* `KeepsScored`: every scored token of every trajectory is kept
* `Covered`: the sequence `attach` reads reaches as far as every sequence that scores it

## Main results

* `exists_stored_extension`: every accepted sequence is the start of a stored one
* `keepsScored_iff_covered`: the scored tokens are kept exactly when the trajectories are
  covered
* `not_keepsScored_of_rollback`: after a rolled back turn they are not
-/

open Python Supersession

namespace Adaptive

namespace AdaptiveSession

variable {K E : Type} [Field K] [LinearOrder K]

/-- **Every accepted sequence is the start of a stored one.** -/
theorem exists_stored_extension {session : AdaptiveSession K} (hfresh : session.prefixes = [])
    {calls : List (List Token × TeacherFields K)}
    (haccepted : ∀ answer ∈ (session.acceptAll calls).1, answer = true)
    {call : List Token × TeacherFields K} (hcall : call ∈ calls) :
    ∃ p ∈ (session.acceptAll calls).2.prefixes, call.1 <+: p.tokens := by
  rw [prefixes_acceptAll haccepted, hfresh, foldl_record_nil]
  obtain ⟨p, hp, hextends⟩ := exists_survivor Extends (fun _ _ _ => List.IsPrefix.trans)
    (List.mem_map_of_mem (f := scored) hcall)
  refine ⟨p, hp, ?_⟩
  rcases hextends with rfl | hextends
  · exact List.prefix_rfl
  · exact hextends

/-- An accepted sequence scores response tokens of the trajectory: the trajectory starts with
it beyond the prompt, or the whole trajectory is a start of it. -/
def Scores (t : Trajectory K E) (accepted : List Token) : Prop :=
  (t.promptIds.length < accepted.length ∧ accepted <+: t.tokens) ∨ t.tokens <+: accepted

/-- `t'` is `t` cropped no shorter than the sequences of `history` that score it. -/
def Keeps (history : List (List Token)) (t t' : Trajectory K E) : Prop :=
  t'.promptIds = t.promptIds ∧ t'.tokens <+: t.tokens ∧
    ∀ accepted ∈ history,
      (t.promptIds.length < accepted.length → accepted <+: t.tokens → accepted <+: t'.tokens) ∧
      (t.tokens <+: accepted → t'.tokens = t.tokens)

/-- `attach` does not raise, retains the trajectories with a non-zero mask, and keeps their
scored tokens. -/
def KeepsScored (session : AdaptiveSession K) (history : List (List Token))
    (ts : List (Trajectory K E)) : Prop :=
  ∃ out, session.attach ts = .ok out ∧ List.Forall₂ (Keeps history) (ts.filter (·.masked)) out

/-- Of the accepted sequences that no later one extends, the last that agrees with the
trajectory reaches as far into it as every sequence that scores it. -/
def Covered (history : List (List Token)) (t : Trajectory K E) : Prop :=
  ∃ last, NewestStanding (· <+: ·) (fun accepted => Agree t.tokens accepted) history last ∧
    ∀ accepted ∈ history, Scores t accepted →
      min accepted.length t.tokens.length ≤ last.length

omit [Field K] [LinearOrder K] in
/-- The sequence `attach` reads, in terms of the accepted token sequences. -/
theorem newestStanding_tokens_iff {calls : List (List Token × TeacherFields K)}
    {tokens last : List Token} :
    NewestStanding (· <+: ·) (fun accepted => Agree tokens accepted) (calls.map Prod.fst) last ↔
      ∃ p, NewestStanding Extends (fun q => Agree tokens q.tokens) (calls.map scored) p ∧
        p.tokens = last := by
  have hmap : calls.map Prod.fst = (calls.map scored).map ScoredPrefix.tokens := by
    simp [scored, Function.comp_def]
  rw [hmap, newestStanding_map]
  rfl

section

variable {session : AdaptiveSession K} {calls : List (List Token × TeacherFields K)}
  {t : Trajectory K E}

omit [LinearOrder K] in
/-- What `attach` reads is a start of the trajectory or starts with it, so the cropped
trajectory has as many tokens as both. -/
theorem length_crop_tokens {p : ScoredPrefix K}
    (hprompt : t.promptIds.length ≤ min t.tokens.length p.tokens.length) :
    (t.crop (min t.tokens.length p.tokens.length) p.logprobs).tokens.length =
      min t.tokens.length p.tokens.length := by
  rw [t.crop_tokens _ hprompt, List.length_take]
  omega

/-- One trajectory with a scored token is retained with all of them exactly when it is
covered. -/
theorem attachOne_keeps_iff (hfresh : session.prefixes = [])
    (haccepted : ∀ answer ∈ (session.acceptAll calls).1, answer = true)
    (hmasked : t.masked = true) (hscored : ∃ accepted ∈ calls.map Prod.fst, Scores t accepted) :
    (∃ t', (session.acceptAll calls).2.attachOne t = .ok (some t') ∧
        Keeps (calls.map Prod.fst) t t') ↔
      Covered (calls.map Prod.fst) t := by
  have hresponse := Trajectory.promptIds_lt_of_masked hmasked
  simp only [attachOne_eq_ok_some_iff, hmasked, true_and, matching?_acceptAll_iff hfresh haccepted,
    Covered, newestStanding_tokens_iff]
  constructor
  · -- what is kept is a crop, no longer than the newest prefix that matches
    rintro ⟨_, ⟨p, hp, hlength, rfl⟩, -, -, hkeeps⟩
    refine ⟨p.tokens, ⟨p, hp, rfl⟩, ?_⟩
    intro accepted hmem hscores
    have hcropped := length_crop_tokens hlength.le
    rcases hscores with ⟨hbeyond, hstart⟩ | hstart
    · have hle := ((hkeeps accepted hmem).1 hbeyond hstart).length_le
      omega
    · have heq := (hkeeps accepted hmem).2 hstart
      rw [heq] at hcropped
      omega
  · rintro ⟨_, ⟨p, hp, rfl⟩, hreach⟩
    have hlength : t.promptIds.length < min t.tokens.length p.tokens.length := by
      obtain ⟨accepted, hmem, hscores⟩ := hscored
      have hle := hreach accepted hmem hscores
      rcases hscores with ⟨hbeyond, hstart⟩ | hstart
      · have := hstart.length_le
        omega
      · have := hstart.length_le
        omega
    refine ⟨_, ⟨p, hp, hlength, rfl⟩, rfl, ?_, ?_⟩
    · rw [t.crop_tokens _ hlength.le]
      exact List.take_prefix _ _
    · intro accepted hmem
      rw [t.crop_tokens _ hlength.le]
      constructor
      · intro hbeyond hstart
        have hle := hreach accepted hmem (Or.inl ⟨hbeyond, hstart⟩)
        have := hstart.length_le
        exact List.prefix_take_iff.mpr ⟨hstart, by omega⟩
      · intro hstart
        have hle := hreach accepted hmem (Or.inr hstart)
        have := hstart.length_le
        exact List.take_of_length_le (by omega)

end

/-- **When the scored tokens are kept.** After a session's accepted calls, and for trajectories
whose tokens some accepted sequence scores, `attach` succeeds and keeps every scored token
exactly when each trajectory is covered. -/
theorem keepsScored_iff_covered (algorithm : AdaptiveOPD K) (routingKey : Option String)
    (calls : List (List Token × TeacherFields K))
    (haccepted : ∀ answer ∈ ((create algorithm routingKey).acceptAll calls).1, answer = true)
    (ts : List (Trajectory K E))
    (hscored : ∀ t ∈ ts, t.masked = true → ∃ accepted ∈ calls.map Prod.fst, Scores t accepted) :
    KeepsScored ((create algorithm routingKey).acceptAll calls).2 (calls.map Prod.fst) ts ↔
      ∀ t ∈ ts, t.masked = true → Covered (calls.map Prod.fst) t := by
  unfold KeepsScored
  rw [attach_forall₂_iff]
  refine forall₂_congr fun t ht => forall_congr' fun hmasked => ?_
  exact attachOne_keeps_iff rfl haccepted hmasked (hscored t ht hmasked)

section Examples

/-- A call that accepts `tokens`, with Teacher labels that are their negated ids. -/
def sampleCall (tokens : List Token) : List Token × TeacherFields ℚ :=
  (tokens,
    { promptIds := (tokens.drop 1).map (fun token => [token]) ++ [[0]]
      promptLogprobs := (tokens.drop 1).map (fun token => [.finite (-token)]) ++ [[.finite 0]]
      opdEntropy := .finite (1 / 5)
      opdTop16Mass := .finite (9 / 10) })

def sampleTrajectory (promptIds responseIds : List Token) : Trajectory ℚ Unit where
  promptIds := promptIds
  responseIds := responseIds
  responseMask := responseIds.map fun _ => 1
  mask_length := List.length_map _

/-- The accepted histories of a session that extends its conversation, rewrites it, and whose
trajectory was split at the second turn. -/
theorem keepsScored_of_fragmented :
    KeepsScored
      ((create .t0100 none).acceptAll
        ([[1, 2, 3, 4], [1, 2, 3, 4, 5, 6], [1, 2, 7, 8]].map sampleCall)).2
      [[1, 2, 3, 4], [1, 2, 3, 4, 5, 6], [1, 2, 7, 8]]
      [sampleTrajectory [1, 2, 3, 4, 5] [6]] :=
  (keepsScored_iff_covered .t0100 none
      ([[1, 2, 3, 4], [1, 2, 3, 4, 5, 6], [1, 2, 7, 8]].map sampleCall) (by decide)
      [sampleTrajectory [1, 2, 3, 4, 5] [6]] (by
        simp only [List.forall_mem_singleton]
        intro _
        exact ⟨[1, 2, 3, 4, 5, 6], by decide, Or.inr (by decide)⟩)).mpr (by
    simp only [List.forall_mem_singleton]
    intro _
    refine ⟨[1, 2, 3, 4, 5, 6], (find?_survivors_iff (· <+: ·) _).mp (by decide), ?_⟩
    intro accepted _ _
    exact (min_le_right _ _).trans (by decide))

/-- **A rolled back turn and a shortened history lose scored tokens.** In the first session the
second turn is rolled back and replaced, and the trajectory that starts with the first turn is
rejected. In the second one the history was shortened last, and the longer first turn is cropped
to it. -/
theorem not_keepsScored_of_rollback :
    (let calls := [[10, 11], [10, 11, 20, 12]].map sampleCall
     (∀ answer ∈ ((create .t0100 none).acceptAll calls).1, answer = true) ∧
      Scores (sampleTrajectory [10] [11, 21]) [10, 11] ∧
      ¬ KeepsScored ((create .t0100 none).acceptAll calls).2 (calls.map Prod.fst)
        [sampleTrajectory [10] [11, 21]]) ∧
    (let calls := [[10, 11, 12], [10, 11]].map sampleCall
     (∀ answer ∈ ((create .t0100 none).acceptAll calls).1, answer = true) ∧
      Scores (sampleTrajectory [10] [11, 12]) [10, 11, 12] ∧
      ¬ KeepsScored ((create .t0100 none).acceptAll calls).2 (calls.map Prod.fst)
        [sampleTrajectory [10] [11, 12]]) := by
  refine ⟨⟨by decide, Or.inl (by decide), ?_⟩, ⟨by decide, Or.inl (by decide), ?_⟩⟩
  · rintro ⟨out, hout, -⟩
    cases hout
  · rintro ⟨out, hout, hkept⟩
    cases hout
    have hkeeps := (List.forall₂_cons.mp hkept).1
    have hstart := (hkeeps.2.2 [10, 11, 12] (by decide)).1 (by decide) (by decide)
    exact absurd hstart (by decide)

end Examples

end AdaptiveSession

end Adaptive
