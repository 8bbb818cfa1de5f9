import CodingOpd.Adaptive.Frontier
import CodingOpd.Library.Supersession
import Mathlib.Data.List.ReduceOption

/-!
# Adaptive sessions

An adaptive session scores every turn with the Teacher. `AdaptiveSession.accept` records the
turn's entropy, stops the session at the frontier, and otherwise stores the scored token
sequence. `AdaptiveSession.attach` gives each trajectory of the finished session the Teacher
labels of a stored sequence that agrees with it, cropped to their common part.

## Main definitions

* `AdaptiveSession.accept`, `AdaptiveSession.attach`: as the code computes them
* `AdaptiveSession.acceptAll`: the session after a sequence of calls, and what they returned

## Main results

* `prefixes_acceptAll`: after calls that all returned `True`, the stored sequences are those of
  the calls that no later call extends
* `matching?_eq_some_iff`: the stored sequence `attach` reads is the newest standing one that
  agrees with the trajectory
* `attach_eq_ok_iff`: `attach` treats each trajectory by itself
-/

open Python Supersession

namespace Adaptive

/-- A token id. -/
abbrev Token := ℕ

/-- A scored token sequence: the row at position `i` is the Teacher's label of token `i + 1`,
and the last row is a dummy. -/
structure ScoredPrefix (K : Type) where
  tokens : List Token
  logprobs : List (List (PyFloat K))
  deriving DecidableEq

/-- The extra fields of a Teacher answer that the session reads. -/
structure TeacherFields (K : Type) where
  promptIds : List (List Token)
  promptLogprobs : List (List (PyFloat K))
  opdEntropy : PyFloat K
  opdTop16Mass : PyFloat K

variable {K : Type} [Field K] [LinearOrder K]

structure AdaptiveSession (K : Type) [Field K] [LinearOrder K] where
  algorithm : AdaptiveOPD K
  routingKey : Option String := none
  entropies : List (PyFloat K) := []
  masses : List (PyFloat K) := []
  prefixes : List (ScoredPrefix K) := []
  stopped : Bool := false

/-- A trajectory of the Gateway. Its response mask has one entry for each response token; `E` is
the type of one token's routing record. -/
structure Trajectory (K E : Type) where
  promptIds : List Token
  responseIds : List Token
  responseMask : List ℕ
  responseLogprobs : Option (List (PyFloat K)) := none
  routedExperts : Option (List E) := none
  teacherIds : Option (List (List Token)) := none
  teacherLogprobs : Option (List (List (PyFloat K))) := none
  mask_length : responseMask.length = responseIds.length

namespace Trajectory

variable {E : Type}

/-- `prompt_ids + response_ids`. -/
def tokens (t : Trajectory K E) : List Token := t.promptIds ++ t.responseIds

/-- `any(trajectory.response_mask)`. -/
def masked (t : Trajectory K E) : Bool := t.responseMask.any fun m => m ≠ 0

/-- The trajectory cropped to its first `length` tokens, with the labels of a sequence that
agrees with it so far. -/
def crop (t : Trajectory K E) (length : ℕ) (logprobs : List (List (PyFloat K))) :
    Trajectory K E where
  promptIds := t.promptIds
  responseIds := t.responseIds.take (length - t.promptIds.length)
  responseMask := t.responseMask.take (length - t.promptIds.length)
  responseLogprobs := t.responseLogprobs.map (List.take (length - t.promptIds.length))
  routedExperts := t.routedExperts.map (List.take length)
  teacherIds := some (((t.tokens.take length).drop 1).map (fun token => [token]) ++ [[0]])
  teacherLogprobs := some (logprobs.take (length - 1) ++ [[.finite 0]])
  mask_length := by simp [t.mask_length]

omit [LinearOrder K] in
theorem crop_tokens (t : Trajectory K E) {length : ℕ} (logprobs : List (List (PyFloat K)))
    (hprompt : t.promptIds.length ≤ length) :
    (t.crop length logprobs).tokens = t.tokens.take length := by
  simp [tokens, crop, List.take_append, List.take_of_length_le hprompt]

omit [Field K] [LinearOrder K] in
/-- A trajectory with a mask entry that is not zero has a response. -/
theorem promptIds_lt_of_masked {t : Trajectory K E} (hmasked : t.masked = true) :
    t.promptIds.length < t.tokens.length := by
  obtain ⟨m, hm, -⟩ := List.any_eq_true.mp hmasked
  have hpos := List.length_pos_of_mem hm
  rw [t.mask_length] at hpos
  simp only [tokens, List.length_append]
  omega

end Trajectory

namespace AdaptiveSession

/-- `AdaptiveSession(algorithm, routing_key)`. -/
def create (algorithm : AdaptiveOPD K) (routingKey : Option String) : AdaptiveSession K :=
  { algorithm, routingKey }

/-- `AdaptiveSession.accept`: the answer, and the session afterwards. -/
def accept (session : AdaptiveSession K) (tokens : List Token) (extra : TeacherFields K) :
    Bool × AdaptiveSession K :=
  let entropies := session.entropies ++ [extra.opdEntropy]
  let masses := session.masses ++ [extra.opdTop16Mass]
  let stopped := (session.algorithm.retainedTurns entropies).isSome
  let session := { session with entropies, masses, stopped }
  if stopped then (false, session)
  else
    -- keep only the latest scoring result for each prefix chain
    let kept := session.prefixes.filter fun p => tokens.take p.tokens.length ≠ p.tokens
    (true, { session with prefixes := kept ++ [⟨tokens, extra.promptLogprobs⟩] })

/-- The newest stored sequence that agrees with `tokens`, one of the two being a start of the
other. -/
def matching? (session : AdaptiveSession K) (tokens : List Token) : Option (ScoredPrefix K) :=
  session.prefixes.reverse.find? fun p =>
    tokens.take p.tokens.length = p.tokens ∨ p.tokens.take tokens.length = tokens

variable {E : Type}

/-- The body of the loop of `attach`: nothing for a trajectory that is dropped. -/
def attachOne (session : AdaptiveSession K) (trajectory : Trajectory K E) :
    Except PyError (Option (Trajectory K E)) :=
  if ¬ trajectory.masked then .ok none
  else
    match session.matching? trajectory.tokens with
    | none => .error (.valueError "Adaptive trajectory has no matching Teacher-scored prefix")
    | some scored =>
      let length := min trajectory.tokens.length scored.tokens.length
      -- `response_length <= 0`, on natural numbers
      if length ≤ trajectory.promptIds.length then .ok none
      else .ok (some (trajectory.crop length scored.logprobs))

/-- `AdaptiveSession.attach`. -/
def attach (session : AdaptiveSession K) :
    List (Trajectory K E) → Except PyError (List (Trajectory K E))
  | [] => .ok []
  | trajectory :: rest => do
    let kept ← session.attachOne trajectory
    let retained ← session.attach rest
    return kept.toList ++ retained

/-- The session after a sequence of `accept` calls, and what each call returned. -/
def acceptAll (session : AdaptiveSession K) :
    List (List Token × TeacherFields K) → List Bool × AdaptiveSession K
  | [] => ([], session)
  | (tokens, extra) :: calls =>
    let (answer, next) := session.accept tokens extra
    let (answers, last) := next.acceptAll calls
    (answer :: answers, last)

/-- One scored sequence extends another. -/
def Extends (p q : ScoredPrefix K) : Prop := p.tokens <+: q.tokens

instance : DecidableRel (Extends (K := K)) := fun p q =>
  inferInstanceAs (Decidable (p.tokens <+: q.tokens))

/-- Two token sequences agree when one of them starts with the other. -/
def Agree (tokens tokens' : List Token) : Prop := tokens' <+: tokens ∨ tokens <+: tokens'

instance (tokens tokens' : List Token) : Decidable (Agree tokens tokens') :=
  inferInstanceAs (Decidable (_ ∨ _))

/-! ### One call -/

@[simp] theorem accept_algorithm (session : AdaptiveSession K) (tokens : List Token)
    (extra : TeacherFields K) : (session.accept tokens extra).2.algorithm = session.algorithm := by
  simp only [accept]
  split <;> rfl

@[simp] theorem accept_entropies (session : AdaptiveSession K) (tokens : List Token)
    (extra : TeacherFields K) :
    (session.accept tokens extra).2.entropies = session.entropies ++ [extra.opdEntropy] := by
  simp only [accept]
  split <;> rfl

@[simp] theorem accept_masses (session : AdaptiveSession K) (tokens : List Token)
    (extra : TeacherFields K) :
    (session.accept tokens extra).2.masses = session.masses ++ [extra.opdTop16Mass] := by
  simp only [accept]
  split <;> rfl

/-- A call returns `False` when the entropies, its own included, have a frontier. -/
theorem accept_eq_false_iff (session : AdaptiveSession K) (tokens : List Token)
    (extra : TeacherFields K) :
    (session.accept tokens extra).1 = false ↔
      ∃ n, session.algorithm.retainedTurns (session.entropies ++ [extra.opdEntropy]) = some n := by
  rw [← Option.isSome_iff_exists]
  simp only [accept]
  split <;> simp_all

/-- A call that returns `False` stores nothing. -/
theorem accept_prefixes_of_false {session : AdaptiveSession K} {tokens : List Token}
    {extra : TeacherFields K} (hanswer : (session.accept tokens extra).1 = false) :
    (session.accept tokens extra).2.prefixes = session.prefixes := by
  simp only [accept] at hanswer ⊢
  split at hanswer
  · rename_i hstop
    rw [if_pos hstop]
  · cases hanswer

/-- A call that returns `True` records its sequence over those it extends. -/
theorem accept_prefixes_of_true {session : AdaptiveSession K} {tokens : List Token}
    {extra : TeacherFields K} (hanswer : (session.accept tokens extra).1 = true) :
    (session.accept tokens extra).2.prefixes =
      record Extends session.prefixes ⟨tokens, extra.promptLogprobs⟩ := by
  simp only [accept] at hanswer ⊢
  split at hanswer
  · cases hanswer
  · rename_i hstop
    rw [if_neg hstop, record]
    simp only [Extends, List.prefix_iff_eq_take, eq_comm, ne_eq]

/-! ### A sequence of calls -/

/-- The record a call stores. -/
def scored (call : List Token × TeacherFields K) : ScoredPrefix K :=
  ⟨call.1, call.2.promptLogprobs⟩

@[simp] theorem acceptAll_cons (session : AdaptiveSession K) (call : List Token × TeacherFields K)
    (calls : List (List Token × TeacherFields K)) :
    session.acceptAll (call :: calls) =
      ((session.accept call.1 call.2).1 :: ((session.accept call.1 call.2).2.acceptAll calls).1,
        ((session.accept call.1 call.2).2.acceptAll calls).2) := rfl

/-- **The stored sequences**: after calls that all returned `True`, those of the calls that no
later call extends, recorded over what the session stored before. -/
theorem prefixes_acceptAll {session : AdaptiveSession K}
    {calls : List (List Token × TeacherFields K)}
    (haccepted : ∀ answer ∈ (session.acceptAll calls).1, answer = true) :
    (session.acceptAll calls).2.prefixes =
      (calls.map scored).foldl (record Extends) session.prefixes := by
  induction calls generalizing session with
  | nil => rfl
  | cons call calls ih =>
    rw [acceptAll_cons, List.forall_mem_cons] at haccepted
    rw [acceptAll_cons, ih haccepted.2, accept_prefixes_of_true haccepted.1]
    rfl

/-- **The sequence that `attach` reads** is, of the accepted ones, the newest that no later one
extends among those that agree with the trajectory. -/
theorem matching?_acceptAll_iff {session : AdaptiveSession K} (hfresh : session.prefixes = [])
    {calls : List (List Token × TeacherFields K)}
    (haccepted : ∀ answer ∈ (session.acceptAll calls).1, answer = true)
    {tokens : List Token} {p : ScoredPrefix K} :
    (session.acceptAll calls).2.matching? tokens = some p ↔
      NewestStanding Extends (fun q => Agree tokens q.tokens) (calls.map scored) p := by
  rw [matching?, prefixes_acceptAll haccepted, hfresh, foldl_record_nil, ← find?_survivors_iff]
  simp only [Agree, List.prefix_iff_eq_take, eq_comm]

/-! ### Attaching the labels -/

theorem mem_and_agree_of_matching? {session : AdaptiveSession K} {tokens : List Token}
    {p : ScoredPrefix K} (h : session.matching? tokens = some p) :
    p ∈ session.prefixes ∧ Agree tokens p.tokens := by
  refine ⟨List.mem_reverse.mp (List.mem_of_find?_eq_some h), ?_⟩
  have hfound := List.find?_some h
  rw [decide_eq_true_eq] at hfound
  exact hfound.imp (fun h => List.prefix_iff_eq_take.mpr h.symm)
    fun h => List.prefix_iff_eq_take.mpr h.symm

/-- Sequences that agree are the same up to the end of the shorter one. -/
theorem Agree.take_eq {tokens tokens' : List Token} (h : Agree tokens tokens') {n : ℕ}
    (hn : n ≤ min tokens.length tokens'.length) : tokens.take n = tokens'.take n := by
  have shorter : ∀ {s l : List Token}, s <+: l → n ≤ s.length → l.take n = s.take n := by
    rintro s l ⟨rest, rfl⟩ hs
    exact List.take_append_of_le_length hs
  rcases h with h | h
  · exact shorter h (by omega)
  · exact (shorter h (by omega)).symm

theorem attachOne_eq_ok_some_iff {session : AdaptiveSession K} {t t' : Trajectory K E} :
    session.attachOne t = .ok (some t') ↔
      t.masked = true ∧ ∃ p, session.matching? t.tokens = some p ∧
        t.promptIds.length < min t.tokens.length p.tokens.length ∧
        t' = t.crop (min t.tokens.length p.tokens.length) p.logprobs := by
  unfold attachOne
  by_cases hmasked : t.masked = true
  · cases hmatching : session.matching? t.tokens with
    | none => simp [hmasked]
    | some p =>
      by_cases hshort : min t.tokens.length p.tokens.length ≤ t.promptIds.length
      · simp [-lt_inf_iff, hmasked, hshort, Nat.not_lt_of_le hshort]
      · simp [-lt_inf_iff, hmasked, hshort, Nat.lt_of_not_le hshort, eq_comm]
  · simp [hmasked]

theorem attachOne_of_not_masked {session : AdaptiveSession K} {t : Trajectory K E}
    (hmasked : t.masked = false) : session.attachOne t = .ok none := by
  simp [attachOne, hmasked]

/-- **`attach` treats each trajectory by itself** and retains what is not dropped. -/
theorem attach_eq_ok_iff {session : AdaptiveSession K} {ts out : List (Trajectory K E)} :
    session.attach ts = .ok out ↔
      ∃ kept, List.Forall₂ (fun t k => session.attachOne t = .ok k) ts kept ∧
        out = kept.reduceOption := by
  induction ts generalizing out with
  | nil => simp [attach, eq_comm]
  | cons t ts ih =>
    have unfolded : session.attach (t :: ts) =
        (session.attachOne t).bind fun k => (session.attach ts).map (k.toList ++ ·) := by
      simp only [attach]
      cases session.attachOne t <;> cases session.attach ts <;> rfl
    rw [unfolded]
    constructor
    · intro h
      cases hone : session.attachOne t with
      | error e => simp [hone, Except.bind] at h
      | ok k =>
        cases hrest : session.attach ts with
        | error e => simp [hone, hrest, Except.bind, Except.map] at h
        | ok retained =>
          obtain ⟨kept, hkept, rfl⟩ := ih.mp hrest
          refine ⟨k :: kept, List.Forall₂.cons hone hkept, ?_⟩
          simp only [hone, hrest, Except.bind, Except.map, Except.ok.injEq] at h
          rw [← h]
          cases k <;> simp
    · rintro ⟨kept, hkept, rfl⟩
      obtain ⟨k, kept', hone, hrest, rfl⟩ := List.forall₂_cons_left_iff.mp hkept
      rw [hone, ih.mpr ⟨kept', hrest, rfl⟩]
      cases k <;> simp [Except.bind, Except.map]

/-- All the trajectories with a non-zero mask are retained, each one related to its cropped
version by `R`, exactly when that holds of each of them by itself. -/
theorem attach_forall₂_iff {session : AdaptiveSession K} {ts : List (Trajectory K E)}
    {R : Trajectory K E → Trajectory K E → Prop} :
    (∃ out, session.attach ts = .ok out ∧ List.Forall₂ R (ts.filter (·.masked)) out) ↔
      ∀ t ∈ ts, t.masked = true → ∃ t', session.attachOne t = .ok (some t') ∧ R t t' := by
  simp only [attach_eq_ok_iff]
  constructor
  · rintro ⟨_, ⟨kept, hkept, rfl⟩, hforall⟩
    induction hkept with
    | nil => simp
    | @cons t k ts kept hone hrest ih =>
      have bound : ∀ {ts : List (Trajectory K E)} {kept},
          List.Forall₂ (fun t k => session.attachOne t = .ok k) ts kept →
          kept.reduceOption.length ≤ (ts.filter (·.masked)).length := by
        intro ts kept h
        induction h with
        | nil => simp
        | @cons t k ts kept hone _ ih =>
          cases k with
          | none =>
            rw [List.reduceOption_cons_of_none]
            exact ih.trans ((List.sublist_cons_self t ts).filter _).length_le
          | some t' =>
            have hmasked := (attachOne_eq_ok_some_iff.mp hone).1
            simpa [hmasked] using ih
      rw [List.forall_mem_cons]
      cases k with
      | none =>
        by_cases hmasked : t.masked = true
        · have hlength := hforall.length_eq
          have hle := bound hrest
          simp [hmasked] at hlength
          omega
        · refine ⟨fun h => absurd h hmasked, ih ?_⟩
          simpa [hmasked] using hforall
      | some t' =>
        have hmasked := (attachOne_eq_ok_some_iff.mp hone).1
        simp only [hmasked, List.filter_cons_of_pos, List.reduceOption_cons_of_some,
          List.forall₂_cons] at hforall
        exact ⟨fun _ => ⟨t', hone, hforall.1⟩, ih hforall.2⟩
  · intro h
    induction ts with
    | nil => exact ⟨[], ⟨[], List.Forall₂.nil, rfl⟩, List.Forall₂.nil⟩
    | cons t ts ih =>
      rw [List.forall_mem_cons] at h
      obtain ⟨_, ⟨kept, hkept, rfl⟩, hforall⟩ := ih h.2
      by_cases hmasked : t.masked = true
      · obtain ⟨t', hone, hR⟩ := h.1 hmasked
        refine ⟨_, ⟨some t' :: kept, List.Forall₂.cons hone hkept, rfl⟩, ?_⟩
        simpa [hmasked] using ⟨hR, hforall⟩
      · refine ⟨_, ⟨none :: kept, List.Forall₂.cons
          (attachOne_of_not_masked (by simpa using hmasked)) hkept, rfl⟩, ?_⟩
        simpa [hmasked] using hforall

end AdaptiveSession

end Adaptive
