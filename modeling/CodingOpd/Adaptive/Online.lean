import CodingOpd.Adaptive.Session

/-!
# Online stopping and the offline frontier

`AdaptiveSession.accept` reruns the frontier rule on the growing list of entropies at every
turn. The rule being causal, the turn at which the session stops is the frontier that the rule
finds on any list that extends the entropies through that turn.

## Main definitions

* `Triggers`: a turn of a stream of entropies at which three-turn means drift by the threshold
* `sessionAt`, `answerAt`: the session before a turn of a stream of calls, and its answer

## Main results

* `frontierAt_iff_triggers`: the rule's frontier on any list that extends the stream
* `accept_stops_at_frontier`: the session stops at the first trigger, for good, and the turns
  accepted before it are those the offline rule retains
-/

open Python

namespace Adaptive

variable {K : Type} [Field K] [LinearOrder K]

/-- The three-turn mean that ends with `turn`, later than the third turn, exceeds the mean of the
first three turns by at least the threshold; all the entropies involved are finite. -/
def Triggers (threshold : K) (entropies : ℕ → PyFloat K) (turn : ℕ) : Prop :=
  3 ≤ turn ∧ ∃ a b c x y z : K,
    entropies 0 = .finite a ∧ entropies 1 = .finite b ∧ entropies 2 = .finite c ∧
    entropies (turn - 2) = .finite x ∧ entropies (turn - 1) = .finite y ∧
    entropies turn = .finite z ∧ threshold ≤ (x + y + z) / 3 - (a + b + c) / 3

/-- The list agrees with the stream through `turn`. -/
def ExtendsThrough (entropies : List (PyFloat K)) (stream : ℕ → PyFloat K) (turn : ℕ) : Prop :=
  ∀ i ≤ turn, entropies[i]? = some (stream i)

omit [Field K] [LinearOrder K] in
theorem ExtendsThrough.window_eq {entropies : List (PyFloat K)} {stream : ℕ → PyFloat K}
    {turn k : ℕ} (h : ExtendsThrough entropies stream turn) (hk : k + 2 ≤ turn) :
    (entropies.take (k + 3)).drop k = [stream k, stream (k + 1), stream (k + 2)] := by
  apply List.ext_getElem?
  intro i
  rw [List.getElem?_drop, List.getElem?_take]
  match i with
  | 0 => simpa using h k (by omega)
  | 1 => simpa using h (k + 1) (by omega)
  | 2 => simpa using h (k + 2) (by omega)
  | i + 3 => simp

omit [Field K] [LinearOrder K] in
theorem exists_of_map_finite {xs : List K} {u v w : PyFloat K}
    (h : xs.map .finite = [u, v, w]) :
    ∃ x y z, xs = [x, y, z] ∧ u = .finite x ∧ v = .finite y ∧ w = .finite z := by
  obtain ⟨x, ys, rfl, rfl, hys⟩ := List.map_eq_cons_iff.mp h
  obtain ⟨y, zs, rfl, rfl, hzs⟩ := List.map_eq_cons_iff.mp hys
  obtain ⟨z, rest, rfl, rfl, hrest⟩ := List.map_eq_cons_iff.mp hzs
  rw [List.map_eq_nil_iff] at hrest
  exact ⟨x, y, z, by rw [hrest], rfl, rfl, rfl⟩

section

variable [IsStrictOrderedRing K]

/-- **The rule's frontier** on a list that extends the stream through a turn is a trigger of the
stream at that turn. -/
theorem frontierAt_iff_triggers {threshold : K} (hthreshold : 0 < threshold)
    {entropies : List (PyFloat K)} {stream : ℕ → PyFloat K} {turn : ℕ}
    (h : ExtendsThrough entropies stream turn) :
    (AdaptiveOPD.ofThreshold threshold hthreshold).FrontierAt entropies turn ↔
      Triggers threshold stream turn := by
  have hlt : turn < entropies.length := (List.getElem?_eq_some_iff.mp (h turn le_rfl)).1
  -- the average drift is the difference of the two means
  have drift : ∀ a b c x y z : K,
      ([x, y, z].map fun v => v - [a, b, c].sum / ((3 : ℕ) : K)).sum / ((3 : ℕ) : K) =
        (x + y + z) / 3 - (a + b + c) / 3 := by
    intro a b c x y z
    simp only [List.map_cons, List.map_nil, List.sum_cons, List.sum_nil, Nat.cast_ofNat]
    ring
  have hfirst : (AdaptiveOPD.ofThreshold threshold hthreshold).firstTurn = 3 := rfl
  unfold AdaptiveOPD.FrontierAt Triggers AdaptiveOPD.window
  rw [hfirst]
  constructor
  · rintro ⟨hturn, -, baseline, values, hbaseline, hvalues, hdrift⟩
    obtain ⟨k, rfl⟩ : ∃ k, turn = k + 2 := ⟨turn - 2, by omega⟩
    have hk : k + 2 + 1 - 3 = k := by omega
    simp only [AdaptiveOPD.ofThreshold, hk] at hbaseline hvalues hdrift
    have hfirsts := h.window_eq (k := 0) (by omega)
    rw [Nat.zero_add, List.drop_zero, hbaseline] at hfirsts
    rw [h.window_eq le_rfl] at hvalues
    obtain ⟨a, b, c, rfl, ha, hb, hc⟩ := exists_of_map_finite hfirsts
    obtain ⟨x, y, z, rfl, hx, hy, hz⟩ := exists_of_map_finite hvalues.symm
    rw [drift] at hdrift
    exact ⟨hturn, a, b, c, x, y, z, ha, hb, hc, hx, hy, hz, hdrift⟩
  · rintro ⟨hturn, a, b, c, x, y, z, ha, hb, hc, hx, hy, hz, hdrift⟩
    obtain ⟨k, rfl⟩ : ∃ k, turn = k + 2 := ⟨turn - 2, by omega⟩
    have hk : k + 2 + 1 - 3 = k := by omega
    refine ⟨hturn, hlt, [a, b, c], [x, y, z], ?_, ?_, ?_⟩
    · have hfirsts := h.window_eq (k := 0) (by omega)
      rw [Nat.zero_add, List.drop_zero] at hfirsts
      simpa [AdaptiveOPD.ofThreshold, ha, hb, hc] using hfirsts
    · simp only [AdaptiveOPD.ofThreshold, hk]
      rw [h.window_eq le_rfl]
      simp only [Nat.add_sub_cancel] at hx
      have hy' : stream (k + 1) = .finite y := hy
      simp [hx, hy', hz]
    · simp only [AdaptiveOPD.ofThreshold]
      rw [drift]
      exact hdrift

end

namespace AdaptiveSession

/-- The session before call `n` of a stream of `accept` calls. -/
def sessionAt (session : AdaptiveSession K) (calls : ℕ → List Token × TeacherFields K) :
    ℕ → AdaptiveSession K
  | 0 => session
  | n + 1 => ((sessionAt session calls n).accept (calls n).1 (calls n).2).2

/-- The answer of call `n`. -/
def answerAt (session : AdaptiveSession K) (calls : ℕ → List Token × TeacherFields K) (n : ℕ) :
    Bool :=
  ((session.sessionAt calls n).accept (calls n).1 (calls n).2).1

/-- The entropies of a stream of calls. -/
def entropyStream (calls : ℕ → List Token × TeacherFields K) (n : ℕ) : PyFloat K :=
  (calls n).2.opdEntropy

variable {session : AdaptiveSession K} {calls : ℕ → List Token × TeacherFields K}

@[simp] theorem sessionAt_algorithm (n : ℕ) :
    (session.sessionAt calls n).algorithm = session.algorithm := by
  induction n with
  | zero => rfl
  | succ n ih => rw [sessionAt, accept_algorithm, ih]

theorem sessionAt_entropies (hfresh : session.entropies = []) (n : ℕ) :
    (session.sessionAt calls n).entropies = (List.range n).map (entropyStream calls) := by
  induction n with
  | zero => exact hfresh
  | succ n ih =>
    rw [sessionAt, accept_entropies, ih, List.range_succ, List.map_append]
    rfl

omit [Field K] [LinearOrder K] in
theorem extendsThrough_range (stream : ℕ → PyFloat K) {turn n : ℕ} (h : turn ≤ n) :
    ExtendsThrough ((List.range (n + 1)).map stream) stream turn := by
  intro i hi
  rw [List.getElem?_map, List.getElem?_range (by omega)]
  rfl

variable [IsStrictOrderedRing K]

/-- A call returns `False` when some turn so far, its own included, triggers. -/
theorem answerAt_eq_false_iff {threshold : K} (hthreshold : 0 < threshold)
    (hrule : session.algorithm = .ofThreshold threshold hthreshold)
    (hfresh : session.entropies = []) (n : ℕ) :
    session.answerAt calls n = false ↔
      ∃ turn ≤ n, Triggers threshold (entropyStream calls) turn := by
  have hentropies : (session.sessionAt calls n).entropies ++ [(calls n).2.opdEntropy] =
      (List.range (n + 1)).map (entropyStream calls) := by
    rw [sessionAt_entropies hfresh, List.range_succ, List.map_append]
    rfl
  rw [answerAt, accept_eq_false_iff, hentropies, sessionAt_algorithm, hrule,
    AdaptiveOPD.exists_retainedTurns_iff]
  constructor
  · rintro ⟨turn, hfrontier⟩
    have hle : turn ≤ n := by
      have := hfrontier.2.1
      simp only [List.length_map, List.length_range] at this
      omega
    exact ⟨turn, hle,
      (frontierAt_iff_triggers hthreshold (extendsThrough_range _ hle)).mp hfrontier⟩
  · rintro ⟨turn, hle, htriggers⟩
    exact ⟨turn, (frontierAt_iff_triggers hthreshold (extendsThrough_range _ hle)).mpr htriggers⟩

omit [IsStrictOrderedRing K] in
/-- After a call that returned `False`, no call changes the stored sequences. -/
theorem sessionAt_prefixes_of_stopped {t : ℕ}
    (hstopped : ∀ n, t ≤ n → session.answerAt calls n = false) (n : ℕ) (hn : t ≤ n) :
    (session.sessionAt calls n).prefixes = (session.sessionAt calls t).prefixes := by
  induction n, hn using Nat.le_induction with
  | base => rfl
  | succ n hn ih =>
    rw [sessionAt, accept_prefixes_of_false (hstopped n hn), ih]

/-- The offline rule on a list that extends the stream through its first trigger. -/
theorem retainedTurns_of_first_trigger {threshold : K} (hthreshold : 0 < threshold)
    {stream : ℕ → PyFloat K} {t : ℕ} (htriggers : Triggers threshold stream t)
    (hfirst : ∀ earlier < t, ¬ Triggers threshold stream earlier)
    {entropies : List (PyFloat K)} (hextends : ExtendsThrough entropies stream t) :
    (AdaptiveOPD.ofThreshold threshold hthreshold).retainedTurns entropies = some t := by
  rw [AdaptiveOPD.retainedTurns_eq_some_iff]
  refine ⟨t, (frontierAt_iff_triggers hthreshold hextends).mpr htriggers, ?_, ?_⟩
  · intro earlier hlt hfrontier
    have hextends' : ExtendsThrough entropies stream earlier :=
      fun i hi => hextends i (hi.trans hlt.le)
    exact hfirst earlier hlt ((frontierAt_iff_triggers hthreshold hextends').mp hfrontier)
  · exact max_eq_right htriggers.1

/-- **Online stopping is the offline frontier.** At the first trigger of the stream the session
returns `False`, and at every later call, with the stored sequences unchanged; the calls accepted
before it are as many as the offline rule retains of any list that extends the stream through
that turn. A stream without a trigger is accepted for ever. -/
theorem accept_stops_at_frontier (threshold : K) (hthreshold : 0 < threshold)
    (routingKey : Option String) (calls : ℕ → List Token × TeacherFields K) :
    (∀ t, Triggers threshold (entropyStream calls) t →
      (∀ earlier < t, ¬ Triggers threshold (entropyStream calls) earlier) →
      (∀ n, (create (.ofThreshold threshold hthreshold) routingKey).answerAt calls n = true ↔
        n < t) ∧
      (∀ n, t ≤ n →
        ((create (.ofThreshold threshold hthreshold) routingKey).sessionAt calls n).prefixes =
          ((create (.ofThreshold threshold hthreshold) routingKey).sessionAt calls t).prefixes) ∧
      ∀ entropies, ExtendsThrough entropies (entropyStream calls) t →
        (AdaptiveOPD.ofThreshold threshold hthreshold).retainedTurns entropies =
          some ((List.range t).countP
            ((create (.ofThreshold threshold hthreshold) routingKey).answerAt calls))) ∧
    ((∀ t, ¬ Triggers threshold (entropyStream calls) t) →
      ∀ n, (create (.ofThreshold threshold hthreshold) routingKey).answerAt calls n = true) := by
  set session := create (.ofThreshold threshold hthreshold) routingKey with hsession
  have stops : ∀ n, session.answerAt calls n = false ↔
      ∃ turn ≤ n, Triggers threshold (entropyStream calls) turn :=
    answerAt_eq_false_iff hthreshold rfl rfl
  refine ⟨fun t htriggers hfirst => ?_, fun hnever n => ?_⟩
  · have answers : ∀ n, session.answerAt calls n = true ↔ n < t := by
      intro n
      rw [← Bool.not_eq_false, stops n]
      constructor
      · intro hnone
        by_contra hle
        exact hnone ⟨t, Nat.le_of_not_lt hle, htriggers⟩
      · rintro hlt ⟨earlier, hle, hearlier⟩
        exact hfirst earlier (hle.trans_lt hlt) hearlier
    refine ⟨answers, ?_, ?_⟩
    · refine sessionAt_prefixes_of_stopped fun n hn => ?_
      rw [← Bool.not_eq_true, answers n]
      exact Nat.not_lt_of_le hn
    · intro entropies hextends
      have hcount : (List.range t).countP (session.answerAt calls) = t := by
        rw [List.countP_eq_length.mpr fun n hn => (answers n).mpr (List.mem_range.mp hn),
          List.length_range]
      rw [hcount]
      exact retainedTurns_of_first_trigger hthreshold htriggers hfirst hextends
  · rw [← Bool.not_eq_false, stops n]
    rintro ⟨t, -, htriggers⟩
    exact hnever t htriggers

/-- A stream of calls whose entropies drift past the default threshold at turn five. -/
def driftingCalls (n : ℕ) : List Token × TeacherFields ℚ :=
  ([n], { promptIds := [[0]]
          promptLogprobs := [[.finite 0]]
          opdEntropy :=
            .finite ([1 / 5, 1 / 5, 1 / 5, 29 / 100, 29 / 100, 1 / 2].getD n 0)
          opdTop16Mass := .finite (24 / 25) })

theorem driftingCalls_stop_at_five :
    (create .t0100 none).answerAt driftingCalls 4 = true ∧
      ¬ (create .t0100 none).answerAt driftingCalls 5 = true := by
  have stops : ∀ n, (create .t0100 none).answerAt driftingCalls n = true ↔ n < 5 := by
    refine ((accept_stops_at_frontier (1 / 10) (by norm_num) none driftingCalls).1 5 ?_ ?_).1
    · exact ⟨by omega, 1 / 5, 1 / 5, 1 / 5, 29 / 100, 29 / 100, 1 / 2, rfl, rfl, rfl, rfl, rfl,
        rfl, by norm_num⟩
    · rintro earlier hlt ⟨hturn, a, b, c, x, y, z, ha, hb, hc, hx, hy, hz, hdrift⟩
      have hcases : earlier = 3 ∨ earlier = 4 := by omega
      rcases hcases with rfl | rfl <;>
      · cases ha
        cases hb
        cases hc
        cases hx
        cases hy
        cases hz
        norm_num at hdrift
  constructor
  · rw [stops]
    omega
  · rw [stops]
    omega

end AdaptiveSession

end Adaptive
