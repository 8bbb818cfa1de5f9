import CodingOpd.Python.Values
import Mathlib.Data.List.Range
import Mathlib.Tactic.Ring
import Mathlib.Tactic.FieldSimp
import Mathlib.Tactic.NormNum
import Mathlib.Algebra.Order.Ring.Rat

/-!
# The frontier rule of the adaptive algorithm

`AdaptiveOPD.retained_turns` reads the Teacher entropies of the turns so far and returns the
length of the prefix to train on, at the first turn whose trailing window drifts from the
baseline window by at least the threshold. The rule is causal: the frontier it finds on a list
is the one it finds on every longer list.

## Main definitions

* `AdaptiveOPD.retainedTurns`: the rule as the code computes it
* `AdaptiveOPD.FrontierAt`: the turn at which the rule fires

## Main results

* `retainedTurns_eq_some_iff`: the rule returns the least frontier
* `frontierAt_congr`: a frontier depends only on the entropies through its own turn
-/

open Python

namespace Adaptive

variable {K : Type} [Field K] [LinearOrder K]

/-- The rule's parameters. The threshold is checked when the object is made, so a rule with a
threshold that is not positive does not exist. -/
structure AdaptiveOPD (K : Type) [Field K] [LinearOrder K] where
  threshold : K
  baselineTurns : ℕ := 3
  sustainTurns : ℕ := 3
  minRetainedTurns : ℕ := 3
  threshold_pos : 0 < threshold

namespace AdaptiveOPD

/-- The rule of a positive threshold, with the default windows of three turns. -/
def ofThreshold (threshold : K) (hthreshold : 0 < threshold) : AdaptiveOPD K where
  threshold := threshold
  threshold_pos := hthreshold

/-- The rule with the default threshold. -/
def t0100 : AdaptiveOPD ℚ := ofThreshold (1 / 10) (by norm_num)

/-- `AdaptiveOPD(threshold=...)`, with the check of `__post_init__`. -/
def create (threshold : PyFloat K) : Except PyError (AdaptiveOPD K) :=
  match threshold with
  | .finite x =>
    if h : 0 < x then .ok (ofThreshold x h)
    else .error (.valueError "adaptive threshold must be finite and positive")
  | _ => .error (.valueError "adaptive threshold must be finite and positive")

variable (algorithm : AdaptiveOPD K)

/-- The first turn the rule examines. -/
def firstTurn : ℕ := max algorithm.baselineTurns (algorithm.sustainTurns - 1)

/-- The mean of the baseline window, when the window is complete and finite. -/
def reference? (entropies : List (PyFloat K)) : Option K :=
  let baseline := entropies.take algorithm.baselineTurns
  if baseline.length < algorithm.baselineTurns then none
  else (PyFloat.allFinite? baseline).map fun values => values.sum / algorithm.baselineTurns

/-- The window of entropies that ends with `turn`. -/
def window (entropies : List (PyFloat K)) (turn : ℕ) : List (PyFloat K) :=
  (entropies.take (turn + 1)).drop (turn + 1 - algorithm.sustainTurns)

/-- The test of the loop body: the window is finite and its average drift reaches the
threshold. -/
def drifts (entropies : List (PyFloat K)) (reference : K) (turn : ℕ) : Bool :=
  match PyFloat.allFinite? (algorithm.window entropies turn) with
  | none => false
  | some values =>
    decide (algorithm.threshold ≤
      (values.map fun v => v - reference).sum / algorithm.sustainTurns)

/-- `AdaptiveOPD.retained_turns`: the prefix length at the first frontier, `none` to
continue. -/
def retainedTurns (entropies : List (PyFloat K)) : Option ℕ :=
  match algorithm.reference? entropies with
  | none => none
  | some reference =>
    let turns := List.range' algorithm.firstTurn (entropies.length - algorithm.firstTurn)
    (turns.find? (algorithm.drifts entropies reference)).map (max algorithm.minRetainedTurns)

/-- The rule fires at `turn`: the baseline is complete and finite, and so is the window that
ends with `turn`, whose average drift from the baseline mean reaches the threshold. -/
def FrontierAt (entropies : List (PyFloat K)) (turn : ℕ) : Prop :=
  algorithm.firstTurn ≤ turn ∧ turn < entropies.length ∧
    ∃ baseline values : List K,
      entropies.take algorithm.baselineTurns = baseline.map .finite ∧
      algorithm.window entropies turn = values.map .finite ∧
      algorithm.threshold ≤
        (values.map fun v => v - baseline.sum / algorithm.baselineTurns).sum /
          algorithm.sustainTurns

theorem reference?_eq_some {entropies : List (PyFloat K)} {reference : K} :
    algorithm.reference? entropies = some reference ↔
      algorithm.baselineTurns ≤ entropies.length ∧
        ∃ baseline : List K, entropies.take algorithm.baselineTurns = baseline.map .finite ∧
          baseline.sum / algorithm.baselineTurns = reference := by
  unfold reference?
  by_cases short : entropies.length < algorithm.baselineTurns
  · simp [Nat.not_le_of_lt short]
  · have long : algorithm.baselineTurns ≤ entropies.length := Nat.le_of_not_lt short
    simp [long, PyFloat.allFinite?_eq_some]

theorem drifts_iff {entropies : List (PyFloat K)} {reference : K} {turn : ℕ} :
    algorithm.drifts entropies reference turn = true ↔
      ∃ values : List K, algorithm.window entropies turn = values.map .finite ∧
        algorithm.threshold ≤
          (values.map fun v => v - reference).sum / algorithm.sustainTurns := by
  unfold drifts
  cases h : PyFloat.allFinite? (algorithm.window entropies turn) with
  | none =>
    simp only [Bool.false_eq_true, false_iff, not_exists, not_and]
    intro values hvalues
    rw [← PyFloat.allFinite?_eq_some, h] at hvalues
    cases hvalues
  | some values =>
    have hwindow := PyFloat.allFinite?_eq_some.mp h
    constructor
    · intro hdrift
      exact ⟨values, hwindow, of_decide_eq_true hdrift⟩
    · rintro ⟨values', hwindow', hdrift⟩
      rw [← PyFloat.allFinite?_eq_some, h, Option.some.injEq] at hwindow'
      subst hwindow'
      exact decide_eq_true hdrift

theorem frontierAt_iff_drifts {entropies : List (PyFloat K)} {reference : K}
    (hreference : algorithm.reference? entropies = some reference) {turn : ℕ} :
    algorithm.FrontierAt entropies turn ↔
      turn ∈ List.range' algorithm.firstTurn (entropies.length - algorithm.firstTurn) ∧
        algorithm.drifts entropies reference turn = true := by
  obtain ⟨-, baseline, hbaseline, rfl⟩ := algorithm.reference?_eq_some.mp hreference
  rw [drifts_iff, List.mem_range'_1]
  constructor
  · rintro ⟨hfirst, hlt, baseline', values, hbaseline', hvalues, hdrift⟩
    have same : baseline' = baseline :=
      List.map_injective_iff.mpr (fun _ _ h => PyFloat.finite.inj h)
        (hbaseline'.symm.trans hbaseline)
    subst same
    exact ⟨by omega, values, hvalues, hdrift⟩
  · rintro ⟨hturn, values, hvalues, hdrift⟩
    exact ⟨hturn.1, by omega, baseline, values, hbaseline, hvalues, hdrift⟩

theorem not_frontierAt_of_reference?_eq_none {entropies : List (PyFloat K)}
    (hreference : algorithm.reference? entropies = none) (turn : ℕ) :
    ¬ algorithm.FrontierAt entropies turn := by
  rintro ⟨hfirst, hlt, baseline, -, hbaseline, -, -⟩
  have long : algorithm.baselineTurns ≤ entropies.length :=
    (le_max_left _ _).trans (hfirst.trans hlt.le)
  have found := algorithm.reference?_eq_some.mpr ⟨long, baseline, hbaseline, rfl⟩
  rw [hreference] at found
  cases found

/-- **The rule returns the least frontier**, raised to the minimum number of retained turns. -/
theorem retainedTurns_eq_some_iff {entropies : List (PyFloat K)} {n : ℕ} :
    algorithm.retainedTurns entropies = some n ↔
      ∃ turn, algorithm.FrontierAt entropies turn ∧
        (∀ earlier < turn, ¬ algorithm.FrontierAt entropies earlier) ∧
        max algorithm.minRetainedTurns turn = n := by
  unfold retainedTurns
  cases hreference : algorithm.reference? entropies with
  | none => simp [algorithm.not_frontierAt_of_reference?_eq_none hreference]
  | some reference =>
    have frontier : ∀ turn, algorithm.FrontierAt entropies turn ↔
        turn ∈ List.range' algorithm.firstTurn (entropies.length - algorithm.firstTurn) ∧
          algorithm.drifts entropies reference turn = true :=
      fun _ => algorithm.frontierAt_iff_drifts hreference
    simp only [Option.map_eq_some_iff, List.find?_range'_eq_some, Bool.not_eq_true']
    constructor
    · rintro ⟨turn, ⟨hdrift, hmem, hleast⟩, rfl⟩
      refine ⟨turn, (frontier turn).mpr ⟨hmem, hdrift⟩, ?_, rfl⟩
      intro earlier hlt hearlier
      obtain ⟨hmem', hdrift'⟩ := (frontier earlier).mp hearlier
      have undrifted := hleast earlier (List.mem_range'_1.mp hmem').1 hlt
      rw [hdrift'] at undrifted
      cases undrifted
    · rintro ⟨turn, hturn, hleast, rfl⟩
      obtain ⟨hmem, hdrift⟩ := (frontier turn).mp hturn
      refine ⟨turn, ⟨hdrift, hmem, ?_⟩, rfl⟩
      intro earlier hfirst hlt
      have hmem' : earlier ∈
          List.range' algorithm.firstTurn (entropies.length - algorithm.firstTurn) := by
        rw [List.mem_range'_1] at hmem ⊢
        omega
      by_contra hdrift'
      exact hleast earlier hlt ((frontier earlier).mpr ⟨hmem', by simpa using hdrift'⟩)

theorem retainedTurns_eq_none_iff {entropies : List (PyFloat K)} :
    algorithm.retainedTurns entropies = none ↔
      ∀ turn, ¬ algorithm.FrontierAt entropies turn := by
  constructor
  · intro hnone
    by_contra hsome
    push Not at hsome
    classical
    have hreturned := algorithm.retainedTurns_eq_some_iff.mpr
      ⟨Nat.find hsome, Nat.find_spec hsome, fun _ => Nat.find_min hsome, rfl⟩
    rw [hnone] at hreturned
    cases hreturned
  · intro hnone
    cases hreturned : algorithm.retainedTurns entropies with
    | none => rfl
    | some n =>
      obtain ⟨turn, hturn, -⟩ := algorithm.retainedTurns_eq_some_iff.mp hreturned
      exact absurd hturn (hnone turn)

theorem exists_retainedTurns_iff {entropies : List (PyFloat K)} :
    (∃ n, algorithm.retainedTurns entropies = some n) ↔
      ∃ turn, algorithm.FrontierAt entropies turn := by
  rw [← Option.ne_none_iff_exists', ne_eq, retainedTurns_eq_none_iff]
  push Not
  rfl

/-- **The rule is causal**: a frontier depends only on the entropies through its own turn. -/
theorem frontierAt_congr {entropies entropies' : List (PyFloat K)} {turn : ℕ}
    (hlength : turn < entropies.length ↔ turn < entropies'.length)
    (htake : entropies.take (turn + 1) = entropies'.take (turn + 1)) :
    algorithm.FrontierAt entropies turn ↔ algorithm.FrontierAt entropies' turn := by
  have baselines (hfirst : algorithm.firstTurn ≤ turn) :
      entropies.take algorithm.baselineTurns = entropies'.take algorithm.baselineTurns := by
    have hle : algorithm.baselineTurns ≤ turn + 1 :=
      (le_max_left _ _).trans (hfirst.trans (Nat.le_succ turn))
    rw [← Nat.min_eq_left hle, ← List.take_take, ← List.take_take, htake]
  have windows : algorithm.window entropies turn = algorithm.window entropies' turn := by
    unfold window
    rw [htake]
  unfold FrontierAt
  rw [windows, hlength]
  constructor
  · rintro ⟨hfirst, hrest⟩
    exact ⟨hfirst, by rwa [← baselines hfirst]⟩
  · rintro ⟨hfirst, hrest⟩
    exact ⟨hfirst, by rwa [baselines hfirst]⟩

end AdaptiveOPD

end Adaptive
