import Mathlib.Tactic.Positivity
import CodingOpd.Adaptive.Frontier
import CodingOpd.Library.Heap
import CodingOpd.Python.Collections

/-!
# Interaction horizons

The algorithms of on-policy distillation differ in the turns that an episode of training may take.
`TCOD` starts with one turn and adds one every `growth_interval` steps of the trainer, until the
limit of the task.

## Main definitions

* `Value`, `Objects`: values of Python, with dictionaries by their addresses
* `OPDAlgorithm`, `OPDAlgorithm.getAlgorithm`, `OPDAlgorithm.rolloutMaxTurns`: as the code computes
  them

## Main results

* `OPDAlgorithm.rolloutMaxTurns_eq_ok_iff`: when there is a limit, and which one
* `OPDAlgorithm.horizon_mono`, `OPDAlgorithm.horizon_add_le`, `OPDAlgorithm.horizon_eq_max`: the
  curriculum grows by one turn at a time, up to the task's own limit
-/

open Python Adaptive

namespace OpdFramework

/-- A value of Python, a dictionary by its address. An `array` is a number with the method
`item`. -/
inductive Value where
  | none
  | bool (value : Bool)
  | int (value : ℤ)
  | str (value : String)
  | array (item : ℤ)
  | dict (address : ℕ)
  | other (number : ℕ)
deriving DecidableEq

/-- The dictionaries. -/
abbrev Objects := Heap (Dict Value)

/-- `_as_python_scalar` -/
def Value.asPythonScalar : Value → Value
  | array item => int item
  | value => value

/-- `bool(value)` -/
def Value.truthy (h : Objects) : Value → Bool
  | none => false
  | bool value => value
  | int value | array value => value ≠ 0
  | str value => value ≠ ""
  | dict address => h.read address ≠ some []
  | other _ => true

/-- The dictionary at an address. -/
def Value.asDict (h : Objects) : Value → Except PyError (Dict Value)
  | dict address => (h.read address).elim (.error (.typeError "not a mapping")) .ok
  | _ => .error (.typeError "not a mapping")

/-- The items of `dict(value or {})`. -/
def dictOr (h : Objects) : Option Value → Except PyError (Dict Value)
  | none => .ok []
  | some value => if value.truthy h then value.asDict h else .ok []

/-- `require_integer` -/
def requireInteger (name : String) (value : Value) (minimum : ℤ) : Except PyError ℤ :=
  match value with
  | .int n =>
    if n < minimum then .error (.valueError (name ++ " must be an integer >= " ++ toString minimum))
    else .ok n
  -- `bool` is a subclass of `int`, and rejected
  | _ => .error (.valueError (name ++ " must be an integer >= " ++ toString minimum))

theorem requireInteger_eq_ok_iff {name : String} {value : Value} {minimum n : ℤ} :
    requireInteger name value minimum = .ok n ↔ value = .int n ∧ minimum ≤ n := by
  cases value with
  | int m =>
    rw [requireInteger]
    split_ifs with hlt
    · refine iff_of_false nofun ?_
      rintro ⟨⟨⟩, hle⟩
      exact absurd hlt (not_lt.mpr hle)
    · constructor
      · rintro ⟨⟩
        exact ⟨rfl, not_lt.mp hlt⟩
      · rintro ⟨⟨⟩, -⟩
        rfl
  | none | bool | str | array | dict | other => exact iff_of_false nofun (fun h => nomatch h.1)

/-- `TCOD` -/
structure TCOD where
  growthInterval : ℤ
  one_le : 1 ≤ growthInterval

/-- `TCOD(growth_interval=...)` -/
def TCOD.create (growthInterval : Value) : Except PyError TCOD :=
  match growthInterval with
  | .int n =>
    if h : 1 ≤ n then .ok ⟨n, h⟩
    else .error (.valueError "growth_interval must be an integer >= 1")
  | _ => .error (.valueError "growth_interval must be an integer >= 1")

theorem TCOD.eq_of_create {growthInterval : Value} {t : TCOD}
    (h : TCOD.create growthInterval = .ok t) : growthInterval = .int t.growthInterval := by
  cases growthInterval with
  | int n =>
    rw [TCOD.create] at h
    split_ifs at h
    cases h
    rfl
  | none | bool | str | array | dict | other => cases h

variable {K : Type} [Field K] [LinearOrder K]

/-- An instance of `OPDAlgorithm`. -/
inductive OPDAlgorithm (K : Type) [Field K] [LinearOrder K] where
  | vanilla
  | tcod (algorithm : TCOD)
  | adaptive (algorithm : AdaptiveOPD K)

/-- The default of `adaptive_threshold`. -/
def defaultThreshold {K : Type} [Field K] : PyFloat K := .finite (1 / (10 : ℕ))

/-- The keyword arguments of the runner that `run_r2e_task` reads. -/
structure Runner (K : Type) [Field K] where
  opdAlgorithm : String := "vanilla"
  tcodGrowthInterval : Value := .int 2
  adaptiveThreshold : PyFloat K := defaultThreshold
  runEvaluation : Option Bool := none

namespace OPDAlgorithm

/-- `get_algorithm` -/
def getAlgorithm (runner : Runner K) : Except PyError (OPDAlgorithm K) :=
  if runner.opdAlgorithm = "vanilla" then .ok vanilla
  else if runner.opdAlgorithm = "tcod" then (TCOD.create runner.tcodGrowthInterval).map tcod
  else if runner.opdAlgorithm = "adaptive" then
    (AdaptiveOPD.create runner.adaptiveThreshold).map adaptive
  else
    .error (.valueError ("Unknown OPD algorithm " ++ runner.opdAlgorithm ++
      "; choose vanilla, tcod or adaptive"))

/-- The limit of an episode, of numbers. -/
def horizon (algorithm : OPDAlgorithm K) (step maxTurns : ℤ) : ℤ :=
  match algorithm with
  | tcod t => min maxTurns (1 + step / t.growthInterval)
  | vanilla | adaptive _ => maxTurns

/-- `rollout_max_turns` -/
def rolloutMaxTurns (algorithm : OPDAlgorithm K) (step maxTurns : Value) : Except PyError ℤ := do
  let step ← requireInteger "step" step 0
  let maxTurns ← requireInteger "max_turns" maxTurns 1
  return algorithm.horizon step maxTurns

variable {algorithm : OPDAlgorithm K}

theorem rolloutMaxTurns_eq_ok_iff {step maxTurns : Value} {turns : ℤ} :
    algorithm.rolloutMaxTurns step maxTurns = .ok turns ↔
      ∃ n m : ℤ, step = .int n ∧ 0 ≤ n ∧ maxTurns = .int m ∧ 1 ≤ m ∧
        turns = algorithm.horizon n m := by
  rw [rolloutMaxTurns, bind_eq_ok]
  constructor
  · rintro ⟨n, hn, h⟩
    obtain ⟨m, hm, h⟩ := bind_eq_ok.mp h
    cases h
    obtain ⟨rfl, hstep⟩ := requireInteger_eq_ok_iff.mp hn
    obtain ⟨rfl, hmax⟩ := requireInteger_eq_ok_iff.mp hm
    exact ⟨n, m, rfl, hstep, rfl, hmax, rfl⟩
  · rintro ⟨n, m, rfl, hstep, rfl, hmax, rfl⟩
    exact ⟨n, requireInteger_eq_ok_iff.mpr ⟨rfl, hstep⟩,
      bind_eq_ok.mpr ⟨m, requireInteger_eq_ok_iff.mpr ⟨rfl, hmax⟩, rfl⟩⟩

theorem horizon_le (step maxTurns : ℤ) : algorithm.horizon step maxTurns ≤ maxTurns := by
  cases algorithm with
  | tcod t => exact min_le_left _ _
  | vanilla | adaptive => exact le_rfl

/-- An episode may always take a turn. -/
theorem one_le_horizon {step maxTurns : ℤ} (hstep : 0 ≤ step) (hmax : 1 ≤ maxTurns) :
    1 ≤ algorithm.horizon step maxTurns := by
  cases algorithm with
  | tcod t =>
    have hquotient : 0 ≤ step / t.growthInterval :=
      Int.ediv_nonneg hstep (Int.zero_le_ofNat 1 |>.trans t.one_le)
    exact le_min hmax (by omega)
  | vanilla | adaptive => exact hmax

/-- The curriculum never goes back. -/
theorem horizon_mono {step step' : ℤ} (hle : step ≤ step') (maxTurns : ℤ) :
    algorithm.horizon step maxTurns ≤ algorithm.horizon step' maxTurns := by
  cases algorithm with
  | tcod t =>
    have hquotient : step / t.growthInterval ≤ step' / t.growthInterval :=
      Int.ediv_le_ediv (Int.lt_of_lt_of_le Int.one_pos t.one_le) hle
    exact min_le_min_left _ (by omega)
  | vanilla | adaptive => exact le_rfl

/-- Within an interval it grows by one turn at most. -/
theorem horizon_add_le (t : TCOD) (step maxTurns : ℤ) :
    (tcod t : OPDAlgorithm K).horizon (step + t.growthInterval) maxTurns ≤
      (tcod t : OPDAlgorithm K).horizon step maxTurns + 1 := by
  have hne : t.growthInterval ≠ 0 := fun h => absurd (h ▸ t.one_le) (by decide)
  have hquotient : (step + t.growthInterval) / t.growthInterval = step / t.growthInterval + 1 :=
    Int.add_ediv_of_dvd_right (dvd_refl _) |>.trans (by rw [Int.ediv_self hne])
  simp only [horizon]
  omega

/-- From some step on, the task's own limit holds. -/
theorem horizon_eq_max {step maxTurns : ℤ} (t : TCOD)
    (hstep : (maxTurns - 1) * t.growthInterval ≤ step) :
    (tcod t : OPDAlgorithm K).horizon step maxTurns = maxTurns := by
  have hquotient : maxTurns - 1 ≤ step / t.growthInterval :=
    (Int.le_ediv_iff_mul_le (Int.lt_of_lt_of_le Int.one_pos t.one_le)).mpr hstep
  exact min_eq_left (by omega)

end OPDAlgorithm

end OpdFramework
