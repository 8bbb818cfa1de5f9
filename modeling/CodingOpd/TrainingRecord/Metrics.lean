import Mathlib.Algebra.Order.Floor.Defs
import Mathlib.Data.List.AList
import CodingOpd.Python.Utf8
import CodingOpd.Python.Values

/-!
# The metrics of a training log

veRL logs a line for each training step, of fields `name:value` with ` - ` between them.
`read_metrics` takes the metrics of each step from it; of two lines of one step, the later counts.

## Main definitions

* `Number`: an `int` or a `float`
* `findFields`, `fields`: `FIELD_RE.findall`, and the fields of a line
* `Row`, `Rows`, `readMetrics`: the metrics of a step, and `read_metrics`

## Main results

* `Keyed`, `keyed_readMetrics`: the rows of a log are found by their steps
-/

open Python

namespace TrainingRecord

/-- `METRICS` -/
def metricNames : List String :=
  ["actor/distillation/loss", "actor/distillation/abs_loss", "actor/grad_norm", "actor/lr",
    "perf/mfu/actor", "timing_s/gen", "timing_s/update_actor", "timing_s/update_weights",
    "timing_s/step", "perf/total_num_tokens", "perf/throughput", "response_length/mean",
    "response_length/max", "response_length/clip_ratio", "training/num_turns/mean",
    "training/off_policy/trajectory_staleness/mean",
    "training/off_policy/trajectory_staleness/max"]

/-- A number of Python. -/
inductive Number (K : Type) where
  | bool (value : Bool)
  | int (n : ℤ)
  | float (x : PyFloat K)
deriving DecidableEq

/-- The readers of numbers: `float`, which may raise a `ValueError`, and the number that a literal
of a JSON text stands for. -/
structure Builtins (K : Type) where
  float : Text → Option (PyFloat K)
  literal : Text → Number K

/-! ## The fields of a line -/

/-- `([^: ]+):([^ ]+)` at the front of a text: its groups, and how many characters it takes. -/
def matchField (text : Text) : Option ((Text × Text) × ℕ) :=
  let name := text.takeWhile fun c => c ≠ ':' ∧ c ≠ ' '
  match text.drop name.length with
  | ':' :: rest =>
    let value := rest.takeWhile (· ≠ ' ')
    if name = [] ∨ value = [] then none
    else some ((name, value), name.length + 1 + value.length)
  | _ => none

/-- The matches of `FIELD_RE` in a text that is not the start of the line, of which the last match
has taken some characters. -/
def findFields : ℕ → Text → List (Text × Text)
  | _, [] => []
  | taken + 1, _ :: text => findFields taken text
  | 0, c :: text =>
    if [' ', '-', ' '].isPrefixOf (c :: text) then
      match matchField ((c :: text).drop 3) with
      | some (field, length) => field :: findFields (length + 2) text
      | none => findFields 0 text
    else findFields 0 text

/-- `FIELD_RE.findall(line)` -/
def fields (line : Text) : List (Text × Text) :=
  match matchField line with
  | some (field, length) => field :: findFields length line
  | none => findFields 0 line

/-- `fields.get(name, "")`, where the later of two fields counts. -/
def getField (fields : List (Text × Text)) (name : String) : Text :=
  ((fields.reverse.find? (·.1 = name.toList)).map Prod.snd).getD []

/-- The value without the wrapper of NumPy. -/
def unwrap (value : Text) : Text :=
  match ["np.float64(", "np.int64("].find? fun wrapper =>
    wrapper.toList.isPrefixOf value && value.getLast? = some ')' with
  | some wrapper => (value.drop wrapper.length).dropLast
  | none => value

section

variable {K : Type} [Field K] [LinearOrder K] [FloorRing K] (builtins : Builtins K)

/-- `number` -/
def number (value : Text) : Option (Number K) :=
  (builtins.float (unwrap value)).map fun parsed =>
    match parsed with
    | .finite x => if (⌊x⌋ : K) = x then .int ⌊x⌋ else .float (.finite x)
    | _ => .float parsed

/-! ## The rows of a log -/

/-- The metrics of a step, in the order of `METRICS`. -/
structure Row (K : Type) where
  step : ℤ
  metrics : List (String × Number K)
deriving DecidableEq

/-- `row.get(name)` -/
def Row.get {K : Type} (row : Row K) (name : String) : Option (Number K) := row.metrics.lookup name

/-- Rows by their steps. -/
abbrev Rows (K : Type) := AList fun _ : ℤ => Row K

/-- The metrics of a line. -/
def metricsOf (line : Text) : List (String × Number K) :=
  metricNames.filterMap fun name => (number builtins (getField (fields line) name)).map (name, ·)

/-- A line of the loop of `read_metrics`. -/
def readLine (rows : Rows K) (line : Text) : Rows K :=
  if "training/global_step:".toList <:+: line then
    match number builtins (getField (fields line) "training/global_step") with
    | some (.int step) => rows.insert step { step, metrics := metricsOf builtins line }
    | _ => rows
  else rows

/-- `read_metrics`, of the bytes of the log. -/
def readMetrics (log : Option Bytes) : Rows K :=
  match log with
  | none => ∅
  | some bytes => (fileLines (Utf8.decode bytes)).foldl (readLine builtins) ∅

/-- Every row is found by its step. -/
def Keyed {K : Type} (rows : Rows K) : Prop :=
  ∀ step row, rows.lookup step = some row → row.step = step

variable {builtins}

theorem keyed_empty {K : Type} : Keyed (∅ : Rows K) := by
  intro step row h
  rw [AList.lookup_empty] at h
  cases h

theorem Keyed.insert {K : Type} {rows : Rows K} (h : Keyed rows) (row : Row K) :
    Keyed (rows.insert row.step row) := by
  intro step row' hrow
  rcases eq_or_ne step row.step with rfl | hne
  · rw [AList.lookup_insert, Option.some_inj] at hrow
    rw [hrow]
  · rw [AList.lookup_insert_ne hne] at hrow
    exact h step row' hrow

theorem Keyed.readLine {rows : Rows K} (h : Keyed rows) (line : Text) :
    Keyed (readLine builtins rows line) := by
  unfold TrainingRecord.readLine
  split
  · split
    · rename_i step _
      exact h.insert { step, metrics := metricsOf builtins line }
    · exact h
  · exact h

/-- **The rows of a log** are found by their steps. -/
theorem keyed_readMetrics (log : Option Bytes) : Keyed (readMetrics builtins log) := by
  cases log with
  | none => exact keyed_empty
  | some bytes =>
    rw [readMetrics]
    exact List.foldlRecOn (motive := Keyed) _ _ keyed_empty fun rows h line _ => h.readLine line

end

end TrainingRecord
