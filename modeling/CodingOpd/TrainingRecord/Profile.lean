import Mathlib.Data.List.Lex
import CodingOpd.CodexAgent.Jsonl
import CodingOpd.Library.RankedSort
import CodingOpd.TrainingRecord.Metrics

/-!
# The profile of a training run

The workers write their spans as lines of JSON. `read_profile` counts the spans of each event and
adds up their durations; lines that hold no JSON, or no event with a duration, are skipped.

## Main definitions

* `Stats`, `Profile`, `readProfile`: the spans of an event, and `read_profile`
* `ProfileRow`, `profileRows`: the rows of `profile_summary.csv` for a segment

## Main results

* `count_pos_of_readProfile`: an event that is listed has a span, so its mean exists
-/

open Python RankedSort CodexAgent

namespace TrainingRecord

variable {K : Type} [Field K] [LinearOrder K]

/-- `float(number)` -/
def Number.toFloat : Number K → PyFloat K
  | .bool value => .finite (if value then 1 else 0)
  | .int n => .finite n
  | .float x => x

/-- `a + b` of floats. -/
def addFloat : PyFloat K → PyFloat K → PyFloat K
  | .finite x, .finite y => .finite (x + y)
  | .finite _, y => y
  | x, .finite _ => x
  | .inf negative, .inf negative' => if negative = negative' then .inf negative else .nan
  | _, _ => .nan

/-- `a < b` of floats. -/
def lessFloat : PyFloat K → PyFloat K → Bool
  | .finite x, .finite y => x < y
  | .finite _, .inf negative => !negative
  | .inf negative, .finite _ => negative
  | .inf negative, .inf negative' => negative && !negative'
  | _, _ => false

/-- `a / n`, of a float and a positive number. -/
def divFloat (x : PyFloat K) (n : ℕ) : PyFloat K :=
  match x with
  | .finite y => .finite (y / n)
  | x => x

/-- What is kept of the spans of an event. -/
structure Stats (K : Type) where
  count : ℕ
  total : PyFloat K
  max : Number K
  errors : ℕ

/-- The default of `stats`. -/
def Stats.empty : Stats K where
  count := 0
  total := .finite 0
  max := .float (.finite 0)
  errors := 0

/-- One more span. -/
def Stats.add (stats : Stats K) (duration : Number K) (failed : Bool) : Stats K where
  count := stats.count + 1
  total := addFloat stats.total duration.toFloat
  max := if lessFloat stats.max.toFloat duration.toFloat then duration else stats.max
  errors := stats.errors + if failed then 1 else 0

/-- The spans by the names of their events. -/
abbrev Profile (K : Type) := AList fun _ : Codes => Stats K

/-- The duration of an event, where it is a number. -/
def durationOf (builtins : Builtins K) : Json → Option (Number K)
  | .bool value => some (.bool value)
  | .number literal => some (builtins.literal literal)
  | _ => none

/-- `event.get("status") not in (None, "ok")` -/
def failed : Option Json → Bool
  | none | some .null => false
  | some (.string status) => status ≠ codes "ok"
  | some _ => true

variable (builtins : Builtins K)

/-- A line of the loop of `read_profile`. -/
def readEvent (stats : Profile K) (line : Text) : Except PyError (Profile K) :=
  match Json.loads line with
  | none => .ok stats
  | some (.object event) =>
    match Object.get event "event", (Object.get event "duration_s").bind (durationOf builtins) with
    | some (.string name), some duration =>
      .ok (stats.insert name (((stats.lookup name).getD .empty).add duration
        (failed (Object.get event "status"))))
    | _, _ => .ok stats
  | some _ => .error (.attributeError "object has no attribute 'get'")

/-- `read_profile`, of the `*.jsonl` files of the directory in the order of their names. -/
def readProfile (profileDir : Option (List Bytes)) : Except PyError (Profile K) :=
  match profileDir with
  | none => .ok ∅
  | some files => (files.flatMap fun bytes => fileLines (Utf8.decode bytes)).foldlM
      (readEvent builtins) ∅

/-- A row of `profile_summary.csv`. -/
structure ProfileRow (K : Type) where
  segment : String
  event : Codes
  stats : Stats K
  mean : PyFloat K

/-- The rows of a segment, in the order of the events. -/
def profileRows (segment : String) (profile : Profile K) : List (ProfileRow K) :=
  (sortBy id profile.keys).filterMap fun event => (profile.lookup event).map fun stats =>
    { segment, event, stats, mean := divFloat stats.total stats.count }

variable {builtins}

/-- Every event that is listed has a span. -/
def Counted (profile : Profile K) : Prop :=
  ∀ event stats, profile.lookup event = some stats → 0 < stats.count

theorem Counted.readEvent {profile next : Profile K} (h : Counted profile) {line : Text}
    (hread : readEvent builtins profile line = .ok next) : Counted next := by
  unfold TrainingRecord.readEvent at hread
  split at hread
  · cases hread
    exact h
  · split at hread
    · cases hread
      intro event stats hstats
      rename_i name duration _ _
      rcases eq_or_ne event name with rfl | hne
      · rw [AList.lookup_insert, Option.some_inj] at hstats
        rw [← hstats]
        exact Nat.succ_pos _
      · rw [AList.lookup_insert_ne hne] at hstats
        exact h event stats hstats
    · cases hread
      exact h
  · cases hread

/-- **An event that is listed has a span**, so the division by its count never raises. -/
theorem count_pos_of_readProfile {profileDir : Option (List Bytes)} {profile : Profile K}
    (h : readProfile builtins profileDir = .ok profile) {segment : String} :
    ∀ row ∈ profileRows segment profile, 0 < row.stats.count := by
  have hcounted : Counted profile := by
    cases profileDir with
    | none =>
      cases h
      intro event stats hstats
      rw [AList.lookup_empty] at hstats
      cases hstats
    | some files =>
      refine foldlM_invariant (P := Counted) ?_ h fun profile line next hprofile hread =>
        hprofile.readEvent hread
      intro event stats hstats
      rw [AList.lookup_empty] at hstats
      cases hstats
  intro row hrow
  obtain ⟨event, -, hevent⟩ := List.mem_filterMap.mp hrow
  obtain ⟨stats, hstats, rfl⟩ := Option.map_eq_some_iff.mp hevent
  exact hcounted event stats hstats

end TrainingRecord
