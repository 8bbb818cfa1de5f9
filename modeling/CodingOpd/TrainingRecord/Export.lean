import Mathlib.Data.Rat.Floor
import CodingOpd.Library.Overlay
import CodingOpd.Library.Transition
import CodingOpd.TrainingRecord.Profile

/-!
# The record of a training run

`export_training_run.py` keeps a list of the segments that a run was trained in. An export replaces
the entry of its segment, reads the logs of all segments again, and writes the metrics of every step
as the last of the logs has them. The entry that it replaces goes to the end of the list.

## Main definitions

* `Files`, `Args`, `Record`: what an export reads, its arguments, and the files of a run's record
* `main`, `step`: an export, and one that does not raise
* `SameMetrics`, `Repeats`: the metrics are unchanged; the later logs repeat those of a segment

## Main results

* `exported_of_run`: what the record shows after any exports
* `sameMetrics_again_iff`: an export is repeated without a change exactly when the later logs repeat
  the metrics of its segment
-/

open Python RankedSort CodexAgent Overlay

namespace TrainingRecord

/-- The choices of `--status`. -/
inductive Status where
  | completed
  | failed
deriving DecidableEq

/-- An entry of `segments` in `summary.json`. -/
structure Segment where
  name : String
  log : String
  profileDir : String
  status : Status
  resumeFrom : String
deriving DecidableEq

/-- The arguments of an export. -/
structure Args where
  segment : String
  log : String
  profileDir : Option String := none
  algorithm : String
  status : Status
  checkpointDir : String
  resumeFrom : String := ""
  gitCommit : String := ""

/-- `segment` -/
def Args.entry (args : Args) : Segment where
  name := args.segment
  log := args.log
  profileDir := args.profileDir.getD ""
  status := args.status
  resumeFrom := args.resumeFrom

/-- The files that an export reads. -/
structure Files where
  logs : String → Option Bytes
  /-- The `*.jsonl` files of a directory, in the order of their names. -/
  profiles : String → Option (List Bytes)

/-- `summary.json` -/
structure Summary (K : Type) where
  segments : List Segment
  algorithm : String
  status : Status
  gitCommit : String
  checkpointDir : String
  steps : ℕ
  lastStep : Option ℤ
  finalLoss : Option (Number K)

/-- The files of a record directory. -/
structure Record (K Image : Type) where
  metricsCsv : Option (List (Row K)) := none
  lossCurve : Option Image := none
  profileSummaryCsv : Option (List (ProfileRow K)) := none
  summary : Option (Summary K) := none

section

variable {K Image : Type} [Field K] [LinearOrder K] [FloorRing K]
variable (builtins : Builtins K) (draw : List (ℤ × Number K) → Except PyError Image)

/-- The recorded segments. -/
def Record.segments (record : Record K Image) : List Segment :=
  (record.summary.map Summary.segments).getD []

/-- The segments, with the entry of an export behind the others. -/
def replaceSegment (segments : List Segment) (entry : Segment) : List Segment :=
  segments.filter (·.name ≠ entry.name) ++ [entry]

/-- The metrics of a segment. -/
def Files.metrics (files : Files) (segment : Segment) : Rows K :=
  readMetrics builtins (files.logs segment.log)

/-- `metrics`: the dictionary after the loop over the segments. -/
def mergeMetrics (files : Files) (segments : List Segment) : Rows K :=
  segments.foldl (fun metrics segment => files.metrics builtins segment ∪ metrics) ∅

/-- `metric_rows` -/
def metricRows {K : Type} (metrics : Rows K) : List (Row K) :=
  (sortBy id metrics.keys).filterMap metrics.lookup

/-- The profile rows of a segment. -/
def segmentProfile (files : Files) (segment : Segment) : Except PyError (List (ProfileRow K)) := do
  if segment.profileDir = "" then return []
  else
    let profile ← readProfile builtins (files.profiles segment.profileDir)
    return profileRows segment.name profile

/-- `write_loss_curve`. A record without a loss keeps the curve it has. -/
def writeLossCurve (rows : List (Row K)) (lossCurve : Option Image) :
    Except PyError (Option Image) :=
  let points := rows.filterMap fun row => (row.get "actor/distillation/loss").map (row.step, ·)
  if points = [] then .ok lossCurve else (draw points).map some

/-- The summary of an export. -/
def summarize (args : Args) (segments : List Segment) (rows : List (Row K)) : Summary K where
  segments
  algorithm := args.algorithm
  status := args.status
  gitCommit := args.gitCommit
  checkpointDir := args.checkpointDir
  steps := rows.length
  lastStep := rows.getLast?.map Row.step
  finalLoss := rows.getLast?.bind fun row => row.get "actor/distillation/loss"

/-- `main`: the record afterwards, and what it raises. -/
def main (files : Files) (args : Args) (record : Record K Image) :
    Record K Image × Except PyError Unit :=
  let segments := replaceSegment record.segments args.entry
  let rows := metricRows (mergeMetrics builtins files segments)
  match segments.mapM (segmentProfile builtins files) with
  | .error error => (record, .error error)
  | .ok profileRows =>
    match writeLossCurve draw rows record.lossCurve with
    -- the metrics are written by then
    | .error error => ({ record with metricsCsv := some rows }, .error error)
    | .ok lossCurve =>
      ({ metricsCsv := some rows
         lossCurve
         profileSummaryCsv := some profileRows.flatten
         summary := some (summarize args segments rows) }, .ok ())

/-- An export, with the files as it finds them. -/
structure Export where
  files : Files
  args : Args

/-- The record after an export that does not raise. -/
def step (record : Record K Image) (e : Export) : Option (Record K Image) :=
  match main builtins draw e.files e.args record with
  | (next, .ok _) => some next
  | (_, .error _) => none

/-- The metrics are unchanged: every row of `metrics.csv`, `last_step` and `final_loss`. -/
structure SameMetrics (record next : Record K Image) : Prop where
  metricsCsv : next.metricsCsv = record.metricsCsv
  lastStep : next.summary.map Summary.lastStep = record.summary.map Summary.lastStep
  finalLoss : next.summary.map Summary.finalLoss = record.summary.map Summary.finalLoss

/-- The segments behind the one of a name. -/
def laterSegments (segments : List Segment) (name : String) : List Segment :=
  (segments.dropWhile (·.name ≠ name)).tail

/-- The later logs repeat the metrics of a segment: of a step that the log of the segment has, the
last of the later logs that has it too shows the same metrics. -/
def Repeats (files : Files) (segments : List Segment) (args : Args) : Prop :=
  ∀ step row later, (readMetrics builtins (files.logs args.log)).lookup step = some row →
    overlay ((laterSegments segments args.segment).map fun segment =>
      (files.metrics builtins segment).lookup) step = some later → later = row

/-! ## The rows of some segments -/

section Rows

variable {builtins}

theorem lookup_union {K : Type} (rows rows' : Rows K) (step : ℤ) :
    (rows ∪ rows').lookup step = (rows.lookup step).or (rows'.lookup step) := by
  by_cases hmem : step ∈ rows
  · rw [AList.lookup_union_left hmem]
    obtain ⟨row, hrow⟩ := Option.isSome_iff_exists.mp (AList.lookup_isSome.mpr hmem)
    rw [hrow, Option.some_or]
  · rw [AList.lookup_union_right hmem, AList.lookup_eq_none.mpr hmem, Option.none_or]

/-- A step has the metrics of the last segment that has it. -/
theorem lookup_mergeMetrics (files : Files) (segments : List Segment) (step : ℤ) :
    (mergeMetrics builtins files segments).lookup step =
      overlay (segments.map fun segment => (files.metrics builtins segment).lookup) step := by
  induction segments using List.reverseRecOn with
  | nil => rfl
  | append_singleton segments segment ih =>
    rw [List.map_append, List.map_singleton, overlay_append_singleton, ← ih, mergeMetrics,
      List.foldl_append, List.foldl_cons, List.foldl_nil, lookup_union]
    rfl

theorem keyed_mergeMetrics (files : Files) (segments : List Segment) :
    Keyed (mergeMetrics builtins files segments) := by
  intro step row hrow
  rw [lookup_mergeMetrics] at hrow
  obtain ⟨table, htable, hentry⟩ := exists_of_overlay hrow
  obtain ⟨segment, -, rfl⟩ := List.mem_map.mp htable
  exact keyed_readMetrics _ step row hentry

theorem mem_metricRows {K : Type} {rows : Rows K} (h : Keyed rows) {row : Row K} :
    row ∈ metricRows rows ↔ rows.lookup row.step = some row := by
  rw [metricRows, List.mem_filterMap]
  constructor
  · rintro ⟨step, -, hrow⟩
    rwa [h step row hrow]
  · intro hrow
    have hmem : row.step ∈ rows := AList.lookup_isSome.mp (Option.isSome_iff_exists.mpr ⟨row, hrow⟩)
    exact ⟨row.step, mem_sortBy.mpr (AList.mem_keys.mp hmem), hrow⟩

/-- **The rows that are written** tell the metrics of every step. -/
theorem metricRows_eq_iff {K : Type} {rows rows' : Rows K} (h : Keyed rows) (h' : Keyed rows') :
    metricRows rows = metricRows rows' ↔ ∀ step, rows.lookup step = rows'.lookup step := by
  constructor
  · intro heq step
    apply Option.ext
    intro row
    constructor
    · intro hrow
      have hstep := h step row hrow
      rwa [← hstep, ← mem_metricRows h', ← heq, mem_metricRows h, hstep]
    · intro hrow
      have hstep := h' step row hrow
      rwa [← hstep, ← mem_metricRows h, heq, mem_metricRows h', hstep]
  · intro heq
    have hkeys : rows.keys.Perm rows'.keys := by
      apply (List.perm_ext_iff_of_nodup rows.keys_nodup rows'.keys_nodup).mpr
      intro step
      rw [← AList.mem_keys, ← AList.mem_keys, ← AList.lookup_isSome, ← AList.lookup_isSome,
        heq step]
    have hsorted : sortBy id rows.keys = sortBy id rows'.keys :=
      sortBy_eq_of_perm hkeys fun _ _ _ _ hab => hab
    rw [metricRows, metricRows, hsorted]
    exact List.filterMap_congr fun step _ => heq step

end Rows

/-! ## The segments of a record -/

/-- The entry of a segment moves behind those that followed it. -/
theorem replaceSegment_of_mem {segments : List Segment} {entry : Segment}
    (hnames : (segments.map Segment.name).Nodup) (hmem : entry ∈ segments) :
    ∃ before, segments = before ++ entry :: laterSegments segments entry.name ∧
      replaceSegment segments entry =
        before ++ laterSegments segments entry.name ++ [entry] := by
  obtain ⟨before, later, rfl⟩ := List.append_of_mem hmem
  rw [List.map_append, List.map_cons, List.nodup_append, List.nodup_cons] at hnames
  obtain ⟨-, ⟨hafter, -⟩, hdisjoint⟩ := hnames
  have hbefore : ∀ segment ∈ before, decide (segment.name ≠ entry.name) = true := by
    intro segment hsegment
    exact decide_eq_true (hdisjoint _ (List.mem_map_of_mem hsegment) _ List.mem_cons_self)
  have hlater : ∀ segment ∈ later, decide (segment.name ≠ entry.name) = true := by
    intro segment hsegment
    apply decide_eq_true
    intro heq
    exact hafter (heq ▸ List.mem_map_of_mem hsegment)
  have hfrom : ((entry :: later).dropWhile fun segment => decide (segment.name ≠ entry.name)) =
      entry :: later := List.dropWhile_cons_of_neg (by simp)
  have hwithout : ((entry :: later).filter fun segment => decide (segment.name ≠ entry.name)) =
      later := by
    rw [List.filter_cons_of_neg (by simp)]
    exact List.filter_eq_self.mpr hlater
  have hrest : laterSegments (before ++ entry :: later) entry.name = later := by
    rw [laterSegments, List.dropWhile_append_of_pos hbefore, hfrom, List.tail_cons]
  refine ⟨before, by rw [hrest], ?_⟩
  rw [hrest, replaceSegment, List.filter_append, List.filter_eq_self.mpr hbefore, hwithout]

theorem nodup_replaceSegment {segments : List Segment} (entry : Segment)
    (hnames : (segments.map Segment.name).Nodup) :
    ((replaceSegment segments entry).map Segment.name).Nodup := by
  rw [replaceSegment, List.map_append, List.map_singleton]
  refine (hnames.sublist (List.filter_sublist.map _)).append (List.nodup_singleton _) ?_
  rw [List.disjoint_singleton]
  intro hmem
  obtain ⟨segment, hsegment, heq⟩ := List.mem_map.mp hmem
  exact of_decide_eq_true (List.mem_filter.mp hsegment).2 heq

/-! ## Exports -/

section Exports

variable {builtins draw} {record next : Record K Image} {files : Files}

theorem main_of_ok {args : Args} {profile : List (List (ProfileRow K))} {lossCurve : Option Image}
    (hprofile : (replaceSegment record.segments args.entry).mapM (segmentProfile builtins files) =
      .ok profile)
    (hcurve : writeLossCurve draw (metricRows (mergeMetrics builtins files
      (replaceSegment record.segments args.entry))) record.lossCurve = .ok lossCurve) :
    main builtins draw files args record =
      ({ metricsCsv := some (metricRows (mergeMetrics builtins files
          (replaceSegment record.segments args.entry)))
         lossCurve
         profileSummaryCsv := some profile.flatten
         summary := some (summarize args (replaceSegment record.segments args.entry)
           (metricRows (mergeMetrics builtins files
             (replaceSegment record.segments args.entry)))) }, .ok ()) := by
  unfold main
  dsimp only
  rw [hprofile]
  dsimp only
  rw [hcurve]

/-- What an export leaves: the metrics of the recorded segments, in files that can be written. -/
structure Exported (builtins : Builtins K) (draw : List (ℤ × Number K) → Except PyError Image)
    (files : Files) (record : Record K Image) : Prop where
  names_nodup : (record.segments.map Segment.name).Nodup
  profile_ok : ∃ profile, record.segments.mapM (segmentProfile builtins files) = .ok profile
  curve_ok : ∃ before, writeLossCurve draw (metricRows (mergeMetrics builtins files
    record.segments)) before = .ok record.lossCurve
  metricsCsv : record.metricsCsv = some (metricRows (mergeMetrics builtins files record.segments))
  summary : ∃ args, record.summary = some (summarize args record.segments
    (metricRows (mergeMetrics builtins files record.segments)))

/-- An export that does not raise. -/
theorem exported_of_step {e : Export} (hnames : (record.segments.map Segment.name).Nodup)
    (h : step builtins draw record e = some next) : Exported builtins draw e.files next := by
  unfold step main at h
  dsimp only at h
  split at h
  · rename_i hmain
    split at hmain
    · cases hmain
    · rename_i hprofile
      split at hmain
      · cases hmain
      · rename_i hcurve
        cases hmain
        cases h
        exact
          { names_nodup := nodup_replaceSegment e.args.entry hnames
            profile_ok := ⟨_, hprofile⟩
            curve_ok := ⟨_, hcurve⟩
            metricsCsv := rfl
            summary := ⟨e.args, rfl⟩ }
  · cases h

/-- **After any exports** the record shows the metrics of its segments. -/
theorem exported_of_run {exports : List Export} {last : Export}
    (hrun : Transition.run (step builtins draw) {} (exports ++ [last]) = some record) :
    Exported builtins draw last.files record := by
  rw [Transition.run_append] at hrun
  obtain ⟨before, hbefore, hlast⟩ := Option.bind_eq_some_iff.mp hrun
  obtain ⟨after, hafter, hnil⟩ := Option.bind_eq_some_iff.mp hlast
  cases hnil
  refine exported_of_step ?_ hafter
  refine Transition.run_invariant (P := fun _ record => (record.segments.map Segment.name).Nodup)
    hbefore List.nodup_nil ?_
  intro _ record e next hnames hstep
  exact (exported_of_step hnames hstep).names_nodup

omit [Field K] [LinearOrder K] [FloorRing K] in
/-- The curve of the same rows is drawn again, or kept again. -/
theorem writeLossCurve_again {rows : List (Row K)} {before after : Option Image}
    (h : writeLossCurve draw rows before = .ok after) :
    writeLossCurve draw rows after = .ok after := by
  unfold writeLossCurve at h ⊢
  dsimp only at h ⊢
  split
  · rfl
  · rename_i hpoints
    rwa [if_neg hpoints] at h

/-- The metrics are written before the curve is drawn. -/
theorem main_metricsCsv {args : Args}
    (hprofile : ∃ profile, (replaceSegment record.segments args.entry).mapM
      (segmentProfile builtins files) = .ok profile) :
    (main builtins draw files args record).1.metricsCsv =
      some (metricRows (mergeMetrics builtins files
        (replaceSegment record.segments args.entry))) := by
  obtain ⟨profile, hprofile⟩ := hprofile
  unfold main
  dsimp only
  rw [hprofile]
  dsimp only
  split
  · rfl
  · rfl

/-- The rows are the same with the entry at the end exactly when the later logs repeat its
metrics. -/
theorem metricRows_again_iff {segments : List Segment} {args : Args}
    (hnames : (segments.map Segment.name).Nodup) (hmem : args.entry ∈ segments) :
    metricRows (mergeMetrics builtins files (replaceSegment segments args.entry)) =
        metricRows (mergeMetrics builtins files segments) ↔
      Repeats builtins files segments args := by
  obtain ⟨before, hsegments, hreplaced⟩ := replaceSegment_of_mem hnames hmem
  rw [metricRows_eq_iff (keyed_mergeMetrics _ _) (keyed_mergeMetrics _ _)]
  simp only [lookup_mergeMetrics]
  rw [← funext_iff, hreplaced]
  nth_rewrite 2 [hsegments]
  simp only [List.map_append, List.map_cons, List.map_nil]
  exact overlay_move_iff

end Exports

/-! ## Exporting a segment again -/

/-- **When an export can be repeated.** After any exports, exporting a recorded segment again, with
the logs and the arguments that it was recorded with, leaves the metrics as they are exactly when
the later logs repeat the metrics of the segment. -/
theorem sameMetrics_again_iff {exports : List Export} {last : Export} {record : Record K Image}
    {args : Args}
    (hrun : Transition.run (step builtins draw) {} (exports ++ [last]) = some record)
    (hagain : args.entry ∈ record.segments) :
    SameMetrics record (main builtins draw last.files args record).1 ↔
      Repeats builtins last.files record.segments args := by
  have h := exported_of_run hrun
  obtain ⟨before, hsegments, hreplaced⟩ := replaceSegment_of_mem h.names_nodup hagain
  have hprofile : ∃ profile, (replaceSegment record.segments args.entry).mapM
      (segmentProfile builtins last.files) = .ok profile := by
    obtain ⟨profile, hprofile⟩ := h.profile_ok
    refine exists_mapM_eq_ok fun segment hsegment => exists_of_mapM_eq_ok hprofile segment ?_
    rw [hreplaced, List.append_assoc, List.mem_append, List.mem_append, List.mem_singleton,
      or_comm (b := segment = args.entry), ← List.mem_cons, ← List.mem_append] at hsegment
    rwa [hsegments]
  rw [← metricRows_again_iff h.names_nodup hagain]
  constructor
  · intro hsame
    have hrows := hsame.metricsCsv
    rw [main_metricsCsv hprofile, h.metricsCsv, Option.some_inj] at hrows
    exact hrows
  · intro hrows
    obtain ⟨profile, hprofile⟩ := hprofile
    obtain ⟨_, hcurve⟩ := h.curve_ok
    obtain ⟨_, hsummary⟩ := h.summary
    rw [main_of_ok hprofile (hrows ▸ writeLossCurve_again hcurve), hrows]
    exact ⟨h.metricsCsv.symm, by rw [hsummary]; rfl, by rw [hsummary]; rfl⟩

end

/-! ## Two segments -/

/-- The numbers of logs that have digits only. -/
def digitBuiltins : Builtins ℚ where
  float text :=
    let digits := strip text
    if digits = [] ∨ ¬ digits.all Char.isDigit then none
    else some (.finite (digits.foldl (fun n c => 10 * n + (c.toNat - '0'.toNat : ℕ)) 0))
  literal _ := .int 0

/-- A run that fails behind its second step, and resumes from the first. -/
def twoLogs : Files where
  logs path :=
    if path = "first.log" then some <| Utf8.encode <|
      "actor/distillation/loss:5 - training/global_step:1\n".toList ++
        "actor/distillation/loss:4 - training/global_step:2\n".toList
    else if path = "second.log" then some <| Utf8.encode <|
      "actor/distillation/loss:3 - training/global_step:2\n".toList ++
        "actor/distillation/loss:2 - training/global_step:3\n".toList
    else none
  profiles _ := none

def firstSegment : Args where
  segment := "first"
  log := "first.log"
  algorithm := "vanilla"
  status := .failed
  checkpointDir := "/checkpoints/run"

def secondSegment : Args where
  segment := "second"
  log := "second.log"
  algorithm := "vanilla"
  status := .completed
  checkpointDir := "/checkpoints/run"
  resumeFrom := "/checkpoints/run/global_step_1"

/-- The record of the two segments. -/
def twoSegments : Record ℚ Unit :=
  (Transition.run (step digitBuiltins fun _ => .ok ()) {}
    [⟨twoLogs, firstSegment⟩, ⟨twoLogs, secondSegment⟩]).getD {}

theorem run_twoSegments :
    Transition.run (step digitBuiltins fun _ => .ok ()) {}
        ([⟨twoLogs, firstSegment⟩] ++ [⟨twoLogs, secondSegment⟩]) = some twoSegments ∧
      twoSegments.segments = [firstSegment.entry, secondSegment.entry] := by
  have hreturns : (Transition.run (step digitBuiltins fun _ => .ok ()) ({} : Record ℚ Unit)
      [⟨twoLogs, firstSegment⟩, ⟨twoLogs, secondSegment⟩]).isSome ∧
      twoSegments.segments = [firstSegment.entry, secondSegment.entry] := by decide +kernel
  obtain ⟨record, hrecord⟩ := Option.isSome_iff_exists.mp hreturns.1
  refine ⟨?_, hreturns.2⟩
  rw [twoSegments, List.singleton_append, hrecord, Option.getD_some]

/-- The last segment is exported again. -/
theorem sameMetrics_second_again :
    SameMetrics twoSegments (main digitBuiltins (fun _ => .ok ()) twoLogs secondSegment
      twoSegments).1 := by
  obtain ⟨hrun, hsegments⟩ := run_twoSegments
  refine (sameMetrics_again_iff digitBuiltins (fun _ => .ok ()) hrun ?_).mpr ?_
  · rw [hsegments]
    decide
  · intro step row later _ hlater
    have hlast : laterSegments [firstSegment.entry, secondSegment.entry]
        secondSegment.segment = [] := by decide
    rw [hsegments, hlast] at hlater
    cases hlater

/-- The first segment is exported again: the step that both logs have shows its older loss. -/
theorem not_sameMetrics_first_again :
    Transition.run (step digitBuiltins fun _ => .ok ()) {}
        ([⟨twoLogs, firstSegment⟩] ++ [⟨twoLogs, secondSegment⟩]) = some twoSegments ∧
      firstSegment.entry ∈ twoSegments.segments ∧
      ¬ SameMetrics twoSegments (main digitBuiltins (fun _ => .ok ()) twoLogs firstSegment
        twoSegments).1 := by
  obtain ⟨hrun, hsegments⟩ := run_twoSegments
  refine ⟨hrun, ?_, fun hsame => ?_⟩
  · rw [hsegments]
    exact List.mem_cons_self
  · have hdiffer : (main digitBuiltins (fun _ => .ok ()) twoLogs firstSegment
        twoSegments).1.metricsCsv ≠ twoSegments.metricsCsv := by decide +kernel
    exact hdiffer hsame.metricsCsv

end TrainingRecord
