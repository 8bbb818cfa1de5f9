import CodingOpd.Selection.Quotas
import CodingOpd.Selection.Rows

/-!
# Complexity bins

Within a repository, `_complexity_bins` orders the rows by the mean of their percentiles over three
fields and cuts the order into four bins of about the same size.

## Main definitions

* `complexityBins`: `_complexity_bins`
* `rowScore`, `ordered`: the score of a row and the order of the rows, where every field is numeric

## Main results

* `complexityBins_spec`: where every field is numeric, every row has one bin of the four
* `complexityBins_perm`: the bins do not depend on the order of the rows
-/

open Python RankedSort

namespace Selection

variable {V K ρ : Type} [Field K] [LinearOrder K] [LinearOrder ρ]
variable (arithmetic : Arithmetic K) (sha256 : String → ρ)

/-- `bisect.bisect_right(values, value)`, of sorted values: how many are at most the value. -/
def bisectRight (values : List K) (value : K) : ℕ := values.countP fun x => x ≤ value

/-- The sorted values of a field. -/
def sortedValues (repoRows : List (Row V)) (field : ComplexityField) :
    Except PyError (ComplexityField × List K) := do
  let values ← repoRows.mapM fun row => do
    let n ← numeric row field
    return arithmetic.log1p n
  return (field, sortBy id values)

/-- `score` -/
def score (sorted : List (ComplexityField × List K)) (row : Row V) : Except PyError K := do
  let percentiles ← sorted.mapM fun (field, values) => do
    let n ← numeric row field
    return (bisectRight values (arithmetic.log1p n) : K) / values.length
  return percentiles.sum / percentiles.length

/-- `_complexity_bins` -/
def complexityBins (repoRows : List (Row V)) (seed : ℤ) : Except PyError (Dict ℕ) := do
  let sorted ← ComplexityField.all.mapM (sortedValues arithmetic repoRows)
  let scored ← repoRows.mapM fun row => do
    let score ← score arithmetic sorted row
    return (toLex (score, stableRank sha256 seed "complexity-tie" row.taskId), row)
  let ordered := (sortBy Prod.fst scored).map Prod.snd
  return Dict.update [] (ordered.zipIdx.map fun (row, index) =>
    (row.taskId, min 3 (index * 4 / ordered.length)))

/-! ## Numeric rows -/

/-- A row with a number, or nothing, in each complexity field. -/
def Row.Numeric (row : Row V) : Prop := ∀ field, ∃ n, numeric row field = .ok n

/-- The number in a field. -/
def amount (row : Row V) (field : ComplexityField) : ℤ := (numeric row field).toOption.getD 0

theorem Row.Numeric.eq_amount {row : Row V} (h : row.Numeric) (field : ComplexityField) :
    numeric row field = .ok (amount row field) := by
  obtain ⟨n, hn⟩ := h field
  rw [amount, hn]
  rfl

/-- The percentile of a row in a field. -/
def percentile (repoRows : List (Row V)) (row : Row V) (field : ComplexityField) : K :=
  let values := sortBy id (repoRows.map fun row => arithmetic.log1p (amount row field))
  bisectRight values (arithmetic.log1p (amount row field)) / values.length

/-- The score of a row whose fields are numeric. -/
def rowScore (repoRows : List (Row V)) (row : Row V) : K :=
  let percentiles := ComplexityField.all.map (percentile arithmetic repoRows row)
  percentiles.sum / percentiles.length

/-- What the rows of a repository are ordered by. -/
def orderKey (seed : ℤ) (repoRows : List (Row V)) (row : Row V) : K ×ₗ ρ :=
  toLex (rowScore arithmetic repoRows row, stableRank sha256 seed "complexity-tie" row.taskId)

/-- The rows of a repository, in the order of their complexity. -/
def ordered (seed : ℤ) (repoRows : List (Row V)) : List (Row V) :=
  sortBy (orderKey arithmetic sha256 seed repoRows) repoRows

/-- The bins that the order gives. -/
def binsOf (rows : List (Row V)) : Dict ℕ :=
  rows.zipIdx.map fun (row, index) => (row.taskId, min 3 (index * 4 / rows.length))

theorem keys_binsOf (rows : List (Row V)) : (binsOf rows).keys = rows.map Row.taskId := by
  rw [Dict.keys, binsOf, List.map_map]
  show rows.zipIdx.map (Row.taskId ∘ Prod.fst) = _
  rw [← List.map_map, List.zipIdx_map_fst]

/-- There are four bins. -/
theorem binsOf_lt {rows : List (Row V)} {item : String × ℕ} (h : item ∈ binsOf rows) :
    item.2 < 4 := by
  obtain ⟨⟨row, index⟩, -, rfl⟩ := List.mem_map.mp h
  show min 3 _ < 4
  omega

variable {arithmetic sha256}

theorem sortedValues_eq {repoRows : List (Row V)} (hnumeric : ∀ row ∈ repoRows, row.Numeric)
    (field : ComplexityField) :
    sortedValues arithmetic repoRows field = .ok
      (field, sortBy id (repoRows.map fun row => arithmetic.log1p (amount row field))) := by
  rw [sortedValues, mapM_eq_ok_map (g := fun row => arithmetic.log1p (amount row field))]
  · rfl
  · intro row hrow
    rw [(hnumeric row hrow).eq_amount field]
    rfl

/-- The score of a row, from the sorted values of the fields. -/
theorem score_eq {repoRows : List (Row V)} {row : Row V} (hrow : row.Numeric) :
    score arithmetic (ComplexityField.all.map fun field =>
      (field, sortBy id (repoRows.map fun row => arithmetic.log1p (amount row field)))) row =
      .ok (rowScore arithmetic repoRows row) := by
  have hpercentiles : (ComplexityField.all.map fun field =>
      (field, sortBy id (repoRows.map fun row => arithmetic.log1p (amount row field)))).mapM
        (fun (field, values) => do
          let n ← numeric row field
          return (bisectRight values (arithmetic.log1p n) : K) / values.length) =
      .ok (ComplexityField.all.map (percentile arithmetic repoRows row)) := by
    rw [List.mapM_map]
    apply mapM_eq_ok_map
    intro field _
    dsimp only [Function.comp_apply]
    rw [hrow.eq_amount field]
    rfl
  rw [score, hpercentiles]
  rfl

theorem keys_binsOf_ordered_perm (seed : ℤ) (repoRows : List (Row V)) :
    (binsOf (ordered arithmetic sha256 seed repoRows)).keys.Perm (repoRows.map Row.taskId) := by
  rw [keys_binsOf]
  exact (sortBy_perm _ _).map _

/-- The bins of rows whose fields are numeric. -/
theorem complexityBins_eq {repoRows : List (Row V)} (hnumeric : ∀ row ∈ repoRows, row.Numeric)
    (hids : (repoRows.map Row.taskId).Nodup) (seed : ℤ) :
    complexityBins arithmetic sha256 repoRows seed =
      .ok (binsOf (ordered arithmetic sha256 seed repoRows)) := by
  have hkeys : (binsOf (ordered arithmetic sha256 seed repoRows)).keys.Nodup :=
    (keys_binsOf_ordered_perm seed repoRows).nodup_iff.mpr hids
  rw [complexityBins, mapM_eq_ok_map fun field _ => sortedValues_eq hnumeric field, ok_bind,
    mapM_eq_ok_map (g := fun row => (orderKey arithmetic sha256 seed repoRows row, row)), ok_bind]
  · rw [sortBy_map, List.map_map]
    have hid : (Prod.snd ∘ fun row : Row V => (orderKey arithmetic sha256 seed repoRows row, row)) =
        id := rfl
    rw [hid, List.map_id]
    exact congrArg Except.ok (Dict.update_nil_left hkeys)
  · intro row hrow
    rw [score_eq (hnumeric row hrow)]
    rfl

variable (arithmetic sha256) in
/-- **The bins are found**, and every row has one of the four. -/
theorem complexityBins_spec {repoRows : List (Row V)} (hnumeric : ∀ row ∈ repoRows, row.Numeric)
    (hids : (repoRows.map Row.taskId).Nodup) (seed : ℤ) :
    ∃ repoBins, complexityBins arithmetic sha256 repoRows seed = .ok repoBins ∧
      repoBins.keys.Perm (repoRows.map Row.taskId) ∧ ∀ item ∈ repoBins, item.2 < 4 :=
  ⟨_, complexityBins_eq hnumeric hids seed, keys_binsOf_ordered_perm seed repoRows,
    fun _ => binsOf_lt⟩

/-- Where the bins are assigned, every field is numeric. -/
theorem numeric_of_complexityBins {repoRows : List (Row V)} {seed : ℤ} {bins : Dict ℕ}
    (h : complexityBins arithmetic sha256 repoRows seed = .ok bins) :
    ∀ row ∈ repoRows, row.Numeric := by
  intro row hrow field
  obtain ⟨sorted, hsorted, -⟩ := bind_eq_ok.mp h
  obtain ⟨_, hfield⟩ := exists_of_mapM_eq_ok hsorted field field.mem_all
  obtain ⟨values, hvalues, -⟩ := bind_eq_ok.mp hfield
  obtain ⟨value, hvalue⟩ := exists_of_mapM_eq_ok hvalues row hrow
  obtain ⟨n, hn, -⟩ := bind_eq_ok.mp hvalue
  exact ⟨n, hn⟩

/-! ## The order of the rows -/

theorem percentile_perm {repoRows repoRows' : List (Row V)} (hperm : repoRows.Perm repoRows')
    (row : Row V) :
    percentile arithmetic repoRows row = percentile arithmetic repoRows' row := by
  funext field
  have hvalues : sortBy id (repoRows.map fun row => arithmetic.log1p (amount row field)) =
      sortBy id (repoRows'.map fun row => arithmetic.log1p (amount row field)) :=
    sortBy_eq_of_perm (hperm.map _) fun _ _ _ _ heq => heq
  unfold percentile
  rw [hvalues]

omit [LinearOrder ρ] in
theorem orderKey_perm {repoRows repoRows' : List (Row V)} (hperm : repoRows.Perm repoRows')
    (seed : ℤ) :
    orderKey arithmetic sha256 seed repoRows = orderKey arithmetic sha256 seed repoRows' := by
  funext row
  unfold orderKey rowScore
  rw [percentile_perm hperm row]

/-- The order of the rows does not depend on the order of the source, where ranks tell ids apart. -/
theorem ordered_perm {repoRows repoRows' : List (Row V)} (hperm : repoRows.Perm repoRows')
    (hids : (repoRows.map Row.taskId).Nodup) {seed : ℤ}
    (hrank : Set.InjOn (stableRank sha256 seed "complexity-tie")
      {uid | uid ∈ repoRows.map Row.taskId}) :
    ordered arithmetic sha256 seed repoRows = ordered arithmetic sha256 seed repoRows' := by
  rw [ordered, ordered, orderKey_perm hperm]
  apply sortBy_eq_of_perm hperm
  intro row hrow other hother heq
  have hranks : stableRank sha256 seed "complexity-tie" row.taskId =
      stableRank sha256 seed "complexity-tie" other.taskId :=
    congrArg (fun key => (ofLex key).2) heq
  exact List.inj_on_of_nodup_map hids hrow hother
    (hrank (List.mem_map_of_mem hrow) (List.mem_map_of_mem hother) hranks)

/-- **The bins do not depend on the order of the rows.** -/
theorem complexityBins_perm {repoRows repoRows' : List (Row V)} (hperm : repoRows.Perm repoRows')
    (hids : (repoRows.map Row.taskId).Nodup) {seed : ℤ} {bins : Dict ℕ}
    (hrank : Set.InjOn (stableRank sha256 seed "complexity-tie")
      {uid | uid ∈ repoRows.map Row.taskId})
    (h : complexityBins arithmetic sha256 repoRows seed = .ok bins) :
    complexityBins arithmetic sha256 repoRows' seed = .ok bins := by
  have hnumeric := numeric_of_complexityBins h
  have hids' := (hperm.map Row.taskId).nodup_iff.mp hids
  rw [complexityBins_eq hnumeric hids] at h
  rw [← h, complexityBins_eq (fun row hrow => hnumeric row (hperm.mem_iff.mpr hrow)) hids',
    ordered_perm hperm hids hrank]

end Selection
