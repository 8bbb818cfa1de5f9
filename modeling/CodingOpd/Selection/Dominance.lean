import Mathlib.Analysis.SpecialFunctions.Log.Basic
import CodingOpd.Library.Quantiles
import CodingOpd.Selection.Nested

/-!
# Complexity bins and dominance

The score of a row is the mean of three percentiles, each of which grows with the field. A row that
is at least as large as another one in every field, and larger in one, has the higher score, stands
behind it in the order and is in no lower bin.

## Main results

* `rowScore_lt_of_dominates`: a dominating row has a higher score
* `lookup_binsOf`, `length_stratum_binsOf`: the bin of a row, and the size of a bin
* `complexityBins_dominance`: the bins have their sizes and respect dominance
-/

open Python RankedSort Quantiles

namespace Selection

variable {V K ρ : Type} [Field K] [LinearOrder K] [IsStrictOrderedRing K] [LinearOrder ρ]
variable {arithmetic : Arithmetic K} {sha256 : String → ρ}

/-- The row is at least as large as the other one in every field, and larger in one. -/
def Dominates (row other : Row V) : Prop :=
  (∀ field, amount other field ≤ amount row field) ∧ ∃ field, amount other field < amount row field

/-! ## Scores -/

/-- The numbers are clamped. -/
theorem amount_nonneg (row : Row V) (field : ComplexityField) : 0 ≤ amount row field := by
  unfold amount numeric
  split
  · exact le_rfl
  · exact le_max_left 0 _
  · exact le_rfl

section Percentiles

variable {repoRows : List (Row V)} {row other : Row V} {field : ComplexityField}

theorem percentile_le (hlog : MonotoneOn arithmetic.log1p (Set.Ici 0))
    (h : amount other field ≤ amount row field) :
    percentile arithmetic repoRows other field ≤ percentile arithmetic repoRows row field := by
  unfold percentile
  dsimp only
  apply div_le_div_of_nonneg_right _ (Nat.cast_nonneg _)
  exact Nat.cast_le.mpr
    (countP_le_mono (hlog (amount_nonneg other field) (amount_nonneg row field) h) _)

theorem percentile_lt (hlog : StrictMonoOn arithmetic.log1p (Set.Ici 0)) (hrow : row ∈ repoRows)
    (h : amount other field < amount row field) :
    percentile arithmetic repoRows other field < percentile arithmetic repoRows row field := by
  have hmem : arithmetic.log1p (amount row field) ∈
      sortBy id (repoRows.map fun row => arithmetic.log1p (amount row field)) :=
    mem_sortBy.mpr (List.mem_map_of_mem hrow)
  unfold percentile
  dsimp only
  apply div_lt_div_of_pos_right _ (Nat.cast_pos.mpr (List.length_pos_of_mem hmem))
  exact Nat.cast_lt.mpr (countP_le_lt_countP_le
    (hlog (amount_nonneg other field) (amount_nonneg row field) h) hmem)

/-- **A dominating row has a higher score.** -/
theorem rowScore_lt_of_dominates (hlog : StrictMonoOn arithmetic.log1p (Set.Ici 0))
    (hrow : row ∈ repoRows) (h : Dominates row other) :
    rowScore arithmetic repoRows other < rowScore arithmetic repoRows row := by
  obtain ⟨hall, field, hfield⟩ := h
  have hle : ∀ field ∈ ComplexityField.all, percentile arithmetic repoRows other field ≤
      percentile arithmetic repoRows row field := fun field _ =>
    percentile_le hlog.monotoneOn (hall field)
  have hsum : (ComplexityField.all.map (percentile arithmetic repoRows other)).sum <
      (ComplexityField.all.map (percentile arithmetic repoRows row)).sum :=
    List.sum_lt_sum _ _ hle ⟨field, field.mem_all, percentile_lt hlog hrow hfield⟩
  unfold rowScore
  dsimp only
  rw [List.length_map, List.length_map]
  exact div_lt_div_of_pos_right hsum (by norm_num [ComplexityField.all])

end Percentiles

/-! ## Bins -/

section Bins

variable {rows : List (Row V)}

/-- The bin of a place. -/
theorem min_part {n i : ℕ} (hi : i < n) : min 3 (i * 4 / n) = part 4 n i :=
  min_eq_right (Nat.lt_succ_iff.mp (part_lt (by decide) hi))

/-- **The bin of a row** is the part that its place is in. -/
theorem lookup_binsOf (hids : (rows.map Row.taskId).Nodup) {i : ℕ} {row : Row V}
    (hrow : rows[i]? = some row) :
    (binsOf rows).lookup row.taskId = some (part 4 rows.length i) := by
  obtain ⟨hi, -⟩ := List.getElem?_eq_some_iff.mp hrow
  rw [Dict.lookup_eq_some_iff (keys_binsOf rows ▸ hids), ← min_part hi]
  exact List.mem_map.mpr ⟨(row, i), List.mem_zipIdx_iff_getElem?.mpr hrow, rfl⟩

/-- **The size of a bin** is the number of places in its part. -/
theorem length_stratum_binsOf (rows : List (Row V)) (index : ℕ) :
    (stratum (binsOf rows) index).length =
      ((Finset.range rows.length).filter (part 4 rows.length · = index)).card := by
  have hplaces : ∀ place ∈ rows.zipIdx, min 3 (place.2 * 4 / rows.length) =
      part 4 rows.length place.2 := by
    intro place hplace
    exact min_part (List.snd_lt_of_mem_zipIdx hplace)
  have hcount : (stratum (binsOf rows) index).length =
      rows.zipIdx.countP fun place => part 4 rows.length place.2 = index := by
    rw [stratum, List.length_map, ← List.countP_eq_length_filter, binsOf, List.countP_map]
    apply List.countP_congr
    intro place hplace
    show decide (min 3 (place.2 * 4 / rows.length) = index) = true ↔ _
    rw [hplaces place hplace]
  have hrange : rows.zipIdx.map Prod.snd = List.range rows.length := by
    rw [List.zipIdx_map_snd, List.range_eq_range']
  rw [hcount]
  calc rows.zipIdx.countP (fun place => part 4 rows.length place.2 = index)
      = (rows.zipIdx.map Prod.snd).countP (part 4 rows.length · = index) := by
        rw [List.countP_map]
        rfl
    _ = ((List.range rows.length).filter (part 4 rows.length · = index)).length := by
        rw [hrange, List.countP_eq_length_filter]
    _ = ((Finset.range rows.length).filter (part 4 rows.length · = index)).card := rfl

end Bins

/-- `math.log1p` is strictly increasing. -/
theorem strictMonoOn_log1p : StrictMonoOn Arithmetic.real.log1p (Set.Ici 0) := by
  intro m hm n hn h
  apply Real.log_lt_log
  · have : (0 : ℝ) ≤ m := Int.cast_nonneg hm
    linarith
  · have : (m : ℝ) < n := Int.cast_lt.mpr h
    linarith

/-- **Complexity bins respect dominance.** Every row has one of the four bins, a bin has a quarter
of the rows, rounded down or up, and a row that dominates another one is in no lower bin. -/
theorem complexityBins_dominance (sha256 : String → ρ) {repoRows : List (Row V)}
    (hnumeric : ∀ row ∈ repoRows, row.Numeric) (hids : (repoRows.map Row.taskId).Nodup)
    (seed : ℤ) :
    ∃ bins, complexityBins Arithmetic.real sha256 repoRows seed = .ok bins ∧
      bins.keys.Perm (repoRows.map Row.taskId) ∧
      (∀ row ∈ repoRows, ∃ index < 4, bins.lookup row.taskId = some index) ∧
      (∀ index < 4, (stratum bins index).length = repoRows.length / 4 ∨
        (stratum bins index).length = (repoRows.length + 3) / 4) ∧
      ∀ row ∈ repoRows, ∀ other ∈ repoRows, Dominates row other →
        bins.getD other.taskId 0 ≤ bins.getD row.taskId 0 := by
  set rows := ordered Arithmetic.real sha256 seed repoRows with hrows
  have hperm : rows.Perm repoRows := sortBy_perm _ _
  have hordered : (rows.map Row.taskId).Nodup := (hperm.map Row.taskId).nodup_iff.mpr hids
  have hplace : ∀ row ∈ repoRows, ∃ i, rows[i]? = some row ∧
      (binsOf rows).lookup row.taskId = some (part 4 rows.length i) := by
    intro row hrow
    obtain ⟨i, hi⟩ := List.mem_iff_getElem?.mp (hperm.mem_iff.mpr hrow)
    exact ⟨i, hi, lookup_binsOf hordered hi⟩
  refine ⟨binsOf rows, complexityBins_eq hnumeric hids seed, keys_binsOf_ordered_perm seed repoRows,
    ?_, ?_, ?_⟩
  · intro row hrow
    obtain ⟨i, hi, hbin⟩ := hplace row hrow
    obtain ⟨hlt, -⟩ := List.getElem?_eq_some_iff.mp hi
    exact ⟨_, part_lt (by decide) hlt, hbin⟩
  · intro index hindex
    obtain ⟨hlow, hhigh⟩ := card_part (n := rows.length) hindex
    rw [length_stratum_binsOf, ← hperm.length_eq]
    omega
  · intro row hrow other hother hdominates
    obtain ⟨i, hi, hbin⟩ := hplace row hrow
    obtain ⟨j, hj, hbin'⟩ := hplace other hother
    have hscore := rowScore_lt_of_dominates strictMonoOn_log1p hrow hdominates
    have hkey : orderKey Arithmetic.real sha256 seed repoRows other <
        orderKey Arithmetic.real sha256 seed repoRows row :=
      Prod.Lex.toLex_lt_toLex.mpr (Or.inl hscore)
    have hlt : j < i := index_lt_of_key_lt hj hi hkey
    rw [Dict.getD, Dict.getD, hbin, hbin', Option.getD_some, Option.getD_some]
    exact part_mono 4 rows.length hlt.le

/-- Three rows of one repository, the last of which dominates the first. -/
def dominatedRows : List (Row String) :=
  [exampleRow "pandas" "a1" 3, exampleRow "pandas" "b2" 1, exampleRow "pandas" "c3" 8].filterMap
    RawRow.complete?

theorem complexityBins_dominance_three : ∃ bins,
    complexityBins Arithmetic.real id dominatedRows 42 = .ok bins ∧
      ∀ row ∈ dominatedRows, ∀ other ∈ dominatedRows, Dominates row other →
        bins.getD other.taskId 0 ≤ bins.getD row.taskId 0 := by
  have hnumeric : ∀ row ∈ dominatedRows, row.Numeric := by
    intro row hrow field
    simp only [dominatedRows, List.mem_filterMap, List.mem_cons, List.not_mem_nil, or_false] at hrow
    obtain ⟨raw, rfl | rfl | rfl, hcomplete⟩ := hrow
    · cases hcomplete
      exact ⟨3, rfl⟩
    · cases hcomplete
      exact ⟨1, rfl⟩
    · cases hcomplete
      exact ⟨8, rfl⟩
  obtain ⟨bins, hbins, -, -, -, hdominance⟩ :=
    complexityBins_dominance id hnumeric (by decide) 42
  exact ⟨bins, hbins, hdominance⟩

end Selection
