import Mathlib.Algebra.BigOperators.Group.List.Basic
import CodingOpd.Library.MaximalRuns
import CodingOpd.Python.Values

/-!
# Offsets of packed sequences

The convolution of the training kernels gets the offsets of the sequences that are packed into one
row of tokens. `_seq_idx_to_cu_seqlens` makes them of the IDs that the tokens have, and writes them
as 32-bit integers.

## Main definitions

* `Tensor`: a tensor, by its shape
* `boundaries`, `seqIdxToCuSeqlens`: `_seq_idx_to_cu_seqlens`
* `flaCausalConv1dFn`: `fla_causal_conv1d_fn`
* `IsOffsets`: the offsets of the maximal runs of the IDs

## Main results

* `isRuns_boundaries`: the boundaries between the two ends
* `isOffsets_iff`, `seqIdxToCuSeqlens_isOffsets`: the offsets that have 32 bits
* `flaCausalConv1dFn_isOffsets`: the convolution runs over the sequences
-/

open Python MaximalRuns

namespace Qwen35Kernels

/-- A tensor with its elements in the order of their indices. -/
structure Tensor (α : Type) where
  shape : List ℕ
  data : List α
  length_data : data.length = shape.prod

/-- `torch.nonzero(mask).flatten()` -/
def nonzero (mask : List Bool) : List ℕ :=
  (List.range mask.length).filter fun i => mask[i]? = some true

/-- `tensor.to(torch.int32)` of a 64-bit integer. -/
def toInt32 (n : ℤ) : ℤ := n.bmod (2 ^ 32)

section

variable {ID : Type} [DecidableEq ID]

/-- The places where an ID is not the one before it. -/
def boundaries (ids : List ID) : List ℕ :=
  (nonzero (List.zipWith (fun a b => decide (a ≠ b)) ids.tail ids.dropLast)).map (· + 1)

/-- `_seq_idx_to_cu_seqlens`. -/
def seqIdxToCuSeqlens (seqIdx : Tensor ID) : Except PyError (List ℤ) :=
  match seqIdx.shape with
  | [1, tokenCount] =>
    if tokenCount = 0 then .ok [0]
    else .ok ((0 :: boundaries seqIdx.data ++ [tokenCount]).map fun offset : ℕ => toInt32 offset)
  | _ => .error (.valueError "Expected seq_idx with shape [1, tokens], got ")

/-- `fla_causal_conv1d_fn`, over `Tensor.transpose` and FLA's convolution. -/
def flaCausalConv1dFn {X W B S : Type} (transpose : X → X)
    (causalConv1d : X → W → Option B → Option String → String → Option (List ℤ) → X × S) (x : X)
    (weight : W) (bias : Option B) (activation : Option String) (seqIdx : Option (Tensor ID)) :
    Except PyError X := do
  let cuSeqlens ← seqIdx.mapM seqIdxToCuSeqlens
  let (output, _) := causalConv1d (transpose x) weight bias activation "triton" cuSeqlens
  return transpose output

/-- The offsets of the maximal runs of the IDs. -/
def IsOffsets (ids : List ID) (offsets : List ℤ) : Prop :=
  ∃ runs, IsRuns ids runs ∧ offsets = runs.map (↑)

/-! ## Boundaries -/

theorem mem_nonzero {mask : List Bool} {i : ℕ} : i ∈ nonzero mask ↔ mask[i]? = some true := by
  simp only [nonzero, List.mem_filter, List.mem_range, decide_eq_true_eq, and_iff_right_iff_imp]
  exact fun h => (List.getElem?_eq_some_iff.mp h).1

theorem pairwise_nonzero (mask : List Bool) : (nonzero mask).Pairwise (· < ·) :=
  List.pairwise_lt_range.filter _

/-- A boundary is a break within. -/
theorem mem_boundaries {ids : List ID} {a : ℕ} :
    a ∈ boundaries ids ↔ 0 < a ∧ a < ids.length ∧ Breaks ids a := by
  simp only [boundaries, List.mem_map, mem_nonzero, List.getElem?_zipWith_eq_some,
    List.getElem?_tail, List.getElem?_dropLast, decide_eq_true_eq]
  constructor
  · rintro ⟨i, ⟨id, before, hid, hbefore, hne⟩, rfl⟩
    obtain ⟨hlt, rfl⟩ := List.getElem?_eq_some_iff.mp hid
    rw [if_pos (by omega)] at hbefore
    refine ⟨Nat.succ_pos i, hlt, fun heq => hne ?_⟩
    rw [Nat.add_sub_cancel, hbefore, hid] at heq
    exact (Option.some.inj heq).symm
  · rintro ⟨hpos, hlt, hbreaks⟩
    cases a with
    | zero => exact absurd hpos (lt_irrefl 0)
    | succ i =>
      have hbefore : i < ids.length := (Nat.lt_succ_self i).trans hlt
      refine ⟨i, ⟨ids[i + 1], ids[i], List.getElem?_eq_getElem hlt, ?_, fun heq => hbreaks ?_⟩, rfl⟩
      · rw [if_pos (by omega), List.getElem?_eq_getElem hbefore]
      · rw [Nat.add_sub_cancel, List.getElem?_eq_getElem hlt, List.getElem?_eq_getElem hbefore, heq]

theorem pairwise_boundaries (ids : List ID) : (boundaries ids).Pairwise (· < ·) := by
  rw [boundaries, List.pairwise_map]
  exact (pairwise_nonzero _).imp Nat.succ_lt_succ

/-- **The boundaries between the two ends** are the offsets of the runs. -/
theorem isRuns_boundaries {ids : List ID} (h : 0 < ids.length) :
    IsRuns ids (0 :: boundaries ids ++ [ids.length]) := by
  rw [isRuns_iff]
  refine ⟨?_, fun a => ?_⟩
  · rw [List.cons_append, List.pairwise_cons, List.pairwise_append]
    refine ⟨fun a ha => ?_, pairwise_boundaries ids, List.pairwise_singleton _ _,
      fun a ha b hb => ?_⟩
    · rcases List.mem_append.mp ha with ha | ha
      · exact (mem_boundaries.mp ha).1
      · exact List.mem_singleton.mp ha ▸ h
    · exact List.mem_singleton.mp hb ▸ (mem_boundaries.mp ha).2.1
  · simp only [List.cons_append, List.mem_cons, List.mem_append, mem_boundaries, List.not_mem_nil,
      or_false, IsOffset]
    constructor
    · rintro (rfl | ⟨-, hlt, hbreaks⟩ | rfl)
      · exact ⟨Nat.zero_le _, .inl rfl⟩
      · exact ⟨hlt.le, .inr (.inr hbreaks)⟩
      · exact ⟨le_rfl, .inr (.inl rfl)⟩
    · rintro ⟨hle, hzero | hend | hbreaks⟩
      · exact .inl hzero
      · exact .inr (.inr hend)
      · rcases Nat.eq_zero_or_pos a with hzero | hpos
        · exact .inl hzero
        · rcases Nat.lt_or_eq_of_le hle with hlt | hend
          · exact .inr (.inl ⟨hpos, hlt, hbreaks⟩)
          · exact .inr (.inr hend)

/-! ## Offsets of 32 bits -/

theorem toInt32_of_lt {n : ℕ} (h : n < 2 ^ 31) : toInt32 n = n := by
  simp only [toInt32, Int.bmod]
  omega

theorem toInt32_lt (n : ℤ) : toInt32 n < 2 ^ 31 := by
  simp only [toInt32, Int.bmod]
  omega

/-- **The offsets are those of the runs** when the count of the tokens is a 32-bit integer, and only
then. -/
theorem isOffsets_iff {ids : List ID} (h : 0 < ids.length) :
    IsOffsets ids ((0 :: boundaries ids ++ [ids.length]).map fun offset : ℕ => toInt32 offset) ↔
      ids.length < 2 ^ 31 := by
  constructor
  · rintro ⟨runs, hruns, heq⟩
    -- the last offset of the runs is the length, which the 32-bit one only is when it is small
    have hlast := congrArg List.getLast? heq
    rw [List.getLast?_map, List.getLast?_map, hruns.last, (isRuns_boundaries h).last] at hlast
    have hlength : toInt32 ids.length = ids.length := Option.some.inj hlast
    have hlt := toInt32_lt ids.length
    omega
  · intro hlt
    refine ⟨_, isRuns_boundaries h, List.map_congr_left fun offset hmem => ?_⟩
    exact toInt32_of_lt (((isRuns_boundaries h).mem_iff.mp hmem).1.trans_lt hlt)

/-! ## The function -/

theorem seqIdxToCuSeqlens_eq {seqIdx : Tensor ID} {n : ℕ} (hshape : seqIdx.shape = [1, n])
    (hpos : 0 < n) : seqIdx.data.length = n ∧ seqIdxToCuSeqlens seqIdx =
      .ok ((0 :: boundaries seqIdx.data ++ [n]).map fun offset : ℕ => toInt32 offset) := by
  constructor
  · rw [seqIdx.length_data, hshape, List.prod_cons, List.prod_cons, List.prod_nil, one_mul, mul_one]
  · simp only [seqIdxToCuSeqlens, hshape, if_neg hpos.ne']

/-- **The convolution runs over the sequences** of a row whose count of tokens has 32 bits. -/
theorem flaCausalConv1dFn_isOffsets {X W B S : Type} (transpose : X → X)
    (causalConv1d : X → W → Option B → Option String → String → Option (List ℤ) → X × S) (x : X)
    (weight : W) (bias : Option B) (activation : Option String) {seqIdx : Tensor ID} {n : ℕ}
    (hshape : seqIdx.shape = [1, n]) (hpos : 0 < n) (hlt : n < 2 ^ 31) :
    ∃ offsets, IsOffsets seqIdx.data offsets ∧
      flaCausalConv1dFn transpose causalConv1d x weight bias activation (some seqIdx) =
        .ok (transpose
          (causalConv1d (transpose x) weight bias activation "triton" (some offsets)).1) := by
  obtain ⟨hlength, heq⟩ := seqIdxToCuSeqlens_eq hshape hpos
  subst hlength
  refine ⟨_, (isOffsets_iff hpos).mpr hlt, ?_⟩
  simp only [flaCausalConv1dFn, Option.mapM_some, heq]
  rfl

/-- **Packed-sequence offsets are the maximal runs**, of a row whose count of tokens has 32 bits. -/
theorem seqIdxToCuSeqlens_isOffsets {seqIdx : Tensor ID} {n : ℕ} (hshape : seqIdx.shape = [1, n])
    (hpos : 0 < n) : ∃ offsets, seqIdxToCuSeqlens seqIdx = .ok offsets ∧
      (IsOffsets seqIdx.data offsets ↔ n < 2 ^ 31) := by
  obtain ⟨hlength, heq⟩ := seqIdxToCuSeqlens_eq hshape hpos
  subst hlength
  exact ⟨_, heq, isOffsets_iff hpos⟩

end

/-- Three sequences of two, three and one tokens. -/
def sixTokens : Tensor ℤ := ⟨[1, 6], [0, 0, 1, 1, 1, 4], rfl⟩

example : seqIdxToCuSeqlens sixTokens = .ok [0, 2, 5, 6] := rfl

theorem seqIdxToCuSeqlens_isOffsets_six :
    ∃ offsets, seqIdxToCuSeqlens sixTokens = .ok offsets ∧
      (IsOffsets sixTokens.data offsets ↔ 6 < 2 ^ 31) := by
  have hshape : sixTokens.shape = [1, 6] := rfl
  exact seqIdxToCuSeqlens_isOffsets hshape (by decide)

/-- One sequence of some tokens. -/
def oneSequence (n : ℕ) : Tensor ℤ := ⟨[1, n], List.replicate n 0, by simp⟩

theorem seqIdxToCuSeqlens_oneSequence {n : ℕ} (hpos : 0 < n) :
    seqIdxToCuSeqlens (oneSequence n) = .ok [0, toInt32 n] := by
  have hnone : boundaries (oneSequence n).data = [] := by
    refine List.eq_nil_iff_forall_not_mem.mpr fun a ha => ?_
    obtain ⟨-, hlt, hbreaks⟩ := mem_boundaries.mp ha
    have hbefore : a - 1 < (oneSequence n).data.length := (Nat.sub_le a 1).trans_lt hlt
    refine hbreaks ?_
    rw [List.getElem?_eq_getElem hlt, List.getElem?_eq_getElem hbefore]
    simp only [oneSequence, List.getElem_replicate]
  rw [(seqIdxToCuSeqlens_eq rfl hpos).2, hnone]
  rfl

/-- The end of a sequence of `2 ^ 31` tokens is no 32-bit integer. -/
theorem seqIdxToCuSeqlens_wraps :
    seqIdxToCuSeqlens (oneSequence (2 ^ 31)) = .ok [0, -2147483648] ∧
      ¬ IsOffsets (oneSequence (2 ^ 31)).data [0, -2147483648] := by
  refine ⟨seqIdxToCuSeqlens_oneSequence (by decide), ?_⟩
  rintro ⟨runs, hruns, heq⟩
  have hlast := congrArg List.getLast? heq
  rw [List.getLast?_map, hruns.last] at hlast
  have hend : (-2147483648 : ℤ) = (oneSequence (2 ^ 31)).data.length := Option.some.inj hlast
  omega

end Qwen35Kernels
