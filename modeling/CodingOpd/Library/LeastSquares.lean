import Mathlib.Tactic.LinearCombination
import CodingOpd.Library.Apportionment

/-!
# Apportionment by least squares

When every unit goes to a key with the largest deficit, the quotas are as close to the exact shares
as any others with the same total under the same capacities. The deficits stay *level*: a key with
room is behind its share by no more than some bound, and one with a unit was behind by at least that
bound before it got the unit. Where no capacity binds, the rounded shares get one more unit each in
the order of their fractional parts.

## Main definitions

* `Largest`: each time, the key with the largest deficit is selected, the smaller one of two
* `squares`: the squared distance of quotas from the exact shares
* `Level`: the deficits that keys with room have, against those of keys with a unit
* `Extra`: the keys that are one unit above their rounded share

## Main results

* `fill_induction`: what one unit keeps, the run keeps
* `Level.squares_le`: level quotas are a least-squares solution
* `Largest.level_fill`: handing out units keeps the quotas level
* `Largest.extra_fill`: where no capacity binds, the extra units go to the largest fractional parts
* `Extra.unique`: then the largest fractional parts decide the quotas
-/

namespace Apportionment

variable {κ K : Type*}

section Induction

variable [DecidableEq κ] {select : (κ → ℤ) → List κ → Option κ} {keys : List κ}
variable {capacity : κ → ℤ}

/-- **What every unit keeps** holds when all of them are handed out. -/
theorem fill_induction {P : ℕ → (κ → ℤ) → Prop}
    (hstep : ∀ remaining quotas key, P (remaining + 1) quotas →
      select quotas (keys.filter fun key => quotas key < capacity key) = some key →
      P remaining (Function.update quotas key (quotas key + 1)))
    {remaining : ℕ} {quotas filled : κ → ℤ} (hP : P remaining quotas)
    (hfill : fill select keys capacity remaining quotas = some filled) : P 0 filled := by
  induction remaining generalizing quotas with
  | zero =>
    rw [fill, Option.some.injEq] at hfill
    exact hfill ▸ hP
  | succ remaining ih =>
    rw [fill] at hfill
    split at hfill
    case h_1 => cases hfill
    case h_2 key hselect => exact ih (hstep remaining quotas key hP hselect) hfill

end Induction

variable [Field K] [LinearOrder K] [IsStrictOrderedRing K]
variable {exact : κ → K} {quotas other capacity : κ → ℤ} {keys : List κ}

/-- How far a key is behind its exact share. -/
def deficit (exact : κ → K) (quotas : κ → ℤ) (key : κ) : K := exact key - quotas key

/-- The squared distance of quotas from the exact shares. -/
def squares (keys : List κ) (exact : κ → K) (quotas : κ → ℤ) : K :=
  (keys.map fun key => ((quotas key : K) - exact key) ^ 2).sum

/-- No key with room is behind by more than the bound; no key with a unit would be behind by less,
were the unit taken from it. -/
structure Level (keys : List κ) (capacity : κ → ℤ) (exact : κ → K) (bound : K) (quotas : κ → ℤ) :
    Prop where
  room : ∀ key ∈ keys, quotas key < capacity key → deficit exact quotas key ≤ bound
  unit : ∀ key ∈ keys, bound ≤ deficit exact quotas key + 1

/-- Whole units away from level quotas are paid for: each unit weighs `1 - 2 * bound` on the side
that has it. -/
theorem Level.square_le {bound : K} (hlevel : Level keys capacity exact bound quotas) {key : κ}
    (hkey : key ∈ keys) (hcap : other key ≤ capacity key) :
    ((quotas key : K) - exact key) ^ 2 + (1 - 2 * bound) * other key ≤
      ((other key : K) - exact key) ^ 2 + (1 - 2 * bound) * quotas key := by
  have hroom := hlevel.room key hkey
  have hunit := hlevel.unit key hkey
  unfold deficit at hroom hunit
  -- the difference of the sides is the change times a factor of the same sign
  have hfactor : ((other key : K) - exact key) ^ 2 + (1 - 2 * bound) * quotas key -
      (((quotas key : K) - exact key) ^ 2 + (1 - 2 * bound) * other key) =
      ((other key : K) - quotas key) *
        ((other key : K) - quotas key - 2 * (exact key - quotas key) + 2 * bound - 1) := by
    ring
  rw [← sub_nonneg, hfactor]
  rcases lt_trichotomy (other key) (quotas key) with hless | hsame | hmore
  · have hone : (other key : K) + 1 ≤ quotas key := by exact_mod_cast hless
    apply mul_nonneg_of_nonpos_of_nonpos
    · linarith
    · linarith
  · rw [hsame, sub_self, zero_mul]
  · have hone : (quotas key : K) + 1 ≤ other key := by exact_mod_cast hmore
    have hbound := hroom (lt_of_lt_of_le hmore hcap)
    apply mul_nonneg
    · linarith
    · linarith

/-- **Level quotas are a least-squares solution** among those with the same total. -/
theorem Level.squares_le {bound : K} (hlevel : Level keys capacity exact bound quotas)
    (hcap : ∀ key ∈ keys, other key ≤ capacity key)
    (hsum : (keys.map other).sum = (keys.map quotas).sum) :
    squares keys exact quotas ≤ squares keys exact other := by
  have hle : (keys.map fun key =>
      ((quotas key : K) - exact key) ^ 2 + (1 - 2 * bound) * other key).sum ≤
      (keys.map fun key =>
        ((other key : K) - exact key) ^ 2 + (1 - 2 * bound) * quotas key).sum :=
    List.sum_le_sum fun key hkey => hlevel.square_le hkey (hcap key hkey)
  have hcast : (keys.map fun key => (other key : K)).sum =
      (keys.map fun key => (quotas key : K)).sum := by
    have := congrArg (Int.cast : ℤ → K) hsum
    rwa [cast_sum_map, cast_sum_map] at this
  rw [List.sum_map_add, List.sum_map_add, List.sum_map_mul_left, List.sum_map_mul_left,
    hcast] at hle
  exact le_of_add_le_add_right hle

omit [IsStrictOrderedRing K] in
/-- Only the quotas of the keys count. -/
theorem Level.congr {bound : K} (hlevel : Level keys capacity exact bound quotas)
    (heq : ∀ key ∈ keys, other key = quotas key) : Level keys capacity exact bound other := by
  constructor
  · intro key hkey
    rw [deficit, heq key hkey]
    exact hlevel.room key hkey
  · intro key hkey
    rw [deficit, heq key hkey]
    exact hlevel.unit key hkey

/-- Rounded shares are level: those with room are behind by less than one unit. -/
theorem level_floor [FloorRing K] :
    Level keys capacity exact 1 fun key => min (capacity key) ⌊exact key⌋ := by
  constructor
  · intro key _ hroom
    have hfloor : min (capacity key) ⌊exact key⌋ = ⌊exact key⌋ := by omega
    rw [deficit, hfloor]
    linarith [Int.lt_floor_add_one (exact key)]
  · intro key _
    have hle : ((min (capacity key) ⌊exact key⌋ : ℤ) : K) ≤ exact key :=
      le_trans (Int.cast_le.mpr (min_le_right _ _)) (Int.floor_le _)
    rw [deficit]
    linarith

section Largest

variable [LinearOrder κ] {select : (κ → ℤ) → List κ → Option κ}

/-- The key that is selected has the largest deficit, and is the smallest of those that have it. -/
def Largest (exact : κ → K) (select : (κ → ℤ) → List κ → Option κ) : Prop :=
  ∀ quotas candidates key, select quotas candidates = some key → key ∈ candidates ∧
    ∀ other ∈ candidates, deficit exact quotas other < deficit exact quotas key ∨
      deficit exact quotas other = deficit exact quotas key ∧ key ≤ other

omit [LinearOrder K] [IsStrictOrderedRing K] in
theorem deficit_update_self (quotas : κ → ℤ) (key : κ) :
    deficit exact (Function.update quotas key (quotas key + 1)) key =
      deficit exact quotas key - 1 := by
  rw [deficit, deficit, Function.update_self]
  push_cast
  ring

omit [LinearOrder K] [IsStrictOrderedRing K] in
theorem deficit_update_of_ne (quotas : κ → ℤ) {key other : κ} (hne : other ≠ key) :
    deficit exact (Function.update quotas key (quotas key + 1)) other =
      deficit exact quotas other := by
  rw [deficit, deficit, Function.update_of_ne hne]

/-- One unit keeps the quotas level, at the deficit of the key that gets it. -/
theorem Largest.level_update (hselect : Largest exact select) {bound : K}
    (hlevel : Level keys capacity exact bound quotas) {key : κ}
    (h : select quotas (keys.filter fun key => quotas key < capacity key) = some key) :
    Level keys capacity exact (deficit exact quotas key)
      (Function.update quotas key (quotas key + 1)) := by
  obtain ⟨hmem, hlargest⟩ := hselect _ _ _ h
  obtain ⟨hkey, hfree⟩ := List.mem_filter.mp hmem
  have hbound : deficit exact quotas key ≤ bound := hlevel.room key hkey (of_decide_eq_true hfree)
  constructor
  · intro other hother hroom
    rcases eq_or_ne other key with rfl | hne
    · rw [deficit_update_self]
      linarith
    · rw [Function.update_of_ne hne] at hroom
      rw [deficit_update_of_ne quotas hne]
      rcases hlargest other (List.mem_filter.mpr ⟨hother, decide_eq_true hroom⟩) with hlt | heq
      · exact hlt.le
      · exact heq.1.le
  · intro other hother
    rcases eq_or_ne other key with rfl | hne
    · rw [deficit_update_self, sub_add_cancel]
    · rw [deficit_update_of_ne quotas hne]
      exact le_trans hbound (hlevel.unit other hother)

/-- **Handing out units keeps the quotas level.** -/
theorem Largest.level_fill (hselect : Largest exact select) {bound : K}
    (hlevel : Level keys capacity exact bound quotas) {remaining : ℕ} {filled : κ → ℤ}
    (hfill : fill select keys capacity remaining quotas = some filled) :
    ∃ bound, Level keys capacity exact bound filled := by
  refine fill_induction (P := fun _ quotas => ∃ bound, Level keys capacity exact bound quotas)
    ?_ ⟨bound, hlevel⟩ hfill
  intro remaining quotas key ⟨bound, hlevel⟩ h
  exact ⟨_, hselect.level_update hlevel h⟩

/-- Every key has its rounded share or one unit more; those with one more come first in the order of
the fractional parts, the smaller one of two; the units that remain are what is missing. -/
structure Extra [FloorRing K] (keys : List κ) (exact : κ → K) (remaining : ℕ) (quotas : κ → ℤ) :
    Prop where
  floor_or_succ : ∀ key ∈ keys, quotas key = ⌊exact key⌋ ∨ quotas key = ⌊exact key⌋ + 1
  before : ∀ first ∈ keys, ∀ second ∈ keys, quotas first = ⌊exact first⌋ + 1 →
    quotas second = ⌊exact second⌋ → Int.fract (exact second) < Int.fract (exact first) ∨
      Int.fract (exact second) = Int.fract (exact first) ∧ first < second
  sum_exact : (keys.map exact).sum = (keys.map fun key => (quotas key : K)).sum + remaining

section Extra

variable [FloorRing K] {remaining : ℕ}

/-- While units remain, some key is behind its share. -/
theorem Extra.exists_behind (hextra : Extra keys exact (remaining + 1) quotas) :
    ∃ key ∈ keys, 0 < deficit exact quotas key := by
  by_contra hnone
  push Not at hnone
  have hle : (keys.map exact).sum ≤ (keys.map fun key => (quotas key : K)).sum :=
    List.sum_le_sum fun key hkey => by
      have := hnone key hkey
      rw [deficit] at this
      linarith
  have hsum := hextra.sum_exact
  push_cast at hsum
  have hnonneg : (0 : K) ≤ remaining := Nat.cast_nonneg remaining
  linarith

/-- A key that is behind its share has no extra unit yet. -/
theorem Extra.floor_of_behind (hextra : Extra keys exact remaining quotas) {key : κ}
    (hkey : key ∈ keys) (hbehind : 0 < deficit exact quotas key) : quotas key = ⌊exact key⌋ := by
  rcases hextra.floor_or_succ key hkey with hfloor | hsucc
  · exact hfloor
  · rw [deficit, hsucc] at hbehind
    push_cast at hbehind
    linarith [Int.lt_floor_add_one (exact key)]

/-- Where the capacities leave every key its exact share, a key that is selected while units remain
is behind its share. -/
theorem Extra.selected_behind (hextra : Extra keys exact (remaining + 1) quotas)
    (hselect : Largest exact select) (hfit : ∀ key ∈ keys, exact key ≤ capacity key) {key : κ}
    (h : select quotas (keys.filter fun key => quotas key < capacity key) = some key) :
    0 < deficit exact quotas key := by
  obtain ⟨behind, hmem, hpos⟩ := hextra.exists_behind
  have hroom : quotas behind < capacity behind := by
    have hlt : (quotas behind : K) < capacity behind := by
      have := hfit behind hmem
      rw [deficit] at hpos
      linarith
    exact_mod_cast hlt
  rcases (hselect _ _ _ h).2 behind (List.mem_filter.mpr ⟨hmem, decide_eq_true hroom⟩) with
    hlt | heq
  · exact lt_trans hpos hlt
  · exact heq.1 ▸ hpos

/-- One extra unit goes to the largest fractional part that has none. -/
theorem Extra.update (hextra : Extra keys exact (remaining + 1) quotas) (hnodup : keys.Nodup)
    (hselect : Largest exact select) (hfit : ∀ key ∈ keys, exact key ≤ capacity key) {key : κ}
    (h : select quotas (keys.filter fun key => quotas key < capacity key) = some key) :
    Extra keys exact remaining (Function.update quotas key (quotas key + 1)) := by
  obtain ⟨hmem, hlargest⟩ := hselect _ _ _ h
  have hkey : key ∈ keys := (List.mem_filter.mp hmem).1
  have hbehind := hextra.selected_behind hselect hfit h
  -- the selected key has its floor, so its deficit is the fractional part of its share
  have hfloor := hextra.floor_of_behind hkey hbehind
  have hfract : deficit exact quotas key = Int.fract (exact key) := by rw [deficit, hfloor]; rfl
  refine ⟨?_, ?_, ?_⟩
  · intro other hother
    rcases eq_or_ne other key with rfl | hne
    · rw [Function.update_self, hfloor]
      exact Or.inr rfl
    · rw [Function.update_of_ne hne]
      exact hextra.floor_or_succ other hother
  · intro first hfirst second hsecond hextraFirst hfloorSecond
    have hne : second ≠ key := by
      rintro rfl
      rw [Function.update_self] at hfloorSecond
      omega
    rw [Function.update_of_ne hne] at hfloorSecond
    rcases eq_or_ne first key with rfl | hneFirst
    · have hfractSecond : deficit exact quotas second = Int.fract (exact second) := by
        rw [deficit, hfloorSecond]
        rfl
      by_cases hroom : quotas second < capacity second
      · -- the selected key precedes one with room by its larger part or by the tie-break
        rcases hlargest second (List.mem_filter.mpr ⟨hsecond, decide_eq_true hroom⟩) with hlt | heq
        · rw [hfractSecond, hfract] at hlt
          exact Or.inl hlt
        · rw [hfractSecond, hfract] at heq
          exact Or.inr ⟨heq.1, lt_of_le_of_ne heq.2 hne.symm⟩
      · -- a key without room has its whole share
        have hfull : (capacity second : K) ≤ quotas second := Int.cast_le.mpr (not_lt.mp hroom)
        have hnone : deficit exact quotas second ≤ 0 := by
          have := hfit second hsecond
          rw [deficit]
          linarith
        rw [hfractSecond] at hnone
        rw [hfract] at hbehind
        exact Or.inl (lt_of_le_of_lt hnone hbehind)
    · rw [Function.update_of_ne hneFirst] at hextraFirst
      exact hextra.before first hfirst second hsecond hextraFirst hfloorSecond
  · have hsum := congrArg (Int.cast : ℤ → K) (sum_map_update hnodup hkey quotas)
    rw [cast_sum_map, Int.cast_add, cast_sum_map, Int.cast_one] at hsum
    rw [hextra.sum_exact, hsum]
    push_cast
    ring

/-- **Where no capacity binds, the extra units go to the largest fractional parts.** -/
theorem Largest.extra_fill (hselect : Largest exact select) (hnodup : keys.Nodup)
    (hfit : ∀ key ∈ keys, exact key ≤ capacity key)
    (hfloor : ∀ key ∈ keys, quotas key = ⌊exact key⌋)
    (hsum : (keys.map exact).sum = (keys.map fun key => (quotas key : K)).sum + remaining)
    {filled : κ → ℤ} (hfill : fill select keys capacity remaining quotas = some filled) :
    Extra keys exact 0 filled := by
  refine fill_induction ?_ (Extra.mk ?_ ?_ hsum) hfill
  · intro remaining quotas key hextra h
    exact hextra.update hnodup hselect hfit h
  · intro key hkey
    exact Or.inl (hfloor key hkey)
  · intro first hfirst second _ hextra _
    have := hfloor first hfirst
    omega

omit [IsStrictOrderedRing K] in
/-- Only the quotas of the keys count. -/
theorem Extra.congr (hextra : Extra keys exact remaining quotas)
    (heq : ∀ key ∈ keys, other key = quotas key) : Extra keys exact remaining other := by
  refine ⟨?_, ?_, ?_⟩
  · intro key hkey
    rw [heq key hkey]
    exact hextra.floor_or_succ key hkey
  · intro first hfirst second hsecond
    rw [heq first hfirst, heq second hsecond]
    exact hextra.before first hfirst second hsecond
  · rw [hextra.sum_exact]
    congr 2
    apply List.map_congr_left
    intro key hkey
    rw [heq key hkey]

omit [IsStrictOrderedRing K] in
/-- The order of the keys does not count. -/
theorem Extra.perm {keys' : List κ} (hextra : Extra keys exact remaining quotas)
    (hperm : keys.Perm keys') : Extra keys' exact remaining quotas := by
  refine ⟨?_, ?_, ?_⟩
  · intro key hkey
    exact hextra.floor_or_succ key (hperm.mem_iff.mpr hkey)
  · intro first hfirst second hsecond
    exact hextra.before first (hperm.mem_iff.mpr hfirst) second (hperm.mem_iff.mpr hsecond)
  · rw [← (hperm.map _).sum_eq, ← (hperm.map _).sum_eq]
    exact hextra.sum_exact

/-- Quotas that have handed out all units are somewhere larger where they are somewhere smaller. -/
theorem Extra.exists_lt (hextra : Extra keys exact 0 quotas) (hother : Extra keys exact 0 other)
    (hne : ∃ key ∈ keys, quotas key ≠ other key) : ∃ key ∈ keys, quotas key < other key := by
  by_contra hnone
  push Not at hnone
  obtain ⟨key, hkey, hne⟩ := hne
  have hlt : (keys.map fun key => (other key : K)).sum <
      (keys.map fun key => (quotas key : K)).sum :=
    List.sum_lt_sum _ _ (fun key hkey => Int.cast_le.mpr (hnone key hkey))
      ⟨key, hkey, Int.cast_lt.mpr (lt_of_le_of_ne (hnone key hkey) hne.symm)⟩
  have hsum := hextra.sum_exact
  rw [hother.sum_exact] at hsum
  exact hlt.ne (add_right_cancel hsum)

/-- **The largest fractional parts decide the quotas.** -/
theorem Extra.unique (hextra : Extra keys exact 0 quotas) (hother : Extra keys exact 0 other) :
    ∀ key ∈ keys, quotas key = other key := by
  by_contra hdiffer
  push Not at hdiffer
  obtain ⟨less, hless, hlt⟩ := hextra.exists_lt hother hdiffer
  obtain ⟨more, hmore, hgt⟩ := hother.exists_lt hextra
    (hdiffer.imp fun key h => ⟨h.1, h.2.symm⟩)
  have hlessCases := hextra.floor_or_succ less hless
  have hlessCases' := hother.floor_or_succ less hless
  have hmoreCases := hextra.floor_or_succ more hmore
  have hmoreCases' := hother.floor_or_succ more hmore
  have hbefore := hextra.before more hmore less hless (by omega) (by omega)
  have hbefore' := hother.before less hless more hmore (by omega) (by omega)
  rcases hbefore with hfract | ⟨heq, hkeys⟩
  · rcases hbefore' with hfract' | ⟨heq', -⟩
    · exact lt_asymm hfract hfract'
    · exact hfract.ne heq'.symm
  · rcases hbefore' with hfract' | ⟨-, hkeys'⟩
    · exact hfract'.ne heq.symm
    · exact lt_asymm hkeys hkeys'

omit [IsStrictOrderedRing K] in
/-- One unit for each of the first keys, in the order of the fractional parts, is what the missing
units come to. -/
theorem extra_of_take {order : List κ} {floors : κ → ℤ} (hperm : order.Perm keys)
    (hnodup : keys.Nodup) (hfloor : ∀ key ∈ keys, floors key = ⌊exact key⌋)
    (hsorted : order.Pairwise fun first second =>
      Int.fract (exact second) < Int.fract (exact first) ∨
        Int.fract (exact second) = Int.fract (exact first) ∧ first ≤ second)
    (hle : remaining ≤ order.length)
    (hsum : (keys.map exact).sum = (keys.map fun key => (floors key : K)).sum + remaining) :
    Extra keys exact 0 fun key =>
      if key ∈ order.take remaining then floors key + 1 else floors key := by
  have hnodup' : order.Nodup := hperm.nodup_iff.mpr hnodup
  refine ⟨?_, ?_, ?_⟩
  · intro key hkey
    rw [hfloor key hkey]
    split
    · exact Or.inr rfl
    · exact Or.inl rfl
  · intro first hfirst second hsecond hextra hnone
    have htaken : first ∈ order.take remaining := by
      by_contra hnot
      rw [if_neg hnot, hfloor first hfirst] at hextra
      omega
    have hleft : second ∉ order.take remaining := by
      intro hmem
      rw [if_pos hmem, hfloor second hsecond] at hnone
      omega
    have hne : first ≠ second := fun heq => hleft (heq ▸ htaken)
    have hdrop : second ∈ order.drop remaining := by
      have hmem := hperm.mem_iff.mpr hsecond
      rw [← List.take_append_drop remaining order] at hmem
      exact (List.mem_append.mp hmem).resolve_left hleft
    rw [← List.take_append_drop remaining order] at hsorted
    rcases (List.pairwise_append.mp hsorted).2.2 first htaken second hdrop with hlt | ⟨heq, hle⟩
    · exact Or.inl hlt
    · exact Or.inr ⟨heq, lt_of_le_of_ne hle hne⟩
  · have htotal := congrArg (Int.cast : ℤ → K) (sum_map_take_succ hnodup' hle floors)
    rw [cast_sum_map, Int.cast_add, cast_sum_map, Int.cast_natCast] at htotal
    rw [hsum, ← (hperm.map _).sum_eq, ← (hperm.map _).sum_eq, Nat.cast_zero, add_zero]
    exact htotal.symm

end Extra

end Largest

end Apportionment
