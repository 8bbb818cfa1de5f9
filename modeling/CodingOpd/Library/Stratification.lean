import Mathlib.Algebra.BigOperators.Group.Finset.Basic
import CodingOpd.Library.RankedSort

/-!
# Stratified selection

From every stratum of a population, the first elements in the order of a rank are selected, as many
as the quota of the stratum says. Counted by strata, the selection meets the quotas exactly, and
larger quotas select more of the same elements.

## Main definitions

* `top`: the first elements of a stratum
* `select`: the selection from all strata
* `Stratified`: what the strata of a classification are

## Main results

* `card_filter_select`: how many elements are selected from given strata
* `select_mono`: larger quotas select more
-/

open RankedSort

namespace Stratification

variable {α κ ρ : Type*} [LinearOrder ρ]

/-- The first elements of a stratum, in the order of a rank. -/
def top (rank : α → ρ) (stratum : List α) (quota : ℕ) : List α := (sortBy rank stratum).take quota

theorem mem_of_mem_top {rank : α → ρ} {stratum : List α} {quota : ℕ} {a : α}
    (h : a ∈ top rank stratum quota) : a ∈ stratum :=
  mem_sortBy.mp (List.mem_of_mem_take h)

theorem nodup_top {rank : α → ρ} {stratum : List α} (h : stratum.Nodup) (quota : ℕ) :
    (top rank stratum quota).Nodup :=
  (nodup_sortBy.mpr h).sublist (List.take_sublist _ _)

theorem length_top (rank : α → ρ) {stratum : List α} {quota : ℕ} (h : quota ≤ stratum.length) :
    (top rank stratum quota).length = quota := by
  rw [top, List.length_take, length_sortBy, min_eq_left h]

theorem top_subset (rank : α → ρ) (stratum : List α) {quota quota' : ℕ} (h : quota ≤ quota') :
    top rank stratum quota ⊆ top rank stratum quota' :=
  (List.take_sublist_take_left h).subset

/-- The strata of a classification list elements of their class, without repetitions. -/
structure Stratified (classOf : α → κ) (stratum : κ → List α) (strata : Finset κ) : Prop where
  nodup : ∀ k ∈ strata, (stratum k).Nodup
  classOf_eq : ∀ k ∈ strata, ∀ a ∈ stratum k, classOf a = k

theorem Stratified.mono {classOf : α → κ} {stratum : κ → List α}
    {strata strata' : Finset κ} (hstrata : Stratified classOf stratum strata)
    (hsub : strata' ⊆ strata) : Stratified classOf stratum strata' where
  nodup k hk := hstrata.nodup k (hsub hk)
  classOf_eq k hk := hstrata.classOf_eq k (hsub hk)

variable [DecidableEq α]

/-- The selection from all strata. -/
def select (rank : α → ρ) (stratum : κ → List α) (quota : κ → ℕ) (strata : Finset κ) : Finset α :=
  strata.biUnion fun k => (top rank (stratum k) (quota k)).toFinset

variable {rank : α → ρ} {stratum : κ → List α} {quota quota' : κ → ℕ} {strata : Finset κ}

theorem mem_select {a : α} :
    a ∈ select rank stratum quota strata ↔ ∃ k ∈ strata, a ∈ top rank (stratum k) (quota k) := by
  rw [select, Finset.mem_biUnion]
  simp only [List.mem_toFinset]

/-- Larger quotas select more. -/
theorem select_mono (h : ∀ k ∈ strata, quota k ≤ quota' k) :
    select rank stratum quota strata ⊆ select rank stratum quota' strata := by
  intro a ha
  obtain ⟨k, hk, ha⟩ := mem_select.mp ha
  exact mem_select.mpr ⟨k, hk, top_subset rank (stratum k) (h k hk) ha⟩

variable {classOf : α → κ}

/-- The selected elements of some classes are the selection from their strata. -/
theorem filter_select (hstrata : Stratified classOf stratum strata) (P : κ → Prop)
    [DecidablePred P] : (select rank stratum quota strata).filter (fun a => P (classOf a)) =
      select rank stratum quota (strata.filter P) := by
  ext a
  rw [Finset.mem_filter, mem_select, mem_select]
  constructor
  · rintro ⟨⟨k, hk, ha⟩, hP⟩
    rw [hstrata.classOf_eq k hk a (mem_of_mem_top ha)] at hP
    exact ⟨k, Finset.mem_filter.mpr ⟨hk, hP⟩, ha⟩
  · rintro ⟨k, hk, ha⟩
    obtain ⟨hk, hP⟩ := Finset.mem_filter.mp hk
    rw [hstrata.classOf_eq k hk a (mem_of_mem_top ha)]
    exact ⟨⟨k, hk, ha⟩, hP⟩

/-- Where the strata have enough elements, the quotas add up to the selection. -/
theorem card_select (hstrata : Stratified classOf stratum strata)
    (hquota : ∀ k ∈ strata, quota k ≤ (stratum k).length) :
    (select rank stratum quota strata).card = ∑ k ∈ strata, quota k := by
  rw [select, Finset.card_biUnion]
  · apply Finset.sum_congr rfl
    intro k hk
    rw [List.toFinset_card_of_nodup (nodup_top (hstrata.nodup k hk) _),
      length_top rank (hquota k hk)]
  · -- an element of two strata is of the class of both
    intro k hk k' hk' hne
    apply Finset.disjoint_left.mpr
    intro a ha ha'
    have hclass := hstrata.classOf_eq k hk a (mem_of_mem_top (List.mem_toFinset.mp ha))
    have hclass' := hstrata.classOf_eq k' hk' a (mem_of_mem_top (List.mem_toFinset.mp ha'))
    exact hne (hclass.symm.trans hclass')

/-- **The selection meets the quotas** of any classes. -/
theorem card_filter_select (hstrata : Stratified classOf stratum strata)
    (hquota : ∀ k ∈ strata, quota k ≤ (stratum k).length) (P : κ → Prop) [DecidablePred P] :
    ((select rank stratum quota strata).filter fun a => P (classOf a)).card =
      ∑ k ∈ strata with P k, quota k := by
  rw [filter_select hstrata, card_select (hstrata.mono (Finset.filter_subset P strata))]
  exact fun k hk => hquota k (Finset.mem_of_mem_filter k hk)

end Stratification
