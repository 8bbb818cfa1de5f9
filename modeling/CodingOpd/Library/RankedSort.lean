import Mathlib.Data.Finmap
import Mathlib.Data.Finset.Sort
import Mathlib.Data.List.Sort
import Mathlib.Data.Set.Function
import Mathlib.Data.String.Basic

/-!
# Sorting by a key

A stable sort by a key depends on the order of its input only through ties: where the key tells the
elements apart, it gives the same list for every permutation of the input.

## Main definitions

* `sortBy`: the stable sort by a key
* `sortedItems`: the items of a finite map in the order of their keys

## Main results

* `index_lt_of_key_lt`: smaller keys stand before larger ones
* `sortBy_eq_of_perm`: sorting permutations of a list by a key that is injective on it
* `sortedItems_injective`: a finite map is known from its sorted items
-/

namespace RankedSort

variable {α κ : Type*} [LinearOrder κ]

/-- The stable sort of a list by a key. -/
def sortBy (key : α → κ) (xs : List α) : List α := xs.insertionSort fun a b => key a ≤ key b

theorem sortBy_perm (key : α → κ) (xs : List α) : (sortBy key xs).Perm xs :=
  List.perm_insertionSort _ xs

@[simp] theorem mem_sortBy {key : α → κ} {xs : List α} {a : α} : a ∈ sortBy key xs ↔ a ∈ xs :=
  (sortBy_perm key xs).mem_iff

@[simp] theorem length_sortBy (key : α → κ) (xs : List α) : (sortBy key xs).length = xs.length :=
  (sortBy_perm key xs).length_eq

theorem nodup_sortBy {key : α → κ} {xs : List α} : (sortBy key xs).Nodup ↔ xs.Nodup :=
  (sortBy_perm key xs).nodup_iff

theorem pairwise_sortBy (key : α → κ) (xs : List α) :
    (sortBy key xs).Pairwise fun a b => key a ≤ key b := by
  have : Std.Total fun a b : α => key a ≤ key b := ⟨fun a b => le_total (key a) (key b)⟩
  have : IsTrans α fun a b : α => key a ≤ key b := ⟨fun _ _ _ => le_trans⟩
  exact List.pairwise_insertionSort _ xs

/-- An element with a smaller key stands before one with a larger key. -/
theorem index_lt_of_key_lt {key : α → κ} {xs : List α} {i j : ℕ} {a b : α}
    (ha : (sortBy key xs)[i]? = some a) (hb : (sortBy key xs)[j]? = some b) (h : key a < key b) :
    i < j := by
  by_contra hle
  obtain ⟨hi, rfl⟩ := List.getElem?_eq_some_iff.mp ha
  obtain ⟨hj, rfl⟩ := List.getElem?_eq_some_iff.mp hb
  rcases Nat.lt_or_eq_of_le (Nat.le_of_not_lt hle) with hlt | rfl
  · exact absurd (List.pairwise_iff_getElem.mp (pairwise_sortBy key xs) j i hj hi hlt)
      (not_le.mpr h)
  · exact absurd h (lt_irrefl _)

/-- **Sorting does not depend on the order of the input**, where the key is injective. -/
theorem sortBy_eq_of_perm {key : α → κ} {xs ys : List α} (hperm : xs.Perm ys)
    (hinj : Set.InjOn key {a | a ∈ xs}) : sortBy key xs = sortBy key ys := by
  apply ((sortBy_perm key xs).trans (hperm.trans (sortBy_perm key ys).symm)).eq_of_pairwise ?_
    (pairwise_sortBy key xs) (pairwise_sortBy key ys)
  intro a b ha hb hab hba
  exact hinj (mem_sortBy.mp ha) (hperm.mem_iff.mpr (mem_sortBy.mp hb)) (le_antisymm hab hba)

/-- The sort of mapped elements. -/
theorem sortBy_map {β : Type*} (f : β → α) (key : α → κ) (xs : List β) :
    sortBy key (xs.map f) = (sortBy (key ∘ f) xs).map f :=
  (List.map_insertionSort (r := fun a b => (key ∘ f) a ≤ (key ∘ f) b)
    (s := fun a b => key a ≤ key b) f xs fun _ _ _ _ => Iff.rfl).symm

/-! ## Sets of strings -/

instance isTrans_string : IsTrans String (· ≤ ·) := inferInstance

instance antisymm_string : Std.Antisymm fun a b : String => a ≤ b := inferInstance

/-! ## Items of a finite map -/

variable {ι ν : Type*} [DecidableEq ι] {order : ι ≃ κ} {d : Finmap fun _ : ι => ν}

/-- The items of a finite map in the order of their keys, no two of which are the same. -/
def sortedItems (order : ι ≃ κ) (d : Finmap fun _ : ι => ν) : List (ι × ν) :=
  (d.keys.image order).sort.filterMap fun key =>
    (d.lookup (order.symm key)).map (order.symm key, ·)

@[simp] theorem mem_sortedItems {item : ι × ν} :
    item ∈ sortedItems order d ↔ d.lookup item.1 = some item.2 := by
  simp only [sortedItems, List.mem_filterMap, Finset.mem_sort, Finset.mem_image, Finmap.mem_keys,
    Option.map_eq_some_iff]
  constructor
  · rintro ⟨_, ⟨key, -, rfl⟩, value, hvalue, rfl⟩
    exact hvalue
  · intro hvalue
    refine ⟨order item.1, ⟨item.1, Finmap.mem_of_lookup_eq_some hvalue, rfl⟩, item.2, ?_⟩
    rw [order.symm_apply_apply]
    exact ⟨hvalue, rfl⟩

theorem pairwise_sortedItems (order : ι ≃ κ) (d : Finmap fun _ : ι => ν) :
    (sortedItems order d).Pairwise fun a b => order a.1 < order b.1 := by
  refine List.Pairwise.filterMap _ ?_ (Finset.sortedLT_sort _).pairwise
  intro key key' hlt item hitem other hother
  obtain ⟨_, -, rfl⟩ := Option.map_eq_some_iff.mp hitem
  obtain ⟨_, -, rfl⟩ := Option.map_eq_some_iff.mp hother
  simpa only [order.apply_symm_apply] using hlt

/-- **A finite map is known from its sorted items.** -/
theorem sortedItems_injective (order : ι ≃ κ) :
    Function.Injective (sortedItems order : (Finmap fun _ : ι => ν) → List (ι × ν)) := by
  intro d d' heq
  refine Finmap.ext_lookup fun key => Option.ext fun value => ?_
  have hitem : (key, value) ∈ sortedItems order d ↔ (key, value) ∈ sortedItems order d' := by
    rw [heq]
  simpa only [mem_sortedItems] using hitem

end RankedSort
