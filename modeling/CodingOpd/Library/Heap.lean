import Mathlib.Data.List.Forall2

/-!
# Heaps

Objects at addresses, in the order in which they were made. Code that writes only to objects that it
has made itself keeps those of its caller, whatever refers to them.

## Main definitions

* `Heap.alloc`, `Heap.read`, `Heap.write`: a new object, and what an address holds
* `Heap.Keeps`: the objects of one heap are in the other as they were
* `Heap.Related`: two heaps whose objects are related, address by address

## Main results

* `Heap.Keeps.alloc`, `Heap.Keeps.write`: what keeps the objects of a heap
* `Heap.Related.alloc`, `Heap.Related.write`: what keeps two heaps related
-/

/-- Objects by their addresses. -/
structure Heap (α : Type*) where
  cells : List α

namespace Heap

variable {α : Type*}

/-- The first address that no object has. -/
def next (h : Heap α) : ℕ := h.cells.length

/-- A new object, at the next address. -/
def alloc (h : Heap α) (cell : α) : Heap α := ⟨h.cells ++ [cell]⟩

def read (h : Heap α) (address : ℕ) : Option α := h.cells[address]?

def write (h : Heap α) (address : ℕ) (cell : α) : Heap α := ⟨h.cells.set address cell⟩

/-- The objects of a heap, unchanged in another one. -/
def Keeps (h h' : Heap α) : Prop := h.cells <+: h'.cells

@[simp] theorem next_alloc (h : Heap α) (cell : α) : (h.alloc cell).next = h.next + 1 :=
  List.length_append

@[simp] theorem next_write (h : Heap α) (address : ℕ) (cell : α) :
    (h.write address cell).next = h.next :=
  List.length_set

@[simp] theorem read_alloc_next (h : Heap α) (cell : α) : (h.alloc cell).read h.next = some cell :=
  List.getElem?_concat_length

theorem lt_next_of_read {h : Heap α} {address : ℕ} {cell : α} (hread : h.read address = some cell) :
    address < h.next :=
  (List.getElem?_eq_some_iff.mp hread).1

theorem read_write_self {h : Heap α} {address : ℕ} (hlt : address < h.next) (cell : α) :
    (h.write address cell).read address = some cell :=
  List.getElem?_set_self hlt

theorem read_write_of_ne (h : Heap α) {address other : ℕ} (hne : address ≠ other) (cell : α) :
    (h.write address cell).read other = h.read other :=
  List.getElem?_set_ne hne

/-- What is read behind an allocation. -/
theorem read_alloc_cases {h : Heap α} {cell other : α} {address : ℕ}
    (hread : (h.alloc cell).read address = some other) :
    h.read address = some other ∨ address = h.next ∧ other = cell := by
  rcases Nat.lt_or_ge address h.next with hlt | hge
  · left
    rwa [read, alloc, List.getElem?_append_left hlt] at hread
  · right
    have heq : address = h.next := by
      have hlt := lt_next_of_read hread
      rw [next_alloc] at hlt
      omega
    rw [heq, read_alloc_next, Option.some_inj] at hread
    exact ⟨heq, hread.symm⟩

/-- What is read behind a write. -/
theorem read_write_cases {h : Heap α} {address other : ℕ} {cell cell' : α}
    (hread : (h.write address cell).read other = some cell') :
    other = address ∧ cell' = cell ∨ other ≠ address ∧ h.read other = some cell' := by
  rcases eq_or_ne other address with rfl | hne
  · have hlt := lt_next_of_read hread
    rw [next_write] at hlt
    rw [read_write_self hlt, Option.some_inj] at hread
    exact .inl ⟨rfl, hread.symm⟩
  · rw [read_write_of_ne _ hne.symm] at hread
    exact .inr ⟨hne, hread⟩

/-- To write what is there changes nothing. -/
theorem write_of_read {h : Heap α} {address : ℕ} {cell : α} (hread : h.read address = some cell) :
    h.write address cell = h := by
  obtain ⟨hlt, rfl⟩ := List.getElem?_eq_some_iff.mp hread
  exact congrArg Heap.mk (List.set_getElem_self hlt)

namespace Keeps

variable {h h' h'' : Heap α}

theorem refl (h : Heap α) : h.Keeps h := List.prefix_rfl

theorem trans (hkeeps : h.Keeps h') (hkeeps' : h'.Keeps h'') : h.Keeps h'' :=
  List.IsPrefix.trans hkeeps hkeeps'

theorem next_le (hkeeps : h.Keeps h') : h.next ≤ h'.next := List.IsPrefix.length_le hkeeps

theorem read (hkeeps : h.Keeps h') {address : ℕ} {cell : α} (hread : h.read address = some cell) :
    h'.read address = some cell := by
  obtain ⟨rest, heq⟩ := hkeeps
  rw [Heap.read, ← heq, List.getElem?_append_left (lt_next_of_read hread)]
  exact hread

theorem alloc (hkeeps : h.Keeps h') (cell : α) : h.Keeps (h'.alloc cell) :=
  List.IsPrefix.trans hkeeps (List.prefix_append _ _)

/-- A write to an object that was made later. -/
theorem write (hkeeps : h.Keeps h') {address : ℕ} (hle : h.next ≤ address) (cell : α) :
    h.Keeps (h'.write address cell) := by
  obtain ⟨rest, heq⟩ := hkeeps
  refine ⟨rest.set (address - h.cells.length) cell, ?_⟩
  rw [Heap.write, ← heq, List.set_append_right _ _ hle]

end Keeps

/-! ## Two heaps -/

/-- The objects of two heaps are related, address by address. -/
def Related {β : Type*} (R : α → β → Prop) (h : Heap α) (h' : Heap β) : Prop :=
  List.Forall₂ R h.cells h'.cells

namespace Related

variable {β : Type*} {R : α → β → Prop} {h : Heap α} {h' : Heap β}

theorem next_eq (hrelated : Related R h h') : h.next = h'.next := List.Forall₂.length_eq hrelated

theorem alloc (hrelated : Related R h h') {a : α} {b : β} (hab : R a b) :
    Related R (h.alloc a) (h'.alloc b) :=
  List.rel_append hrelated (.cons hab .nil)

/-- What both heaps hold at an address. -/
theorem read (hrelated : Related R h h') {address : ℕ} {a : α} (hread : h.read address = some a) :
    ∃ b, h'.read address = some b ∧ R a b := by
  obtain ⟨hlt, rfl⟩ := List.getElem?_eq_some_iff.mp hread
  have hlt' : address < h'.cells.length := List.Forall₂.length_eq hrelated ▸ hlt
  exact ⟨_, List.getElem?_eq_getElem hlt', (List.forall₂_iff_get.mp hrelated).2 address hlt hlt'⟩

theorem write (hrelated : Related R h h') {address : ℕ} {a : α} {b : β} (hab : R a b) :
    Related R (h.write address a) (h'.write address b) := by
  unfold Related Heap.write at *
  generalize h.cells = cells at hrelated
  generalize h'.cells = cells' at hrelated
  induction hrelated generalizing address with
  | nil => exact .nil
  | cons hcell hcells ih =>
    cases address with
    | zero => exact .cons hab hcells
    | succ address => exact .cons hcell ih

/-- A write to the first heap that stays related to what the second one holds. -/
theorem write_left (hrelated : Related R h h') {address : ℕ} {a : α} {b : β}
    (hread : h'.read address = some b) (hab : R a b) : Related R (h.write address a) h' := by
  rw [← write_of_read hread]
  exact hrelated.write hab

end Related

end Heap
