import Mathlib.Data.List.Nodup
import Mathlib.Data.List.Perm.Basic

/-!
# Round robin

Lists are interleaved in rounds: a round takes the next element of every list that has one. After
any number of rounds the elements of each list are its first ones, so that in no prefix one of two
lists of about the same length is more than one element ahead.

## Main definitions

* `turn`: the elements of one round
* `rounds`: the first rounds
* `Selects`: a test that only the elements of one list pass

## Main results

* `rounds_perm`: enough rounds list all elements
* `Selects.filter_rounds`: the elements of a list after some rounds
* `exists_balance`: in every prefix the lists are balanced
-/

namespace RoundRobin

variable {α : Type*} {lists : List (List α)}

/-- The elements at an offset, of the lists that have one there. -/
def turn (lists : List (List α)) (offset : ℕ) : List α := lists.filterMap fun xs => xs[offset]?

/-- The elements of the first rounds. -/
def rounds (lists : List (List α)) (n : ℕ) : List α := (List.range n).flatMap (turn lists)

@[simp] theorem rounds_zero (lists : List (List α)) : rounds lists 0 = [] := rfl

theorem rounds_succ (lists : List (List α)) (n : ℕ) :
    rounds lists (n + 1) = rounds lists n ++ turn lists n := by
  rw [rounds, List.range_succ, List.flatMap_append, List.flatMap_singleton, rounds]

theorem turn_cons (xs : List α) (lists : List (List α)) (offset : ℕ) :
    turn (xs :: lists) offset = xs[offset]?.toList ++ turn lists offset := by
  rw [turn, List.filterMap_cons]
  cases xs[offset]? with
  | none => rfl
  | some a => rfl

theorem turn_append (before after : List (List α)) (offset : ℕ) :
    turn (before ++ after) offset = turn before offset ++ turn after offset :=
  List.filterMap_append

/-- An element of a round is one of a list. -/
theorem exists_of_mem_turn {a : α} {offset : ℕ} (h : a ∈ turn lists offset) :
    ∃ xs ∈ lists, a ∈ xs := by
  obtain ⟨xs, hxs, ha⟩ := List.mem_filterMap.mp h
  exact ⟨xs, hxs, List.mem_of_getElem? ha⟩

theorem rounds_prefix_succ (lists : List (List α)) (n : ℕ) :
    rounds lists n <+: rounds lists (n + 1) :=
  ⟨turn lists n, (rounds_succ lists n).symm⟩

/-- The rounds of one list. -/
theorem flatMap_range_getElem? (xs : List α) (n : ℕ) :
    ((List.range n).flatMap fun offset => xs[offset]?.toList) = xs.take n := by
  induction n with
  | zero => rfl
  | succ n ih => rw [List.range_succ, List.flatMap_append, ih, List.flatMap_singleton,
      List.take_add_one]

/-- **Enough rounds list all elements.** -/
theorem rounds_perm {n : ℕ} (h : ∀ xs ∈ lists, xs.length ≤ n) :
    (rounds lists n).Perm lists.flatten := by
  induction lists with
  | nil =>
    have hnil : rounds ([] : List (List α)) n = [] :=
      List.flatMap_eq_nil_iff.mpr fun _ _ => rfl
    rw [hnil]
    rfl
  | cons xs lists ih =>
    obtain ⟨hxs, hlists⟩ := List.forall_mem_cons.mp h
    have hturn : turn (xs :: lists) = fun offset =>
        xs[offset]?.toList ++ turn lists offset := funext (turn_cons xs lists)
    have hperm := List.flatMap_append_perm (List.range n) (fun offset => xs[offset]?.toList)
      (turn lists)
    rw [flatMap_range_getElem?, List.take_of_length_le hxs] at hperm
    rw [rounds, hturn, List.flatten_cons]
    exact hperm.symm.trans ((ih hlists).append_left xs)

/-! ## Balance -/

/-- A test that all elements of one of the lists pass, and no others. -/
structure Selects (p : α → Bool) (lists : List (List α)) (xs : List α) : Prop where
  split : ∃ before after, lists = before ++ xs :: after ∧
    ∀ other ∈ before ++ after, ∀ a ∈ other, p a = false
  all : ∀ a ∈ xs, p a = true

section Selects

variable {p : α → Bool} {xs : List α}

/-- No element of the other lists passes. -/
theorem filter_turn_eq_nil (h : ∀ other ∈ lists, ∀ a ∈ other, p a = false) (offset : ℕ) :
    (turn lists offset).filter p = [] := by
  rw [List.filter_eq_nil_iff]
  intro a ha
  obtain ⟨other, hother, ha⟩ := exists_of_mem_turn ha
  rw [h other hother a ha]
  exact Bool.false_ne_true

/-- The element of a list in a round. -/
theorem Selects.filter_turn (h : Selects p lists xs) (offset : ℕ) :
    (turn lists offset).filter p = xs[offset]?.toList := by
  obtain ⟨before, after, rfl, hothers⟩ := h.split
  have hbefore : ∀ other ∈ before, ∀ a ∈ other, p a = false :=
    fun other hother => hothers other (List.mem_append_left _ hother)
  have hafter : ∀ other ∈ after, ∀ a ∈ other, p a = false :=
    fun other hother => hothers other (List.mem_append_right _ hother)
  have hown : xs[offset]?.toList.filter p = xs[offset]?.toList := by
    rw [List.filter_eq_self]
    intro a ha
    exact h.all a (List.mem_of_getElem? (Option.mem_toList.mp ha))
  rw [turn_append, turn_cons, List.filter_append, List.filter_append, hown,
    filter_turn_eq_nil hbefore, filter_turn_eq_nil hafter, List.append_nil, List.nil_append]

/-- **After some rounds** the elements of a list are its first ones. -/
theorem Selects.filter_rounds (h : Selects p lists xs) (n : ℕ) :
    (rounds lists n).filter p = xs.take n := by
  induction n with
  | zero => rfl
  | succ n ih => rw [rounds_succ, List.filter_append, ih, h.filter_turn, List.take_add_one]

theorem Selects.countP_rounds (h : Selects p lists xs) (n : ℕ) :
    (rounds lists n).countP p = min n xs.length := by
  rw [List.countP_eq_length_filter, h.filter_rounds, List.length_take]

end Selects

/-- A prefix ends in some round. -/
theorem exists_round {part : List α} {n : ℕ} (h : part <+: rounds lists n) :
    ∃ round, rounds lists round <+: part ∧ part <+: rounds lists (round + 1) := by
  induction n with
  | zero =>
    rw [rounds_zero, List.prefix_nil] at h
    subst h
    exact ⟨0, List.prefix_rfl, List.nil_prefix⟩
  | succ n ih =>
    rcases List.prefix_or_prefix_of_prefix h (rounds_prefix_succ lists n) with hpart | hround
    · exact ih hpart
    · exact ⟨n, hround, h⟩

/-- **In every prefix the lists are balanced**, where their lengths are: of no list there are two
elements more than of another. -/
theorem exists_balance {base : ℕ}
    (hbase : ∀ xs ∈ lists, base ≤ xs.length ∧ xs.length ≤ base + 1) {part : List α} {n : ℕ}
    (hpart : part <+: rounds lists n) :
    ∃ low, ∀ p xs, Selects p lists xs → low ≤ part.countP p ∧ part.countP p ≤ low + 1 := by
  obtain ⟨round, hround, hnext⟩ := exists_round hpart
  refine ⟨min round base, fun p xs hp => ?_⟩
  have hxs : xs ∈ lists := by
    obtain ⟨before, after, rfl, -⟩ := hp.split
    exact List.mem_append_right _ List.mem_cons_self
  obtain ⟨hlow, hhigh⟩ := hbase xs hxs
  have hge : (rounds lists round).countP p ≤ part.countP p := hround.sublist.countP_le
  have hle : part.countP p ≤ (rounds lists (round + 1)).countP p := hnext.sublist.countP_le
  rw [hp.countP_rounds] at hge hle
  omega

end RoundRobin
