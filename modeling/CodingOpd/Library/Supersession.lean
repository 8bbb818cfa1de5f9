import Mathlib.Data.List.Basic

/-!
# Stores whose entries are superseded

A store keeps, of a history of entries, those that no later entry supersedes: recording an
entry removes the stored entries below it and appends the new one. The stored entries are then
exactly the survivors of the history, in the order of their arrival, and the newest stored
entry with a property is the last survivor of the history that has it.

## Main definitions

* `record`: recording one entry
* `Stands`: an entry that no later one supersedes
* `NewestStanding`: the last standing entry with a property

## Main results

* `foldl_record`: the store holds the survivors of the history
* `find?_survivors_iff`: the newest stored match
* `exists_survivor`: over a transitive relation, each entry is below a survivor or survives
-/

namespace Supersession

variable {α : Type} (below : α → α → Prop) [DecidableRel below]

/-- Recording `x` removes the entries below it. -/
def record (store : List α) (x : α) : List α :=
  (store.filter fun r => ¬ below r x) ++ [x]

/-- `r` stands when no entry of `later` supersedes it. -/
def Stands (r : α) (later : List α) : Prop := ∀ y ∈ later, ¬ below r y

instance (r : α) (later : List α) : Decidable (Stands below r later) :=
  inferInstanceAs (Decidable (∀ y ∈ later, ¬ below r y))

omit [DecidableRel below] in
theorem stands_cons {r x : α} {later : List α} :
    Stands below r (x :: later) ↔ ¬ below r x ∧ Stands below r later := List.forall_mem_cons

/-- The entries of a history that no later entry supersedes. -/
def survivors : List α → List α
  | [] => []
  | x :: later => if Stands below x later then x :: survivors later else survivors later

/-- **The store holds the survivors of the history**, after what it keeps of its own. -/
theorem foldl_record (history store : List α) :
    history.foldl (record below) store =
      (store.filter fun r => Stands below r history) ++ survivors below history := by
  induction history generalizing store with
  | nil => simp [Stands, survivors]
  | cons x later ih =>
    have filtered : (record below store x).filter (fun r => Stands below r later) =
        (store.filter fun r => Stands below r (x :: later)) ++
          (if Stands below x later then [x] else []) := by
      rw [record, List.filter_append, List.filter_filter]
      congr 1
      · apply List.filter_congr
        intro r _
        rw [Bool.eq_iff_iff]
        simp [stands_cons, and_comm]
      · by_cases hx : Stands below x later <;> simp [hx]
    rw [List.foldl_cons, ih, filtered, List.append_assoc]
    by_cases hx : Stands below x later <;> simp [survivors, hx]

theorem foldl_record_nil (history : List α) :
    history.foldl (record below) [] = survivors below history := by
  simp [foldl_record]

theorem mem_survivors {history : List α} {r : α} :
    r ∈ survivors below history ↔
      ∃ earlier later, history = earlier ++ r :: later ∧ Stands below r later := by
  induction history with
  | nil => simp [survivors]
  | cons x later ih =>
    constructor
    · intro hr
      by_cases hx : Stands below x later
      · simp only [survivors, if_pos hx, List.mem_cons] at hr
        rcases hr with rfl | hr
        · exact ⟨[], later, rfl, hx⟩
        · obtain ⟨earlier, rest, rfl, hstands⟩ := ih.mp hr
          exact ⟨x :: earlier, rest, rfl, hstands⟩
      · simp only [survivors, if_neg hx] at hr
        obtain ⟨earlier, rest, rfl, hstands⟩ := ih.mp hr
        exact ⟨x :: earlier, rest, rfl, hstands⟩
    · rintro ⟨earlier, rest, heq, hstands⟩
      cases earlier with
      | nil =>
        obtain ⟨rfl, rfl⟩ := List.cons.inj heq
        simp [survivors, hstands]
      | cons y earlier =>
        obtain ⟨hy, hlater⟩ := List.cons.inj heq
        have hr := ih.mpr ⟨earlier, rest, hlater, hstands⟩
        by_cases hx : Stands below x later
        · rw [survivors, if_pos hx]
          exact List.mem_cons_of_mem _ hr
        · rwa [survivors, if_neg hx]

theorem survivors_subset_cons (x : α) {later : List α} {r : α}
    (hr : r ∈ survivors below later) : r ∈ survivors below (x :: later) := by
  by_cases hx : Stands below x later
  · rw [survivors, if_pos hx]
    exact List.mem_cons_of_mem _ hr
  · rwa [survivors, if_neg hx]

/-- Over a transitive relation, no entry is lost: it survives or lies below a survivor. -/
theorem exists_survivor (htrans : ∀ a b c, below a b → below b c → below a c)
    {history : List α} {x : α} (hx : x ∈ history) :
    ∃ r ∈ survivors below history, r = x ∨ below x r := by
  induction history generalizing x with
  | nil => cases hx
  | cons y later ih =>
    rcases List.mem_cons.mp hx with rfl | hx
    · by_cases hstands : Stands below x later
      · exact ⟨x, by simp [survivors, hstands], Or.inl rfl⟩
      · unfold Stands at hstands
        push Not at hstands
        obtain ⟨z, hz, hbelow⟩ := hstands
        obtain ⟨r, hr, hrz⟩ := ih hz
        refine ⟨r, survivors_subset_cons below x hr, Or.inr ?_⟩
        rcases hrz with rfl | hrz
        · exact hbelow
        · exact htrans _ _ _ hbelow hrz
    · obtain ⟨r, hr, hrx⟩ := ih hx
      exact ⟨r, survivors_subset_cons below y hr, hrx⟩

section Newest

variable (p : α → Bool)

/-- `r` is the last standing entry of the history that satisfies `p`. -/
def NewestStanding (history : List α) (r : α) : Prop :=
  ∃ earlier later, history = earlier ++ r :: later ∧ p r = true ∧ Stands below r later ∧
    ∀ before y after, later = before ++ y :: after → p y = true → ¬ Stands below y after

theorem find?_survivors_eq_none {history : List α} :
    (survivors below history).reverse.find? p = none ↔
      ∀ before y after, history = before ++ y :: after → p y = true →
        ¬ Stands below y after := by
  simp only [List.find?_eq_none, List.mem_reverse, mem_survivors]
  constructor
  · intro h before y after heq hy hstands
    exact h y ⟨before, after, heq, hstands⟩ hy
  · rintro h y ⟨before, after, heq, hstands⟩ hy
    exact h before y after heq hy hstands

theorem newestStanding_cons {x : α} {later : List α} {r : α} :
    NewestStanding below p (x :: later) r ↔
      NewestStanding below p later r ∨
        (r = x ∧ p x = true ∧ Stands below x later ∧
          (survivors below later).reverse.find? p = none) := by
  rw [find?_survivors_eq_none]
  constructor
  · rintro ⟨earlier, rest, heq, hr, hstands, hlast⟩
    cases earlier with
    | nil =>
      obtain ⟨rfl, rfl⟩ := List.cons.inj heq
      exact Or.inr ⟨rfl, hr, hstands, hlast⟩
    | cons y earlier =>
      obtain ⟨-, hlater⟩ := List.cons.inj heq
      exact Or.inl ⟨earlier, rest, hlater, hr, hstands, hlast⟩
  · rintro (⟨earlier, rest, rfl, hr, hstands, hlast⟩ | ⟨rfl, hr, hstands, hlast⟩)
    · exact ⟨x :: earlier, rest, rfl, hr, hstands, hlast⟩
    · exact ⟨[], later, rfl, hr, hstands, hlast⟩

/-- **The newest stored match** is the last standing entry that satisfies `p`. -/
theorem find?_survivors_iff {history : List α} {r : α} :
    (survivors below history).reverse.find? p = some r ↔ NewestStanding below p history r := by
  induction history with
  | nil => simp [survivors, NewestStanding]
  | cons x later ih =>
    rw [newestStanding_cons, ← ih]
    by_cases hx : Stands below x later
    · rw [survivors, if_pos hx, List.reverse_cons, List.find?_append]
      cases hfind : (survivors below later).reverse.find? p with
      | none =>
        by_cases hp : p x = true <;> simp [hp, hx, eq_comm]
      | some y => simp
    · rw [survivors, if_neg hx]
      simp [hx]

omit [DecidableRel below] in
theorem newestStanding_map {β : Type} (f : β → α) {history : List β} {r : α} :
    NewestStanding below p (history.map f) r ↔
      ∃ x, NewestStanding (fun a b => below (f a) (f b)) (fun a => p (f a)) history x ∧
        f x = r := by
  constructor
  · rintro ⟨earlier, later, heq, hr, hstands, hlast⟩
    obtain ⟨earlier, rest, rfl, rfl, hrest⟩ := List.map_eq_append_iff.mp heq
    obtain ⟨x, later, rfl, rfl, rfl⟩ := List.map_eq_cons_iff.mp hrest
    refine ⟨x, ⟨earlier, later, rfl, hr, ?_, ?_⟩, rfl⟩
    · intro y hy
      exact hstands (f y) (List.mem_map_of_mem hy)
    · rintro before y after rfl hy hstands'
      refine hlast (before.map f) (f y) (after.map f) (by simp) hy ?_
      intro z hz
      obtain ⟨w, hw, rfl⟩ := List.mem_map.mp hz
      exact hstands' w hw
  · rintro ⟨x, ⟨earlier, later, rfl, hx, hstands, hlast⟩, rfl⟩
    refine ⟨earlier.map f, later.map f, by simp, hx, ?_, ?_⟩
    · intro z hz
      obtain ⟨w, hw, rfl⟩ := List.mem_map.mp hz
      exact hstands w hw
    · intro before y after heq hy hstands'
      obtain ⟨before, rest, rfl, rfl, hrest⟩ := List.map_eq_append_iff.mp heq
      obtain ⟨y, after, rfl, rfl, rfl⟩ := List.map_eq_cons_iff.mp hrest
      exact hlast before y after rfl hy fun z hz => hstands' (f z) (List.mem_map_of_mem hz)

end Newest

end Supersession
