import Mathlib.Data.List.DropRight
import Mathlib.Data.List.Induction
import Mathlib.Logic.Relation

/-!
# Slugs

The slug of a word keeps some of the letters, writes a mark for each run of the others, and is
trimmed at its ends. Two words have one slug exactly when they can be rewritten into one another by
writing a mark for a run, or a run for a mark, and by adding or dropping letters at the ends.

## Main definitions

* `collapse`, `slug`: a word with its runs marked, and trimmed
* `Tidies`, `Alike`: the rewriting steps, and the words that they connect

## Main results

* `slug_eq_of_tidies`, `tidies_slug`: a slug is the normal form of its word
* `alike_iff`: words are alike exactly when they have one slug
-/

namespace Slug

variable {α : Type*} (kept edge : α → Bool) (mark : α)

/-- A word with a mark for each run of letters that are not kept. The flag says that the word
continues a run that has its mark. -/
def collapse : Bool → List α → List α
  | _, [] => []
  | inRun, c :: word =>
    if kept c then c :: collapse false word
    else if inRun then collapse true word
    else mark :: collapse true word

/-- A word without the letters of the edge at its ends. -/
def trim (word : List α) : List α := (word.dropWhile edge).rdropWhile edge

/-- The slug of a word. -/
def slug (word : List α) : List α := trim edge (collapse kept mark false word)

/-- A step of rewriting: a whole run is marked, or a letter of the edge is dropped at an end. -/
inductive Tidies : List α → List α → Prop
  | run {before run after : List α} : run ≠ [] → (∀ c ∈ run, kept c = false) →
    (∀ c ∈ before.getLast?, kept c = true) → (∀ c ∈ after.head?, kept c = true) →
    Tidies (before ++ (run ++ after)) (before ++ mark :: after)
  | left {c : α} {word : List α} : edge c = true → Tidies (c :: word) word
  | right {c : α} {word : List α} : edge c = true → Tidies (word ++ [c]) word

/-- Words that the steps connect, taken forwards and backwards. -/
def Alike : List α → List α → Prop := Relation.EqvGen (Tidies kept edge mark)

variable {kept edge mark}

/-! ## Runs -/

theorem collapse_cons_of_kept {c : α} (hc : kept c = true) (inRun : Bool) (word : List α) :
    collapse kept mark inRun (c :: word) = c :: collapse kept mark false word := by
  rw [collapse, if_pos hc]

/-- Where no run goes on, the flag does not matter. -/
theorem collapse_of_head {word : List α} (h : ∀ c ∈ word.head?, kept c = true) (inRun : Bool) :
    collapse kept mark inRun word = collapse kept mark false word := by
  cases word with
  | nil => rfl
  | cons c word =>
    have hc := h c rfl
    rw [collapse_cons_of_kept hc, collapse_cons_of_kept hc]

/-- A word is read before a kept letter as at the end. -/
theorem collapse_append_of_head {after : List α} (h : ∀ c ∈ after.head?, kept c = true)
    (inRun : Bool) (word : List α) :
    collapse kept mark inRun (word ++ after) =
      collapse kept mark inRun word ++ collapse kept mark false after := by
  induction word generalizing inRun with
  | nil => exact collapse_of_head h inRun
  | cons c word ih =>
    rw [List.cons_append, collapse, collapse]
    split_ifs
    · rw [ih, List.cons_append]
    · exact ih true
    · rw [ih, List.cons_append]

/-- A word is read behind a kept letter as at the start. -/
theorem collapse_append {before : List α} (h : ∀ c ∈ before.getLast?, kept c = true)
    (word : List α) :
    collapse kept mark false (before ++ word) =
      collapse kept mark false before ++ collapse kept mark false word := by
  suffices hflag : ∀ inRun, before ≠ [] →
      collapse kept mark inRun (before ++ word) =
        collapse kept mark inRun before ++ collapse kept mark false word by
    rcases eq_or_ne before [] with rfl | hne
    · rfl
    · exact hflag false hne
  intro inRun hne
  induction before generalizing inRun with
  | nil => exact absurd rfl hne
  | cons c before ih =>
    rcases eq_or_ne before [] with rfl | hbefore
    · have hc := h c rfl
      rw [List.singleton_append, collapse_cons_of_kept hc, collapse_cons_of_kept hc]
      rfl
    · have hlast : ∀ d ∈ before.getLast?, kept d = true := by
        intro d hd
        apply h d
        rwa [List.getLast?_cons_of_ne_nil hbefore]
      rw [List.cons_append, collapse, collapse]
      split_ifs
      · rw [ih hlast false hbefore, List.cons_append]
      · exact ih hlast true hbefore
      · rw [ih hlast true hbefore, List.cons_append]

/-- The rest of a run adds nothing to its mark. -/
theorem collapse_true_append {run : List α} (h : ∀ c ∈ run, kept c = false) (after : List α) :
    collapse kept mark true (run ++ after) = collapse kept mark true after := by
  induction run with
  | nil => rfl
  | cons c run ih =>
    obtain ⟨hc, hrun⟩ := List.forall_mem_cons.mp h
    rw [List.cons_append, collapse, if_neg (by simp [hc]), if_pos rfl, ih hrun]

/-- A run is marked once. -/
theorem collapse_run {run after : List α} (hne : run ≠ []) (hrun : ∀ c ∈ run, kept c = false)
    (hafter : ∀ c ∈ after.head?, kept c = true) :
    collapse kept mark false (run ++ after) = mark :: collapse kept mark false after := by
  obtain ⟨c, run, rfl⟩ := List.exists_cons_of_ne_nil hne
  obtain ⟨hc, hrun⟩ := List.forall_mem_cons.mp hrun
  rw [List.cons_append, collapse, if_neg (by simp [hc]), if_neg Bool.false_ne_true,
    collapse_true_append hrun, collapse_of_head hafter]

/-! ## Normal forms -/

theorem trim_cons {c : α} (hc : edge c = true) (word : List α) :
    trim edge (c :: word) = trim edge word := by
  rw [trim, List.dropWhile_cons_of_pos hc, trim]

theorem trim_append_singleton {c : α} (hc : edge c = true) (word : List α) :
    trim edge (word ++ [c]) = trim edge word := by
  rw [trim, List.dropWhile_append, trim]
  split
  · rename_i hempty
    rw [List.isEmpty_iff.mp hempty, List.dropWhile_cons_of_pos hc]
    rfl
  · rw [List.rdropWhile_concat_pos _ _ _ hc]

variable (hmark : kept mark = true) (hedge : ∀ c, edge c = true → kept c = true)
include hmark hedge

/-- **A step keeps the slug.** -/
theorem slug_eq_of_tidies {word word' : List α} (h : Tidies kept edge mark word word') :
    slug kept edge mark word = slug kept edge mark word' := by
  unfold slug
  cases h with
  | run hne hrun hbefore hafter =>
    rw [collapse_append hbefore, collapse_append hbefore, collapse_run hne hrun hafter,
      collapse_cons_of_kept hmark]
  | left hc => rw [collapse_cons_of_kept (hedge _ hc), trim_cons hc]
  | right hc =>
    have hkept := hedge _ hc
    rw [collapse_append_of_head (by simpa using hkept), collapse_cons_of_kept hkept, collapse,
      trim_append_singleton hc]

omit hedge in
/-- A word is rewritten by marking its runs one after the other. -/
theorem tidies_collapse {before : List α} (hbefore : ∀ c ∈ before.getLast?, kept c = true)
    (word : List α) :
    Relation.ReflTransGen (Tidies kept edge mark) (before ++ word)
      (before ++ collapse kept mark false word) := by
  induction hlength : word.length using Nat.strong_induction_on generalizing before word with
  | _ n ih =>
    subst hlength
    have hlast : ∀ c, kept c = true → ∀ d ∈ (before ++ [c]).getLast?, kept d = true := by
      intro c hc d hd
      rw [List.getLast?_append_cons] at hd
      cases hd
      exact hc
    cases word with
    | nil => exact .refl
    | cons c word =>
      by_cases hc : kept c = true
      · have hrest := ih word.length (by simp) (hlast c hc) word rfl
        rw [collapse_cons_of_kept hc]
        simpa only [List.append_assoc, List.singleton_append] using hrest
      · -- the run that begins here, and what follows it
        obtain ⟨run, hrun⟩ : ∃ run, run = (c :: word).takeWhile fun d => !kept d := ⟨_, rfl⟩
        obtain ⟨after, hafter⟩ : ∃ after, after = (c :: word).dropWhile fun d => !kept d :=
          ⟨_, rfl⟩
        have hword : c :: word = run ++ after := by
          rw [hrun, hafter, List.takeWhile_append_dropWhile]
        have hne : run ≠ [] := by
          rw [hrun, List.takeWhile_cons_of_pos (by simpa using hc)]
          exact List.cons_ne_nil _ _
        have hnone : ∀ d ∈ run, kept d = false := by
          intro d hd
          rw [hrun] at hd
          simpa using List.mem_takeWhile_imp hd
        have hhead : ∀ d ∈ after.head?, kept d = true := by
          intro d hd
          have := List.head?_dropWhile_not (fun d => !kept d) (c :: word)
          rw [← hafter, Option.mem_def.mp hd] at this
          simpa using this
        have hshort : after.length < (c :: word).length := by
          rw [hword, List.length_append]
          exact Nat.lt_add_of_pos_left (List.length_pos_iff.mpr hne)
        have hrest := ih after.length hshort (hlast mark hmark) after rfl
        rw [hword, collapse_run hne hnone hhead]
        refine .head (Tidies.run hne hnone hbefore hhead) ?_
        simpa only [List.append_assoc, List.singleton_append] using hrest

omit hmark hedge in
/-- A word is trimmed letter by letter. -/
theorem tidies_trim (word : List α) :
    Relation.ReflTransGen (Tidies kept edge mark) word (trim edge word) := by
  have hleft : Relation.ReflTransGen (Tidies kept edge mark) word (word.dropWhile edge) := by
    induction word with
    | nil => exact .refl
    | cons c word ih =>
      by_cases hc : edge c = true
      · rw [List.dropWhile_cons_of_pos hc]
        exact .head (Tidies.left hc) ih
      · rw [List.dropWhile_cons_of_neg hc]
  refine hleft.trans ?_
  rw [trim]
  generalize word.dropWhile edge = word
  induction word using List.reverseRecOn with
  | nil => exact .refl
  | append_singleton word c ih =>
    by_cases hc : edge c = true
    · rw [List.rdropWhile_concat_pos _ _ _ hc]
      exact .head (Tidies.right hc) ih
    · rw [List.rdropWhile_concat_neg _ _ _ hc]

omit hmark hedge in
/-- Words that are rewritten into one another are alike. -/
theorem alike_of_tidies {word word' : List α}
    (h : Relation.ReflTransGen (Tidies kept edge mark) word word') :
    Alike kept edge mark word word' := by
  induction h with
  | refl => exact .refl _
  | tail _ hstep ih => exact .trans _ _ _ ih (.rel _ _ hstep)

omit hedge in
/-- **A word is rewritten into its slug.** -/
theorem tidies_slug (word : List α) :
    Relation.ReflTransGen (Tidies kept edge mark) word (slug kept edge mark word) := by
  have hnil : ∀ c ∈ ([] : List α).getLast?, kept c = true := fun c hc => nomatch hc
  exact (tidies_collapse hmark hnil word).trans (tidies_trim _)

/-- **Words are alike** exactly when they have one slug. -/
theorem alike_iff {word word' : List α} :
    Alike kept edge mark word word' ↔ slug kept edge mark word = slug kept edge mark word' := by
  constructor
  · intro h
    induction h with
    | rel _ _ h => exact slug_eq_of_tidies hmark hedge h
    | refl => rfl
    | symm _ _ _ ih => exact ih.symm
    | trans _ _ _ _ _ ih ih' => exact ih.trans ih'
  · intro heq
    have hslug : ∀ w : List α, Alike kept edge mark w (slug kept edge mark w) :=
      fun w => alike_of_tidies (tidies_slug hmark w)
    exact .trans _ _ _ (heq ▸ hslug word) (.symm _ _ (hslug word'))

end Slug
