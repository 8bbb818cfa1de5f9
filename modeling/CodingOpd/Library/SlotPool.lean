import Mathlib.Data.List.Perm.Basic

/-!
# Tokens behind a semaphore

Tasks share a stock of tokens. A task takes a permit of a semaphore, then the first token of a
queue; it gives the permit back without a token, or the token and the permit together. Permits and
tokens are two resources, and a task can give up between the two; what is conserved is that every
permit is free or a task's, and every token free or a task's. Where there are no more permits than
tokens, a permit is worth a token.

## Main definitions

* `SlotPool`: the permits and tokens that are free, and the tasks that have them
* `acquire`, `take`, `leave`, `release`: what a task can do
* `Balanced`: permits and tokens are conserved

## Main results

* `Balanced.free_ne_nil`: a task with a permit finds a token
* `Balanced.count_le`: a token is held no more often than there are copies of it
-/

/-- Permits and tokens, free and in use. -/
structure SlotPool (ι τ : Type*) where
  permits : ℕ
  free : List τ
  /-- The tasks that have a permit and no token. -/
  admitted : List ι
  /-- The tasks that have both, with their token. -/
  holders : List (ι × τ)

namespace SlotPool

variable {ι τ : Type*}

/-- All permits and all tokens are free. -/
def start (permits : ℕ) (tokens : List τ) : SlotPool ι τ := ⟨permits, tokens, [], []⟩

/-- The tasks that have a permit. -/
def users (pool : SlotPool ι τ) : List ι := pool.admitted ++ pool.holders.map Prod.fst

/-- A task takes a permit. -/
def acquire (pool : SlotPool ι τ) (i : ι) : Option (SlotPool ι τ) :=
  if 0 < pool.permits then
    some { pool with permits := pool.permits - 1, admitted := i :: pool.admitted }
  else none

variable [DecidableEq ι]

/-- A task with a permit takes the first free token. -/
def take (pool : SlotPool ι τ) (i : ι) : Option (SlotPool ι τ) :=
  if i ∈ pool.admitted then
    match pool.free with
    | [] => none
    | token :: free =>
      some
        { pool with
          free
          admitted := pool.admitted.erase i
          holders := (i, token) :: pool.holders }
  else none

/-- A task without a token gives its permit back. -/
def leave (pool : SlotPool ι τ) (i : ι) : Option (SlotPool ι τ) :=
  if i ∈ pool.admitted then
    some { pool with permits := pool.permits + 1, admitted := pool.admitted.erase i }
  else none

variable [DecidableEq τ]

/-- A task gives its token back, last in the queue, and its permit; the token is the one that it
held. -/
def release (pool : SlotPool ι τ) (i : ι) : Option (τ × SlotPool ι τ) :=
  (pool.holders.find? (·.1 = i)).map fun holder =>
    (holder.2,
      { pool with
        permits := pool.permits + 1
        free := pool.free ++ [holder.2]
        holders := pool.holders.erase holder })

/-! ## What each operation does -/

section

variable {pool next : SlotPool ι τ} {i : ι} {token : τ}

omit [DecidableEq ι] [DecidableEq τ] in
theorem acquire_eq_some :
    pool.acquire i = some next ↔ 0 < pool.permits ∧
      next = { pool with permits := pool.permits - 1, admitted := i :: pool.admitted } := by
  unfold acquire
  split <;> simp_all [eq_comm]

omit [DecidableEq τ] in
theorem take_eq_some :
    pool.take i = some next ↔ i ∈ pool.admitted ∧ ∃ token free, pool.free = token :: free ∧
      next =
        { pool with
          free
          admitted := pool.admitted.erase i
          holders := (i, token) :: pool.holders } := by
  unfold take
  by_cases hmem : i ∈ pool.admitted
  · rw [if_pos hmem]
    cases hfree : pool.free <;> simp [hmem, eq_comm]
  · simp [hmem]

omit [DecidableEq τ] in
theorem leave_eq_some :
    pool.leave i = some next ↔ i ∈ pool.admitted ∧
      next = { pool with permits := pool.permits + 1, admitted := pool.admitted.erase i } := by
  unfold leave
  split <;> simp_all [eq_comm]

/-- The token that comes back is one that the task held. -/
theorem of_release_eq_some (h : pool.release i = some (token, next)) :
    (i, token) ∈ pool.holders ∧
      next =
        { pool with
          permits := pool.permits + 1
          free := pool.free ++ [token]
          holders := pool.holders.erase (i, token) } := by
  obtain ⟨holder, hfind, heq⟩ := Option.map_eq_some_iff.mp h
  cases heq
  have hi : holder.1 = i := by simpa using List.find?_some hfind
  subst hi
  exact ⟨List.mem_of_find?_eq_some hfind, rfl⟩

/-- A holder can release. -/
theorem exists_release (h : (i, token) ∈ pool.holders) :
    ∃ token next, pool.release i = some (token, next) := by
  have hsome : (pool.holders.find? (·.1 = i)).isSome :=
    List.find?_isSome.mpr ⟨_, h, by simp⟩
  obtain ⟨holder, hfind⟩ := Option.isSome_iff_exists.mp hsome
  exact ⟨_, _, by rw [release, hfind]; rfl⟩

/-! ## The tasks that have a permit -/

omit [DecidableEq ι] [DecidableEq τ] in
theorem users_acquire (h : pool.acquire i = some next) : next.users = i :: pool.users := by
  obtain ⟨-, rfl⟩ := acquire_eq_some.mp h
  rfl

omit [DecidableEq τ] in
theorem users_take (h : pool.take i = some next) : next.users.Perm pool.users := by
  obtain ⟨hmem, token, free, -, rfl⟩ := take_eq_some.mp h
  show (pool.admitted.erase i ++ i :: pool.holders.map Prod.fst).Perm _
  apply List.perm_middle.trans
  rw [← List.cons_append]
  exact (List.perm_cons_erase hmem).symm.append_right _

omit [DecidableEq τ] in
theorem users_leave (h : pool.leave i = some next) : pool.users.Perm (i :: next.users) := by
  obtain ⟨hmem, rfl⟩ := leave_eq_some.mp h
  exact (List.perm_cons_erase hmem).append_right _

theorem users_release (h : pool.release i = some (token, next)) :
    pool.users.Perm (i :: next.users) := by
  obtain ⟨hmem, rfl⟩ := of_release_eq_some h
  have hperm : (pool.holders.map Prod.fst).Perm
      (i :: (pool.holders.erase (i, token)).map Prod.fst) :=
    (List.perm_cons_erase hmem).map Prod.fst
  exact (hperm.append_left _).trans List.perm_middle

/-! ## Conservation -/

/-- Every permit is free or a task's, and every token is free or a task's. -/
structure Balanced (permits : ℕ) (tokens : List τ) (pool : SlotPool ι τ) : Prop where
  permits_add : pool.permits + pool.users.length = permits
  tokens_perm : (pool.free ++ pool.holders.map Prod.snd).Perm tokens

namespace Balanced

variable {permits : ℕ} {tokens : List τ}

omit [DecidableEq ι] [DecidableEq τ] in
theorem start : Balanced permits tokens (SlotPool.start permits tokens : SlotPool ι τ) :=
  ⟨rfl, by simp [SlotPool.start]⟩

omit [DecidableEq ι] [DecidableEq τ] in
theorem acquire (h : pool.Balanced permits tokens) (hacquire : pool.acquire i = some next) :
    next.Balanced permits tokens := by
  have husers := users_acquire hacquire
  obtain ⟨hpos, rfl⟩ := acquire_eq_some.mp hacquire
  refine ⟨?_, h.tokens_perm⟩
  have hadd := h.permits_add
  rw [husers, List.length_cons]
  show pool.permits - 1 + _ = _
  omega

omit [DecidableEq τ] in
theorem take (h : pool.Balanced permits tokens) (htake : pool.take i = some next) :
    next.Balanced permits tokens := by
  have husers := users_take htake
  obtain ⟨-, token, free, hfree, rfl⟩ := take_eq_some.mp htake
  refine ⟨?_, ?_⟩
  · rw [husers.length_eq]
    exact h.permits_add
  · -- the token moves from the head of the queue to its holder
    have htokens := h.tokens_perm
    rw [hfree] at htokens
    exact List.perm_middle.trans htokens

omit [DecidableEq τ] in
theorem leave (h : pool.Balanced permits tokens) (hleave : pool.leave i = some next) :
    next.Balanced permits tokens := by
  have husers := (users_leave hleave).length_eq
  obtain ⟨-, rfl⟩ := leave_eq_some.mp hleave
  refine ⟨?_, h.tokens_perm⟩
  have hadd := h.permits_add
  rw [husers, List.length_cons] at hadd
  show pool.permits + 1 + _ = _
  omega

theorem release (h : pool.Balanced permits tokens)
    (hrelease : pool.release i = some (token, next)) : next.Balanced permits tokens := by
  have husers := (users_release hrelease).length_eq
  obtain ⟨hmem, rfl⟩ := of_release_eq_some hrelease
  refine ⟨?_, ?_⟩
  · have hadd := h.permits_add
    rw [husers, List.length_cons] at hadd
    show pool.permits + 1 + _ = _
    omega
  · -- the token moves from its holder to the end of the queue
    have hheld : (pool.holders.map Prod.snd).Perm
        (token :: (pool.holders.erase (i, token)).map Prod.snd) :=
      (List.perm_cons_erase hmem).map Prod.snd
    rw [List.append_assoc]
    exact (hheld.symm.append_left _).trans h.tokens_perm

omit [DecidableEq ι] [DecidableEq τ] in
/-- No more tasks have a permit than there are permits. -/
theorem length_users_le (h : pool.Balanced permits tokens) : pool.users.length ≤ permits := by
  have hadd := h.permits_add
  omega

omit [DecidableEq ι] [DecidableEq τ] in
/-- A permit that no task has is free. -/
theorem permits_pos (h : pool.Balanced permits tokens) (hlt : pool.users.length < permits) :
    0 < pool.permits := by
  have hadd := h.permits_add
  omega

omit [DecidableEq ι] in
/-- **A token is held no more often** than there are copies of it. -/
theorem count_le (h : pool.Balanced permits tokens) (token : τ) :
    (pool.holders.map Prod.snd).count token ≤ tokens.count token := by
  rw [← h.tokens_perm.count_eq, List.count_append]
  exact Nat.le_add_left _ _

omit [DecidableEq ι] [DecidableEq τ] in
/-- **A task with a permit finds a token**, where there are no more permits than tokens. -/
theorem free_ne_nil (h : pool.Balanced permits tokens) (hle : permits ≤ tokens.length)
    (hadmitted : pool.admitted ≠ []) : pool.free ≠ [] := by
  intro hfree
  -- the holders would have every token, hence every permit, and the task has one too
  have htokens := h.tokens_perm.length_eq
  have husers := h.length_users_le
  have hpos := List.length_pos_iff.mpr hadmitted
  rw [hfree, List.nil_append, List.length_map] at htokens
  rw [users, List.length_append, List.length_map] at husers
  omega

end Balanced

end

end SlotPool
