import CodingOpd.ExternalEval.Result

/-!
# Session scores in the transfer queue

`_read_scores` keeps the last successful trajectory of every session of the uids it is asked for,
and lists a uid's scores by session. What it reads for a uid depends on the uid's own entries.

## Main definitions

* `Partition`, `TqKey`, `Tag`: the entries of the queue
* `readScores`, `sessionScores`: `_read_scores`, and the score list of a uid
* `sessionNames`: the sessions that a task of `n` sessions has

## Main results

* `lookup_readScores`: the scores read for a uid
* `sessionScores_append`: entries of other uids change nothing
* `all_sessions_of_length`: a full score list has all the sessions of its task behind it
-/

open Python

namespace ExternalEval

/-- A key of the partition: a prompt's uid, or `uid_session_index` of a trajectory. -/
inductive TqKey where
  | prompt (uid : String)
  | trajectory (uid session : String) (index : ℤ)
  | other (key : String)
deriving DecidableEq

/-- The tag of a key, and the sum of `rm_scores` for a trajectory. -/
structure Tag (K : Type) where
  status : String
  score : K

/-- The entries of the evaluation's partition, in the order they came. -/
abbrev Partition (K : Type) := List (TqKey × Tag K)

/-- `final`: the last trajectory of a session, by uid and session. -/
abbrev Final (K : Type) := Finmap fun _ : String × String => ℤ × K

variable {K : Type}

/-- One key of the loop of `_read_scores`. -/
def finalStep (uids : List String) (final : Final K) (entry : TqKey × Tag K) : Final K :=
  match entry.1 with
  | .trajectory uid session index =>
    if uid ∉ uids ∨ entry.2.status ≠ "success" then final
    else
      match final.lookup (uid, session) with
      | none => final.insert (uid, session) (index, entry.2.score)
      | some last =>
        if last.1 < index then final.insert (uid, session) (index, entry.2.score) else final
  | _ => final

/-- `final` after the loop. -/
def finalOf (uids : List String) (partition : Partition K) : Final K :=
  partition.foldl (finalStep uids) ∅

/-- The sessions of a uid in `final`, in the order of `sorted(final.items())`. -/
def sessionsOf (final : Final K) (uid : String) : List String :=
  ((final.keys.filter (·.1 = uid)).image Prod.snd).sort

/-- `per_uid[uid]`. -/
def sessionScores (final : Final K) (uid : String) : List K :=
  (sessionsOf final uid).filterMap fun session => (final.lookup (uid, session)).map Prod.snd

/-- One key of the loop of `_read_scores` that is a uid. -/
def statusStep (uids : List String) (statuses : Statuses) (entry : TqKey × Tag K) : Statuses :=
  match entry.1 with
  | .prompt uid => if uid ∈ uids then statuses.insert uid entry.2.status else statuses
  | _ => statuses

/-- The scores of one more uid, when it has any. -/
def perUidStep (final : Final K) (scores : Scores K) (uid : String) : Scores K :=
  if sessionScores final uid = [] then scores else scores.insert uid (sessionScores final uid)

/-- `_read_scores`. -/
def readScores (uids : List String) (partition : Partition K) : Scores K × Statuses :=
  (uids.foldl (perUidStep (finalOf uids partition)) ∅, partition.foldl (statusStep uids) ∅)

/-- The session indices of a task of `n` sessions, as the keys have them. -/
def sessionNames (n : ℕ) : Finset String := (Finset.range n).image fun index => toString index

theorem card_sessionNames_le (n : ℕ) : (sessionNames n).card ≤ n :=
  Finset.card_image_le.trans (Finset.card_range n).le

/-! ## What is read for a uid -/

/-- The entry is a trajectory of the uid. -/
def IsTrajectoryOf (uid : String) (entry : TqKey × Tag K) : Prop :=
  ∃ session index, entry.1 = .trajectory uid session index

/-- Some entry is a trajectory of the session. -/
def HasSession (partition : Partition K) (uid session : String) : Prop :=
  ∃ entry ∈ partition, ∃ index, entry.1 = .trajectory uid session index

/-- The session that a key belongs to. -/
def TqKey.session? : TqKey → Option (String × String)
  | .trajectory uid session _ => some (uid, session)
  | _ => none

instance (partition : Partition K) (uid session : String) :
    Decidable (HasSession partition uid session) :=
  decidable_of_iff (∃ entry ∈ partition, entry.1.session? = some (uid, session)) <| by
    refine exists_congr fun entry => and_congr_right fun _ => ?_
    cases entry.1 <;> simp [TqKey.session?]

theorem lookup_finalStep_of_not {uids : List String} {final : Final K} {entry : TqKey × Tag K}
    {uid session : String} (h : ∀ index, entry.1 ≠ .trajectory uid session index) :
    (finalStep uids final entry).lookup (uid, session) = final.lookup (uid, session) := by
  obtain ⟨key, tag⟩ := entry
  cases key with
  | prompt _ => rfl
  | other _ => rfl
  | trajectory uid' session' index =>
    have hne : (uid, session) ≠ (uid', session') := by
      intro heq
      cases heq
      exact h index rfl
    simp only [finalStep]
    split_ifs
    · rfl
    · cases final.lookup (uid', session') with
      | none => exact Finmap.lookup_insert_of_ne _ hne
      | some last =>
        simp only
        split_ifs
        · exact Finmap.lookup_insert_of_ne _ hne
        · rfl

/-- `final` is a fold, so what it has of a session comes from the session's own entries. -/
theorem lookup_foldl_of_not (uids : List String) {block : Partition K} (final : Final K)
    {uid session : String} (h : ¬ HasSession block uid session) :
    (block.foldl (finalStep uids) final).lookup (uid, session) = final.lookup (uid, session) := by
  induction block generalizing final with
  | nil => rfl
  | cons entry block ih =>
    have hrest : ¬ HasSession block uid session := by
      rintro ⟨e, he, hkey⟩
      exact h ⟨e, List.mem_cons_of_mem _ he, hkey⟩
    rw [List.foldl_cons, ih _ hrest, lookup_finalStep_of_not]
    intro index hkey
    exact h ⟨entry, List.mem_cons_self .., index, hkey⟩

theorem mem_sessionsOf {final : Final K} {uid session : String} :
    session ∈ sessionsOf final uid ↔ (uid, session) ∈ final := by
  simp only [sessionsOf, Finset.mem_sort, Finset.mem_image, Finset.mem_filter, Finmap.mem_keys,
    Prod.exists, exists_eq_right]

theorem hasSession_of_mem {uids : List String} {partition : Partition K} {uid session : String}
    (h : (uid, session) ∈ finalOf uids partition) : HasSession partition uid session := by
  by_contra hnone
  have hlookup := lookup_foldl_of_not uids ∅ hnone
  rw [Finmap.lookup_empty, Finmap.lookup_eq_none] at hlookup
  exact hlookup h

/-- A score for every session of the uid. -/
theorem length_sessionScores (final : Final K) (uid : String) :
    (sessionScores final uid).length = (sessionsOf final uid).length := by
  rw [sessionScores, List.length_filterMap_eq_countP, List.countP_eq_length]
  intro session hmem
  rw [mem_sessionsOf, ← Finmap.lookup_isSome] at hmem
  simpa using hmem

/-- The score lists of two reads agree where the last trajectories do. -/
theorem sessionScores_congr {final final' : Final K} {uid : String}
    (h : ∀ session, final.lookup (uid, session) = final'.lookup (uid, session)) :
    sessionScores final uid = sessionScores final' uid := by
  have hsessions : sessionsOf final uid = sessionsOf final' uid := by
    unfold sessionsOf
    congr 2
    ext ⟨uid', session⟩
    simp only [Finset.mem_filter, Finmap.mem_keys, ← Finmap.lookup_isSome]
    constructor
    · rintro ⟨hsome, rfl⟩
      exact ⟨h session ▸ hsome, rfl⟩
    · rintro ⟨hsome, rfl⟩
      exact ⟨h session ▸ hsome, rfl⟩
  rw [sessionScores, sessionScores, hsessions]
  simp only [h]

/-- **Entries of other uids change nothing.** -/
theorem sessionScores_append {uids : List String} {partition block : Partition K} {uid : String}
    (h : ∀ entry ∈ block, ¬ IsTrajectoryOf uid entry) :
    sessionScores (finalOf uids (partition ++ block)) uid =
      sessionScores (finalOf uids partition) uid := by
  refine sessionScores_congr fun session => ?_
  rw [finalOf, List.foldl_append]
  refine lookup_foldl_of_not _ _ ?_
  rintro ⟨entry, hmem, index, hkey⟩
  exact h entry hmem ⟨session, index, hkey⟩

/-- **A full score list** has all the sessions of its task behind it. -/
theorem all_sessions_of_length {n : ℕ} {uids : List String} {partition : Partition K}
    {uid : String}
    (hnames : ∀ session, HasSession partition uid session → session ∈ sessionNames n)
    (hfull : n ≤ (sessionScores (finalOf uids partition) uid).length) {session : String}
    (hsession : session ∈ sessionNames n) : HasSession partition uid session := by
  set sessions := (sessionsOf (finalOf uids partition) uid).toFinset with hsessions
  have hsub : sessions ⊆ sessionNames n := by
    intro s hs
    rw [hsessions, List.mem_toFinset, mem_sessionsOf] at hs
    exact hnames s (hasSession_of_mem hs)
  have hcard : sessions.card = (sessionScores (finalOf uids partition) uid).length := by
    rw [length_sessionScores]
    exact List.toFinset_card_of_nodup (Finset.sort_nodup _ _)
  have hall : sessions = sessionNames n :=
    Finset.eq_of_subset_of_card_le hsub ((card_sessionNames_le n).trans (hcard ▸ hfull))
  rw [← hall, hsessions, List.mem_toFinset, mem_sessionsOf] at hsession
  exact hasSession_of_mem hsession

theorem lookup_foldl_perUidStep {final : Final K} {uids : List String} {scores : Scores K}
    {uid : String} : (uids.foldl (perUidStep final) scores).lookup uid =
      if uid ∈ uids ∧ sessionScores final uid ≠ [] then some (sessionScores final uid)
      else scores.lookup uid := by
  induction uids generalizing scores with
  | nil => simp
  | cons u uids ih =>
    rw [List.foldl_cons, ih, perUidStep]
    by_cases hempty : sessionScores final uid = []
    · by_cases hu : u = uid
      · subst hu
        simp [hempty]
      · have hne : uid ≠ u := fun heq => hu heq.symm
        simp only [hempty, ne_eq, not_true_eq_false, and_false, if_false]
        split_ifs
        · rfl
        · exact Finmap.lookup_insert_of_ne _ hne
    · by_cases hu : u = uid
      · subst hu
        simp [hempty]
      · have hne : uid ≠ u := fun heq => hu heq.symm
        by_cases hmem : uid ∈ uids
        · simp [hmem, hempty]
        · simp only [hmem, hne, List.mem_cons, or_self, false_and, if_false]
          split_ifs
          · rfl
          · exact Finmap.lookup_insert_of_ne _ hne

/-- The scores read for a uid: its list, unless that is empty. -/
theorem lookup_readScores {uids : List String} {partition : Partition K} {uid : String} :
    (readScores uids partition).1.lookup uid =
      if uid ∈ uids ∧ sessionScores (finalOf uids partition) uid ≠ [] then
        some (sessionScores (finalOf uids partition) uid)
      else none := by
  rw [readScores, lookup_foldl_perUidStep, Finmap.lookup_empty]

end ExternalEval
