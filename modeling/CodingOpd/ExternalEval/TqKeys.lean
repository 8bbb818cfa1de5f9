import Mathlib.Order.Bounds.Basic
import Mathlib.Data.Prod.Lex
import Mathlib.Data.List.Induction
import CodingOpd.Library.RankedSort
import CodingOpd.Python.Integers
import CodingOpd.ExternalEval.TransferQueue

/-!
# Keys of the transfer queue

`_read_scores` gets the keys of the partition as texts. It takes a trajectory's key apart from the
right, keeps the largest index of every session, and fetches the scores of the kept keys in one
call, whose rows it puts back to the keys by their place. The result is the one of the entries that
the texts stand for.

## Main definitions

* `Queue`, `KvTag`: the store, and the tag of a key
* `TransferQueue.readScores`: `_read_scores` over the texts
* `TqKey.text`, `decodeKey`: the text of a key, and what the loop makes of it

## Main results

* `decodeKey_text`: a key is read back from its text
* `TransferQueue.readScores_eq`: the scores over the texts are those over the entries
* `isLast_lookup_finalOf`: what is kept of a session
* `TransferQueue.readScores_decodes`: one score for a session, of its largest index
-/

open Python

namespace ExternalEval

/-- The tag of a key. -/
structure KvTag where
  status : Option String
deriving DecidableEq

/-- A partition, as the store lists it. -/
abbrev Listing := Dict (Option KvTag)

/-- The store. Of the fields of a key only `rm_scores` is read, a row for every key. -/
structure Queue (K : Type) where
  kvList : String → Option (Dict (Option Listing))
  kvBatchGet : List String → String → Except PyError (List (List K))

/-- The partition of the evaluation. -/
def PARTITION_ID : String := "val"

/-- `(tag or {}).get("status")` -/
def statusOf (tag : Option KvTag) : Option String := tag.bind KvTag.status

/-- `str(status or "unknown")` -/
def orUnknown : Option String → String
  | none => "unknown"
  | some status => if status = "" then "unknown" else status

namespace TransferQueue

variable {K : Type}

/-- What the loop of `_read_scores` has found: the last trajectory's index and key, by uid and
session, and the statuses. -/
structure Found where
  final : Finmap fun _ : String × String => ℤ × String
  statuses : Statuses

/-- One key of the loop. -/
def keyStep (uids : List String) (found : Found) (entry : String × Option KvTag) : Found :=
  if entry.1 ∈ uids then
    { found with statuses := found.statuses.insert entry.1 (orUnknown (statusOf entry.2)) }
  else
    match rsplit ['_'] 2 entry.1.toList with
    | [uid, session, index] =>
      if String.ofList uid ∉ uids ∨ statusOf entry.2 ≠ some "success" then found
      else
        match parseInt index with
        | none => found
        | some index =>
          match found.final.lookup (.ofList uid, .ofList session) with
          | none =>
            { found with
              final := found.final.insert (.ofList uid, .ofList session) (index, entry.1) }
          | some last =>
            if last.1 < index then
              { found with
                final := found.final.insert (.ofList uid, .ofList session) (index, entry.1) }
            else found
    | _ => found

/-- `(tq.kv_list(PARTITION_ID) or {}).get(PARTITION_ID, {}) or {}` -/
def partition (queue : Queue K) : Listing :=
  (((queue.kvList PARTITION_ID).getD []).getD PARTITION_ID (some [])).getD []

/-- `sorted(final.items())`: no two items have the same uid and session. -/
def sortedItems (final : Finmap fun _ : String × String => ℤ × String) :
    List ((String × String) × ℤ × String) :=
  RankedSort.sortedItems toLex final

/-- `per_uid[uid].append(score)` -/
def appendScore (perUid : Scores K) (item : (String × String) × ℤ × String) (score : K) :
    Scores K :=
  perUid.insert item.1.1 ((perUid.lookup item.1.1).getD [] ++ [score])

/-- `_read_scores`. -/
def readScores [Add K] [Zero K] (uids : List String) (queue : Queue K) :
    Except PyError (Scores K × Statuses) := do
  let found := (partition queue).foldl (keyStep uids) ⟨∅, ∅⟩
  let items := sortedItems found.final
  let keys := items.map (·.2.2)
  if keys = [] then return (∅, found.statuses)
  let scores := (← queue.kvBatchGet keys PARTITION_ID).map List.sum
  if scores.length < items.length then
    throw (.valueError "zip() argument 2 is shorter than argument 1")
  if items.length < scores.length then
    throw (.valueError "zip() argument 2 is longer than argument 1")
  return ((items.zip scores).foldl (fun perUid row => appendScore perUid row.1 row.2) ∅,
    found.statuses)

/-- The scores that are put down for a uid, behind those it has. -/
theorem lookup_foldl_appendScore (pairs : List (((String × String) × ℤ × String) × K))
    (perUid : Scores K) (uid : String) :
    (pairs.foldl (fun perUid row => appendScore perUid row.1 row.2) perUid).lookup uid =
      if pairs.filter (·.1.1.1 = uid) = [] then perUid.lookup uid
      else some ((perUid.lookup uid).getD [] ++ (pairs.filter (·.1.1.1 = uid)).map Prod.snd) := by
  induction pairs generalizing perUid with
  | nil => rfl
  | cons row pairs ih =>
    rw [List.foldl_cons, ih, appendScore]
    by_cases huid : row.1.1.1 = uid
    · subst huid
      have hrow : (row :: pairs).filter (·.1.1.1 = row.1.1.1) =
          row :: pairs.filter (·.1.1.1 = row.1.1.1) := List.filter_cons_of_pos (by simp)
      rw [Finmap.lookup_insert, hrow, if_neg (List.cons_ne_nil _ _)]
      split_ifs with hempty
      · rw [hempty]
        rfl
      · simp
    · rw [Finmap.lookup_insert_of_ne _ (Ne.symm huid),
        List.filter_cons_of_neg (by simpa using huid)]

end TransferQueue

/-! ## Texts of keys -/

/-- The text of a key. -/
def TqKey.text : TqKey → Text
  | .prompt uid => uid.toList
  | .trajectory uid session index =>
    uid.toList ++ '_' :: (session.toList ++ '_' :: (toString index).toList)
  | .other key => key.toList

/-- The uids of prompts and the sessions have no underscore. -/
def TqKey.Valid : TqKey → Prop
  | .prompt uid => '_' ∉ uid.toList
  | .trajectory _ session _ => '_' ∉ session.toList
  | .other _ => False

instance : DecidablePred TqKey.Valid
  | .prompt uid => inferInstanceAs (Decidable ('_' ∉ uid.toList))
  | .trajectory _ session _ => inferInstanceAs (Decidable ('_' ∉ session.toList))
  | .other _ => inferInstanceAs (Decidable False)

/-- The key belongs to none of the uids. -/
def TqKey.Foreign (uids : List String) : TqKey → Prop
  | .prompt uid => uid ∉ uids
  | .trajectory uid _ _ => uid ∉ uids
  | .other _ => True

/-- What the loop makes of a key. -/
def decodeKey (key : String) : TqKey :=
  match rsplit ['_'] 2 key.toList with
  | [_] => .prompt key
  | [uid, session, index] =>
    match parseInt index with
    | none => .other key
    | some index => .trajectory (.ofList uid) (.ofList session) index
  | _ => .other key

theorem underscore_notMem_toString (n : ℤ) : '_' ∉ (toString n).toList := by
  have hdigits : ∀ m : ℕ, '_' ∉ Nat.toDigits 10 m := fun m hmem =>
    absurd (Nat.isDigit_of_mem_toDigits (by decide) (by decide) hmem) (by decide)
  rw [Int.toString_eq_repr, Int.repr_eq_if]
  split
  case isTrue => simpa only [Nat.toList_repr] using hdigits _
  case isFalse =>
    rw [String.toList_append, Nat.toList_repr]
    intro hmem
    rcases List.mem_append.mp hmem with hsign | hmem
    · exact absurd hsign (by decide)
    · exact hdigits _ hmem

theorem decodeKey_of_notMem {key : String} (h : '_' ∉ key.toList) :
    decodeKey key = .prompt key := by
  rw [decodeKey, rsplit_of_notMem h]

theorem eq_of_decodeKey_eq_prompt {name uid : String} (h : decodeKey name = .prompt uid) :
    uid = name := by
  unfold decodeKey at h
  split at h
  · exact (TqKey.prompt.inj h).symm
  · split at h <;> cases h
  · cases h

/-- **A key is read back from its text.** -/
theorem decodeKey_text {key : TqKey} (h : key.Valid) : decodeKey (.ofList key.text) = key := by
  cases key with
  | prompt uid =>
    rw [TqKey.text, String.ofList_toList]
    exact decodeKey_of_notMem h
  | trajectory uid session index =>
    -- the index has no underscore, nor has the session: the split from the right ends at the uid
    have hsplit : rsplit ['_'] 2 (TqKey.trajectory uid session index).text =
        [uid.toList, session.toList, (toString index).toList] := by
      rw [TqKey.text, ← List.cons_append, ← List.append_assoc,
        rsplit_append_cons (underscore_notMem_toString index), rsplit_append_cons h]
      rfl
    rw [decodeKey, String.toList_ofList, hsplit]
    simp only [parseInt_toString, String.ofList_toList]
  | other key => exact h.elim

/-! ## What is kept of a session -/

/-- Some entry is a successful trajectory with this index. -/
def Succeeded {K : Type} (partition : Partition K) (uid session : String) (index : ℤ) : Prop :=
  ∃ entry ∈ partition, entry.1 = .trajectory uid session index ∧ entry.2.status = "success"

/-- What is kept of a session of the uids: the score of its largest successful index. -/
def IsLast {K : Type} (uids : List String) (partition : Partition K) (uid session : String) :
    Option (ℤ × K) → Prop
  | none => uid ∈ uids → ∀ index, ¬ Succeeded partition uid session index
  | some (index, score) => uid ∈ uids ∧ IsGreatest {i | Succeeded partition uid session i} index ∧
      ∃ entry ∈ partition, entry.1 = .trajectory uid session index ∧ entry.2.score = score

section

variable {K : Type} {uids : List String} {partition : Partition K} {entry : TqKey × Tag K}
  {uid session : String}

theorem succeeded_snoc {index : ℤ} : Succeeded (partition ++ [entry]) uid session index ↔
    Succeeded partition uid session index ∨
      entry.1 = .trajectory uid session index ∧ entry.2.status = "success" := by
  simp only [Succeeded, List.mem_append, List.mem_singleton]
  constructor
  · rintro ⟨e, he | rfl, hkey, hstatus⟩
    · exact .inl ⟨e, he, hkey, hstatus⟩
    · exact .inr ⟨hkey, hstatus⟩
  · rintro (⟨e, he, hkey, hstatus⟩ | ⟨hkey, hstatus⟩)
    · exact ⟨e, .inl he, hkey, hstatus⟩
    · exact ⟨entry, .inr rfl, hkey, hstatus⟩

/-- An entry that is no success of the session leaves what is kept of it. -/
theorem IsLast.snoc {last : Option (ℤ × K)} (h : IsLast uids partition uid session last)
    (hentry : uid ∈ uids → ∀ index, entry.1 = .trajectory uid session index →
      entry.2.status ≠ "success") :
    IsLast uids (partition ++ [entry]) uid session last := by
  have hsame : uid ∈ uids → ∀ index, Succeeded (partition ++ [entry]) uid session index ↔
      Succeeded partition uid session index := fun huid index =>
    succeeded_snoc.trans (or_iff_left fun hlast => hentry huid index hlast.1 hlast.2)
  cases last with
  | none => exact fun huid index hsucceeded => h huid index ((hsame huid index).mp hsucceeded)
  | some last =>
    obtain ⟨huid, hgreatest, e, he, hkey, hscore⟩ := h
    refine ⟨huid, ?_, e, List.mem_append_left _ he, hkey, hscore⟩
    simpa only [hsame huid] using hgreatest

/-- A success whose index is none of the smaller ones is the last one. -/
theorem isLast_snoc_of_le {index : ℤ} (huid : uid ∈ uids)
    (hkey : entry.1 = .trajectory uid session index) (hstatus : entry.2.status = "success")
    (hle : ∀ i, Succeeded partition uid session i → i ≤ index) :
    IsLast uids (partition ++ [entry]) uid session (some (index, entry.2.score)) := by
  refine ⟨huid, ⟨succeeded_snoc.mpr (.inr ⟨hkey, hstatus⟩), fun i hi => ?_⟩,
    entry, List.mem_append_right _ List.mem_cons_self, hkey, rfl⟩
  rcases succeeded_snoc.mp hi with hi | ⟨hi, -⟩
  · exact hle i hi
  · rw [hkey, TqKey.trajectory.injEq] at hi
    exact hi.2.2.ge

/-- **What is kept of a session** is the score of its largest successful index. -/
theorem isLast_lookup_finalOf (uids : List String) (partition : Partition K)
    (uid session : String) :
    IsLast uids partition uid session ((finalOf uids partition).lookup (uid, session)) := by
  induction partition using List.reverseRecOn with
  | nil =>
    rw [finalOf, List.foldl_nil, Finmap.lookup_empty]
    rintro - index ⟨entry, hmem, -⟩
    exact absurd hmem List.not_mem_nil
  | append_singleton partition entry ih =>
    rw [finalOf, List.foldl_append, List.foldl_cons, List.foldl_nil, ← finalOf]
    by_cases hkey : ∃ index, entry.1 = .trajectory uid session index
    · obtain ⟨index, hkey⟩ := hkey
      simp only [finalStep, hkey]
      -- an entry of the session: it is passed over, or the first success, or one behind another
      split_ifs with hskip
      · refine ih.snoc fun huid _ _ hstatus => ?_
        exact hskip.elim (fun hnot => hnot huid) fun hne => hne hstatus
      · obtain ⟨huid, hstatus⟩ := not_or.mp hskip
        rw [not_not] at huid hstatus
        cases hlast : (finalOf uids partition).lookup (uid, session) with
        | none =>
          rw [hlast] at ih
          rw [Finmap.lookup_insert]
          exact isLast_snoc_of_le huid hkey hstatus fun i hi => absurd hi (ih huid i)
        | some last =>
          rw [hlast] at ih
          obtain ⟨-, hgreatest, e, he, hlastKey, hscore⟩ := ih
          simp only
          split_ifs with hlt
          · rw [Finmap.lookup_insert]
            exact isLast_snoc_of_le huid hkey hstatus fun i hi => (hgreatest.2 hi).trans hlt.le
          · rw [hlast]
            refine ⟨huid, ⟨succeeded_snoc.mpr (.inl hgreatest.1), fun i hi => ?_⟩,
              e, List.mem_append_left _ he, hlastKey, hscore⟩
            rcases succeeded_snoc.mp hi with hi | ⟨hi, -⟩
            · exact hgreatest.2 hi
            · rw [hkey, TqKey.trajectory.injEq] at hi
              exact hi.2.2 ▸ not_lt.mp hlt
    · rw [lookup_finalStep_of_not fun index heq => hkey ⟨index, heq⟩]
      exact ih.snoc fun _ index heq => absurd ⟨index, heq⟩ hkey

/-- A key that is a uid puts down its status. -/
theorem lookup_statusStep (huids : ∀ uid ∈ uids, '_' ∉ uid.toList) (statuses : Statuses)
    (item : String × Option KvTag) (score : K) (uid : String) :
    (statusStep uids statuses (decodeKey item.1, ⟨orUnknown (statusOf item.2), score⟩)).lookup uid =
      if uid ∈ uids ∧ item.1 = uid then some (orUnknown (statusOf item.2))
      else statuses.lookup uid := by
  by_cases hmem : item.1 ∈ uids
  · rw [decodeKey_of_notMem (huids _ hmem)]
    simp only [statusStep, if_pos hmem]
    rcases eq_or_ne uid item.1 with rfl | hne
    · rw [Finmap.lookup_insert, if_pos ⟨hmem, rfl⟩]
    · rw [Finmap.lookup_insert_of_ne _ hne, if_neg fun h => hne h.2.symm]
  · rw [if_neg fun h : uid ∈ uids ∧ item.1 = uid => hmem (h.2 ▸ h.1)]
    cases hkey : decodeKey item.1 with
    | prompt prompt =>
      obtain rfl := eq_of_decodeKey_eq_prompt hkey
      simp only [statusStep, if_neg hmem]
    | trajectory => rfl
    | other => rfl

end

/-! ## The entries behind the texts -/

section

variable {K : Type} [Add K] [Zero K]

/-- The entries that the texts of a listing stand for, with the scores of their rows. -/
def entries (rows : String → List K) (listing : Listing) : Partition K :=
  listing.map fun item =>
    (decodeKey item.1, { status := orUnknown (statusOf item.2), score := (rows item.1).sum })

/-- The store lists the keys of a dictionary, and a batch has the keys' rows in the order of the
keys. -/
structure Queue.Serves (queue : Queue K) (listing : Listing) (rows : String → List K) : Prop where
  lists : TransferQueue.partition queue = listing
  nodup : listing.keys.Nodup
  fetches : ∀ keys, (∀ key ∈ keys, key ∈ listing.keys) →
    queue.kvBatchGet keys PARTITION_ID = .ok (keys.map rows)

namespace TransferQueue

theorem orUnknown_eq_success {status : Option String} :
    orUnknown status = "success" ↔ status = some "success" := by
  cases status with
  | none => decide
  | some status =>
    simp only [orUnknown, Option.some.injEq]
    split_ifs with hempty
    · rw [hempty]
      decide
    · rfl

/-- What the loop has found among the texts stands for what it finds among the entries. -/
structure Found.Simulates (rows : String → List K) (found : Found)
    (kept : Final K × Statuses) : Prop where
  final : ∀ session, kept.1.lookup session =
    (found.final.lookup session).map fun last => (last.1, (rows last.2).sum)
  statuses : kept.2 = found.statuses

theorem Found.Simulates.none {rows : String → List K} : Found.Simulates rows ⟨∅, ∅⟩ (∅, ∅) :=
  ⟨fun session => by rw [Finmap.lookup_empty, Finmap.lookup_empty, Option.map_none], rfl⟩

/-- The last trajectory of a session, put down on both sides. -/
theorem Found.Simulates.insert {rows : String → List K} {found : Found}
    {kept : Final K × Statuses} (h : found.Simulates rows kept) (session : String × String)
    (index : ℤ) (key : String) :
    Found.Simulates rows { found with final := found.final.insert session (index, key) }
      (kept.1.insert session (index, (rows key).sum), kept.2) := by
  refine ⟨fun other => ?_, h.statuses⟩
  rcases eq_or_ne other session with rfl | hne
  · rw [Finmap.lookup_insert, Finmap.lookup_insert, Option.map_some]
  · rw [Finmap.lookup_insert_of_ne _ hne, Finmap.lookup_insert_of_ne _ hne, h.final]

/-- **A key does to the texts what its entry does to the entries.** -/
theorem Found.Simulates.keyStep {rows : String → List K} {uids : List String}
    (huids : ∀ uid ∈ uids, '_' ∉ uid.toList) {found : Found} {kept : Final K × Statuses}
    (h : found.Simulates rows kept) (item : String × Option KvTag) (entry : TqKey × Tag K)
    (hentry : entry = (decodeKey item.1,
      { status := orUnknown (statusOf item.2), score := (rows item.1).sum })) :
    (keyStep uids found item).Simulates rows
      (finalStep uids kept.1 entry, statusStep uids kept.2 entry) := by
  obtain ⟨key, tag⟩ := item
  subst hentry
  unfold TransferQueue.keyStep
  split_ifs with hmem
  · -- a uid has no underscore, so that it stands for a prompt
    rw [decodeKey_of_notMem (huids key hmem)]
    refine ⟨h.final, ?_⟩
    simp only [statusStep, if_pos hmem, h.statuses]
  · -- of the pieces only three are a trajectory's, when the last one is an index
    rcases hsplit : rsplit ['_'] 2 key.toList with _ | ⟨uid, _ | ⟨session, _ | ⟨index, _ | _⟩⟩⟩
    case cons.cons.cons.nil =>
      simp only [decodeKey, hsplit]
      cases hindex : parseInt index with
      | none =>
        simp only [finalStep, statusStep, ite_self]
        exact h
      | some index =>
        simp only [finalStep, statusStep, ne_eq, orUnknown_eq_success]
        split_ifs with hskip
        · exact h
        · rw [h.final]
          cases hlast : found.final.lookup (.ofList uid, .ofList session) with
          | none => exact h.insert _ _ _
          | some last =>
            simp only [Option.map_some]
            split_ifs
            · exact h.insert _ _ _
            · exact h
    case cons.nil =>
      simp only [decodeKey, hsplit, finalStep, statusStep, if_neg hmem]
      exact h
    all_goals
      simp only [decodeKey, hsplit, finalStep, statusStep]
      exact h

/-- The loop over the texts. -/
theorem simulates_foldl {rows : String → List K} {uids : List String}
    (huids : ∀ uid ∈ uids, '_' ∉ uid.toList) (listing : Listing) {found : Found}
    {kept : Final K × Statuses} (h : found.Simulates rows kept) :
    (listing.foldl (keyStep uids) found).Simulates rows
      ((entries rows listing).foldl (finalStep uids) kept.1,
        (entries rows listing).foldl (statusStep uids) kept.2) := by
  induction listing generalizing found kept with
  | nil => exact h
  | cons item listing ih => exact ih (h.keyStep huids item _ rfl)

/-- The kept keys are among those of the listing. -/
theorem keyStep_keys {uids : List String} {found : Found} {item : String × Option KvTag}
    {names : List String} (hitem : item.1 ∈ names)
    (h : ∀ session last, found.final.lookup session = some last → last.2 ∈ names)
    {session : String × String} {last : ℤ × String}
    (hlast : (keyStep uids found item).final.lookup session = some last) : last.2 ∈ names := by
  have hinsert : ∀ (other : String × String) (index : ℤ),
      (found.final.insert other (index, item.1)).lookup session = some last → last.2 ∈ names := by
    intro other index hlookup
    rcases eq_or_ne session other with rfl | hne
    · rw [Finmap.lookup_insert] at hlookup
      cases hlookup
      exact hitem
    · rw [Finmap.lookup_insert_of_ne _ hne] at hlookup
      exact h _ _ hlookup
  unfold keyStep at hlast
  split_ifs at hlast
  · exact h _ _ hlast
  · split at hlast
    · split_ifs at hlast
      · exact h _ _ hlast
      · split at hlast
        · exact h _ _ hlast
        · split at hlast
          · exact hinsert _ _ hlast
          · split_ifs at hlast
            · exact hinsert _ _ hlast
            · exact h _ _ hlast
    · exact h _ _ hlast

theorem foldl_keyStep_keys {uids names : List String} {listing : Listing} {found : Found}
    (hlisting : ∀ key ∈ listing.keys, key ∈ names)
    (h : ∀ session last, found.final.lookup session = some last → last.2 ∈ names) :
    ∀ session last, (listing.foldl (keyStep uids) found).final.lookup session = some last →
      last.2 ∈ names := by
  induction listing generalizing found with
  | nil => exact h
  | cons item listing ih =>
    obtain ⟨hitem, hrest⟩ := List.forall_mem_cons.mp hlisting
    exact ih hrest fun _ _ => keyStep_keys hitem h

/-! ## Items and scores -/

theorem mem_sortedItems {final : Finmap fun _ : String × String => ℤ × String}
    {item : (String × String) × ℤ × String} :
    item ∈ sortedItems final ↔ final.lookup item.1 = some item.2 := RankedSort.mem_sortedItems

/-- The items of a uid have its sessions in order. -/
theorem pairwise_sessions (final : Finmap fun _ : String × String => ℤ × String) (uid : String) :
    (((sortedItems final).filter (·.1.1 = uid)).map (·.1.2)).Pairwise (· < ·) := by
  rw [List.pairwise_map, List.pairwise_filter]
  refine (RankedSort.pairwise_sortedItems toLex final).imp fun {a b} hab ha hb => ?_
  rcases Prod.Lex.toLex_lt_toLex.mp hab with hlt | ⟨-, hlt⟩
  · rw [of_decide_eq_true ha, of_decide_eq_true hb] at hlt
    exact absurd hlt (lt_irrefl _)
  · exact hlt

theorem Found.Simulates.sessionsOf {rows : String → List K} {found : Found}
    {kept : Final K × Statuses} (h : found.Simulates rows kept) (uid : String) :
    sessionsOf kept.1 uid = ((sortedItems found.final).filter (·.1.1 = uid)).map (·.1.2) := by
  have hsorted := pairwise_sessions found.final uid
  -- both lists are in order, so that it is enough that they have the same sessions
  have hset : (kept.1.keys.filter (·.1 = uid)).image Prod.snd =
      (((sortedItems found.final).filter (·.1.1 = uid)).map (·.1.2)).toFinset := by
    ext session
    simp only [Finset.mem_image, Finset.mem_filter, Finmap.mem_keys, List.mem_toFinset,
      List.mem_map, List.mem_filter, mem_sortedItems, decide_eq_true_eq, ← Finmap.lookup_isSome,
      h.final, Option.isSome_map]
    constructor
    · rintro ⟨key, ⟨hsome, huid⟩, rfl⟩
      obtain ⟨last, hlast⟩ := Option.isSome_iff_exists.mp hsome
      exact ⟨(key, last), ⟨hlast, huid⟩, rfl⟩
    · rintro ⟨item, ⟨hlast, huid⟩, rfl⟩
      exact ⟨item.1, ⟨Option.isSome_iff_exists.mpr ⟨_, hlast⟩, huid⟩, rfl⟩
  rw [ExternalEval.sessionsOf, hset]
  exact (List.toFinset_sort _ (hsorted.imp ne_of_lt)).mpr (hsorted.imp le_of_lt)

theorem Found.Simulates.sessionScores {rows : String → List K} {found : Found}
    {kept : Final K × Statuses} (h : found.Simulates rows kept) (uid : String) :
    sessionScores kept.1 uid =
      ((sortedItems found.final).filter (·.1.1 = uid)).map fun item => (rows item.2.2).sum := by
  rw [ExternalEval.sessionScores, h.sessionsOf, List.filterMap_map, ← List.filterMap_eq_map]
  refine List.filterMap_congr fun item hmem => ?_
  obtain ⟨hitem, huid⟩ := List.mem_filter.mp hmem
  obtain rfl := of_decide_eq_true huid
  have hlast : found.final.lookup (item.1.1, item.1.2) = some item.2 := mem_sortedItems.mp hitem
  rw [Function.comp_apply, Function.comp_apply, h.final, hlast]
  rfl

/-- The scores that the items put down are those that are read of the entries. -/
theorem Found.Simulates.lookup_foldl_appendScore {rows : String → List K} {found : Found}
    {uids : List String} {partition : Partition K} {statuses : Statuses}
    (h : found.Simulates rows (finalOf uids partition, statuses)) (uid : String) :
    (((sortedItems found.final).map fun item => (item, (rows item.2.2).sum)).foldl
        (fun perUid row => appendScore perUid row.1 row.2) ∅).lookup uid =
      (ExternalEval.readScores uids partition).1.lookup uid := by
  have hitems : ((sortedItems found.final).map fun item => (item, (rows item.2.2).sum)).filter
      (·.1.1.1 = uid) = ((sortedItems found.final).filter (·.1.1 = uid)).map
        fun item => (item, (rows item.2.2).sum) := List.filter_map
  rw [TransferQueue.lookup_foldl_appendScore, lookup_readScores, h.sessionScores, hitems,
    Finmap.lookup_empty, List.map_map]
  cases hempty : (sortedItems found.final).filter (·.1.1 = uid) with
  | nil => simp
  | cons item items =>
    have huid : uid ∈ uids := by
      have hmem : item ∈ (sortedItems found.final).filter (·.1.1 = uid) :=
        hempty ▸ List.mem_cons_self
      obtain ⟨hitem, heq⟩ := List.mem_filter.mp hmem
      have hlast := isLast_lookup_finalOf uids partition item.1.1 item.1.2
      rw [h.final (item.1.1, item.1.2), mem_sortedItems.mp hitem, Option.map_some] at hlast
      exact of_decide_eq_true heq ▸ hlast.1
    have hsome : ∀ {β : Type} (f : (String × String) × ℤ × String → β),
        (item :: items).map f ≠ [] := fun f =>
      List.map_eq_nil_iff.not.mpr (List.cons_ne_nil item items)
    rw [if_neg (hsome _), if_pos ⟨huid, hsome _⟩]
    rfl

/-- **The scores over the texts are those of the entries** that the texts stand for. -/
theorem readScores_eq {uids : List String} (huids : ∀ uid ∈ uids, '_' ∉ uid.toList)
    {queue : Queue K} {listing : Listing} {rows : String → List K}
    (h : queue.Serves listing rows) :
    readScores uids queue = .ok (ExternalEval.readScores uids (entries rows listing)) := by
  have hsim : Found.Simulates rows (listing.foldl (keyStep uids) ⟨∅, ∅⟩)
      (finalOf uids (entries rows listing), (entries rows listing).foldl (statusStep uids) ∅) :=
    simulates_foldl huids listing .none
  have hkeys : ∀ session last,
      (listing.foldl (keyStep uids) ⟨∅, ∅⟩).final.lookup session = some last →
        last.2 ∈ listing.keys := by
    refine foldl_keyStep_keys (fun _ hkey => hkey) fun session last hlast => ?_
    rw [Finmap.lookup_empty] at hlast
    cases hlast
  rw [readScores, h.lists]
  set found := listing.foldl (keyStep uids) ⟨∅, ∅⟩
  have hstatuses : found.statuses = (ExternalEval.readScores uids (entries rows listing)).2 :=
    hsim.statuses.symm
  have hscores := Finmap.ext_lookup hsim.lookup_foldl_appendScore
  by_cases hnone : (sortedItems found.final).map (·.2.2) = []
  · rw [List.map_eq_nil_iff.mp hnone] at hscores
    rw [if_pos hnone, hstatuses]
    exact congrArg _ (Prod.ext hscores rfl)
  · have hfetch : queue.kvBatchGet ((sortedItems found.final).map (·.2.2)) PARTITION_ID =
        .ok (((sortedItems found.final).map (·.2.2)).map rows) := by
      refine h.fetches _ fun key hkey => ?_
      obtain ⟨item, hitem, rfl⟩ := List.mem_map.mp hkey
      exact hkeys _ _ (mem_sortedItems.mp hitem)
    have hrows : (((sortedItems found.final).map (·.2.2)).map rows).map List.sum =
        (sortedItems found.final).map fun item => (rows item.2.2).sum := by
      rw [List.map_map, List.map_map]
      rfl
    have hzip : (sortedItems found.final).zip
        ((sortedItems found.final).map fun item => (rows item.2.2).sum) =
          (sortedItems found.final).map fun item => (item, (rows item.2.2).sum) := by
      rw [← List.zip_map', List.map_id']
    rw [if_neg hnone, hfetch, ok_bind, hrows]
    simp only [List.length_map, lt_irrefl, if_false]
    rw [hzip, hstatuses]
    exact congrArg _ (Prod.ext hscores rfl)

/-! ## The law of a read -/

/-- A listing of prompts and trajectories. -/
def IsListing (listing : Listing) : Prop :=
  ∀ name ∈ listing.keys, ∃ key : TqKey, key.Valid ∧ .ofList key.text = name

/-- A key of the listing is the session's trajectory with this index, and has the status
`success`. -/
def Lists (listing : Listing) (uid session : String) (index : ℤ) : Prop :=
  (TqKey.trajectory uid session index).Valid ∧
    ∃ tag, (.ofList (TqKey.trajectory uid session index).text, tag) ∈ listing ∧
      statusOf tag = some "success"

/-- A score for each of the uid's sessions that have a success, in the order of the sessions: that
of the success with the largest index. -/
def HasScores (listing : Listing) (rows : String → List K) (uid : String) (scores : List K) :
    Prop :=
  ∃ sessions : List String, sessions.Pairwise (· < ·) ∧
    (∀ session, session ∈ sessions ↔ ∃ index, Lists listing uid session index) ∧
    List.Forall₂ (fun session score => ∃ index,
      IsGreatest {i | Lists listing uid session i} index ∧
        score = (rows (.ofList (TqKey.trajectory uid session index).text)).sum) sessions scores

/-- A listing of keys of other uids. -/
def IsForeign (uids : List String) (listing : Listing) : Prop :=
  ∀ name ∈ listing.keys, ∃ key : TqKey, key.Valid ∧ .ofList key.text = name ∧ key.Foreign uids

variable {listing : Listing} {rows : String → List K} {uids : List String} {uid session : String}
  {index : ℤ}

/-- An entry that is a trajectory comes from the key of that trajectory. -/
theorem eq_text_of_mem_entries (h : IsListing listing) {entry : TqKey × Tag K}
    (hmem : entry ∈ entries rows listing) (hkey : entry.1 = .trajectory uid session index) :
    (TqKey.trajectory uid session index).Valid ∧
      ∃ tag, (.ofList (TqKey.trajectory uid session index).text, tag) ∈ listing ∧
        entry.2.status = orUnknown (statusOf tag) ∧
        entry.2.score = (rows (.ofList (TqKey.trajectory uid session index).text)).sum := by
  obtain ⟨⟨name, tag⟩, hitem, rfl⟩ := List.mem_map.mp hmem
  obtain ⟨key, hvalid, rfl⟩ := h name (List.mem_map_of_mem hitem)
  rw [decodeKey_text hvalid] at hkey
  subst hkey
  exact ⟨hvalid, tag, hitem, rfl, rfl⟩

/-- In a listing of prompts and trajectories the successes of the entries are those of the keys. -/
theorem succeeded_entries_iff (h : IsListing listing) :
    Succeeded (entries rows listing) uid session index ↔ Lists listing uid session index := by
  constructor
  · rintro ⟨entry, hmem, hkey, hstatus⟩
    obtain ⟨hvalid, tag, htag, heq, -⟩ := eq_text_of_mem_entries h hmem hkey
    exact ⟨hvalid, tag, htag, orUnknown_eq_success.mp (heq ▸ hstatus)⟩
  · rintro ⟨hvalid, tag, htag, hstatus⟩
    exact ⟨_, List.mem_map_of_mem htag, decodeKey_text hvalid, orUnknown_eq_success.mpr hstatus⟩

/-- What is kept of a session, in terms of the keys. -/
def IsLastKey (listing : Listing) (rows : String → List K) (uid session : String) :
    Option (ℤ × K) → Prop
  | none => ∀ index, ¬ Lists listing uid session index
  | some (index, score) => IsGreatest {i | Lists listing uid session i} index ∧
      score = (rows (.ofList (TqKey.trajectory uid session index).text)).sum

theorem isLastKey_lookup_finalOf (h : IsListing listing) (rows : String → List K)
    (huid : uid ∈ uids) (session : String) : IsLastKey listing rows uid session
      ((finalOf uids (entries rows listing)).lookup (uid, session)) := by
  have hlast := isLast_lookup_finalOf uids (entries rows listing) uid session
  cases hkept : (finalOf uids (entries rows listing)).lookup (uid, session) with
  | none =>
    rw [hkept] at hlast
    exact fun index hlists => hlast huid index ((succeeded_entries_iff h).mpr hlists)
  | some last =>
    rw [hkept] at hlast
    obtain ⟨-, hgreatest, entry, hmem, hkey, hscore⟩ := hlast
    obtain ⟨-, -, -, -, hrow⟩ := eq_text_of_mem_entries h hmem hkey
    refine ⟨?_, hscore.symm.trans hrow⟩
    simpa only [succeeded_entries_iff h] using hgreatest

/-- What is kept depends only on the keys that are listed. -/
theorem IsLastKey.unique {other : Listing} {last last' : Option (ℤ × K)}
    (h : IsLastKey listing rows uid session last) (h' : IsLastKey other rows uid session last')
    (hsame : ∀ index, Lists other uid session index ↔ Lists listing uid session index) :
    last' = last := by
  match last, last', h, h' with
  | none, none, _, _ => rfl
  | none, some (index, _), hnone, ⟨hgreatest, _⟩ =>
    exact absurd ((hsame index).mp hgreatest.1) (hnone index)
  | some (index, _), none, ⟨hgreatest, _⟩, hnone =>
    exact absurd ((hsame index).mpr hgreatest.1) (hnone index)
  | some (index, _), some (index', _), ⟨hgreatest, hscore⟩, ⟨hgreatest', hscore'⟩ =>
    simp only [hsame] at hgreatest'
    obtain rfl := hgreatest.unique hgreatest'
    rw [hscore, hscore']

/-! ### Statuses -/

/-- The status that is read for a uid is the one of its prompt. -/
theorem lookup_foldl_statusStep (huids : ∀ uid ∈ uids, '_' ∉ uid.toList)
    (hnodup : listing.keys.Nodup) (statuses : Statuses) (uid : String) :
    ((entries rows listing).foldl (statusStep uids) statuses).lookup uid =
      if uid ∈ uids then
        ((listing.lookup uid).map fun tag => orUnknown (statusOf tag)).or (statuses.lookup uid)
      else statuses.lookup uid := by
  induction listing generalizing statuses with
  | nil => exact (ite_self _).symm
  | cons item listing ih =>
    obtain ⟨name, tag⟩ := item
    obtain ⟨hname, hrest⟩ := List.nodup_cons.mp hnodup
    rw [entries, List.map_cons, List.foldl_cons, ← entries, ih hrest,
      lookup_statusStep huids statuses (name, tag), Dict.lookup_cons]
    rcases eq_or_ne uid name with rfl | hne
    · rw [Dict.lookup_eq_none hname, if_pos rfl]
      by_cases huid : uid ∈ uids
      · simp only [huid, and_self, if_true, Option.map_none, Option.none_or, Option.map_some,
          Option.some_or]
      · simp only [huid, false_and, if_false]
    · rw [if_neg (fun h : uid ∈ uids ∧ name = uid => hne h.2.symm), if_neg hne]

/-! ### Reads of other listings -/

/-- The other listing has the same keys and some of other uids among them, in any order. -/
structure Extends (uids : List String) (listing foreign other : Listing) : Prop where
  perm : other.Perm (listing ++ foreign)
  foreign : IsForeign uids foreign

theorem Extends.isListing {foreign other : Listing} (h : Extends uids listing foreign other)
    (hlisting : IsListing listing) : IsListing other := by
  intro name hname
  have hmem : name ∈ (listing ++ foreign).keys := (h.perm.map Prod.fst).mem_iff.mp hname
  rw [Dict.keys, List.map_append, List.mem_append] at hmem
  rcases hmem with hmem | hmem
  · exact hlisting name hmem
  · obtain ⟨key, hvalid, heq, -⟩ := h.foreign name hmem
    exact ⟨key, hvalid, heq⟩

/-- The keys of the uids are those that were there. -/
theorem Extends.mem_iff {foreign other : Listing} (h : Extends uids listing foreign other)
    {key : TqKey} (hvalid : key.Valid) (hown : ¬ key.Foreign uids) {tag : Option KvTag} :
    (.ofList key.text, tag) ∈ other ↔ (.ofList key.text, tag) ∈ listing := by
  rw [h.perm.mem_iff, List.mem_append]
  refine or_iff_left fun hmem => ?_
  obtain ⟨key', hvalid', heq, hforeign⟩ := h.foreign (.ofList key.text) (List.mem_map_of_mem hmem)
  -- two keys with one text are the same, and a foreign one is none of the uids'
  have hkey : key' = key := by
    rw [← decodeKey_text hvalid', heq, decodeKey_text hvalid]
  exact hown (hkey ▸ hforeign)

/-- **Neither the order of the listing nor keys of other uids matter.** -/
theorem Extends.readScores_eq (huids : ∀ uid ∈ uids, '_' ∉ uid.toList) {foreign other : Listing}
    (h : Extends uids listing foreign other) (hlisting : IsListing listing)
    (hnodup : listing.keys.Nodup) (hnodup' : other.keys.Nodup) :
    ExternalEval.readScores uids (entries rows other) =
      ExternalEval.readScores uids (entries rows listing) := by
  refine Prod.ext (Finmap.ext_lookup fun uid => ?_) (Finmap.ext_lookup fun uid => ?_)
  · rw [lookup_readScores, lookup_readScores]
    by_cases huid : uid ∈ uids
    · -- what is kept of a session depends only on the keys of its uid
      have hscores : sessionScores (finalOf uids (entries rows other)) uid =
          sessionScores (finalOf uids (entries rows listing)) uid := by
        refine sessionScores_congr fun session => ?_
        refine (isLastKey_lookup_finalOf hlisting rows huid session).unique
          (isLastKey_lookup_finalOf (h.isListing hlisting) rows huid session) fun index => ?_
        refine and_congr_right fun hvalid => exists_congr fun tag => and_congr_left fun _ => ?_
        exact h.mem_iff hvalid fun hforeign => hforeign huid
      rw [hscores]
    · rw [if_neg fun h => huid h.1, if_neg fun h => huid h.1]
  · rw [ExternalEval.readScores, ExternalEval.readScores, lookup_foldl_statusStep huids hnodup',
      lookup_foldl_statusStep huids hnodup]
    by_cases huid : uid ∈ uids
    · -- the prompt of a uid is a key of its own
      have hprompt : other.lookup uid = listing.lookup uid := by
        refine Option.ext fun tag => ?_
        have hvalid : (TqKey.prompt uid).Valid := huids uid huid
        have hmem : (.ofList (TqKey.prompt uid).text, tag) ∈ other ↔
            (.ofList (TqKey.prompt uid).text, tag) ∈ listing :=
          h.mem_iff hvalid fun hno => hno huid
        rw [TqKey.text, String.ofList_toList] at hmem
        rw [Dict.lookup_eq_some_iff hnodup', Dict.lookup_eq_some_iff hnodup, hmem]
      rw [hprompt]
    · rw [if_neg huid, if_neg huid]

/-! ### One score for a session -/

theorem forall₂_filterMap {α β : Type} {R : α → β → Prop} {f : α → Option β} {xs : List α}
    (h : ∀ x ∈ xs, ∃ y, f x = some y ∧ R x y) : List.Forall₂ R xs (xs.filterMap f) := by
  induction xs with
  | nil => exact .nil
  | cons x xs ih =>
    obtain ⟨⟨y, hy, hR⟩, hrest⟩ := List.forall_mem_cons.mp h
    rw [List.filterMap_cons_some hy]
    exact .cons hR (ih hrest)

theorem hasScores_sessionScores (h : IsListing listing) (rows : String → List K)
    (huid : uid ∈ uids) :
    HasScores listing rows uid (sessionScores (finalOf uids (entries rows listing)) uid) := by
  have hlast := isLastKey_lookup_finalOf h rows huid
  refine ⟨sessionsOf (finalOf uids (entries rows listing)) uid, ?_, fun session => ?_, ?_⟩
  · exact (Finset.sortedLT_sort _).pairwise
  · -- a session is listed when a success of it was kept
    rw [mem_sessionsOf, ← Finmap.lookup_isSome]
    cases hkept : (finalOf uids (entries rows listing)).lookup (uid, session) with
    | none =>
      have hnone := hkept ▸ hlast session
      exact ⟨fun hsome => absurd hsome Bool.false_ne_true,
        fun ⟨index, hlists⟩ => absurd hlists (hnone index)⟩
    | some last =>
      have hsome := hkept ▸ hlast session
      exact ⟨fun _ => ⟨last.1, hsome.1.1⟩, fun _ => rfl⟩
  · refine forall₂_filterMap fun session hsession => ?_
    rw [mem_sessionsOf, ← Finmap.lookup_isSome] at hsession
    obtain ⟨last, hkept⟩ := Option.isSome_iff_exists.mp hsession
    have hsome := hkept ▸ hlast session
    exact ⟨last.2, by rw [hkept, Option.map_some], last.1, hsome.1, hsome.2⟩

/-- **One score for every session with a success**, of the success with the largest index, whatever
the order of the listing and the keys of other uids. -/
theorem readScores_decodes (huids : ∀ uid ∈ uids, '_' ∉ uid.toList) (hlisting : IsListing listing)
    {queue : Queue K} (hserves : queue.Serves listing rows) :
    ∃ result : Scores K × Statuses, readScores uids queue = .ok result ∧
      (∀ uid ∈ uids, HasScores listing rows uid ((result.1.lookup uid).getD [])) ∧
      (∀ uid ∉ uids, uid ∉ result.1) ∧
      ∀ (foreign other : Listing) (queue' : Queue K), Extends uids listing foreign other →
        queue'.Serves other rows → readScores uids queue' = .ok result := by
  refine ⟨_, readScores_eq huids hserves, fun uid huid => ?_, fun uid huid => ?_,
    fun foreign other queue' hextends hserves' => ?_⟩
  · rw [lookup_readScores]
    split_ifs with hempty
    · exact hasScores_sessionScores hlisting rows huid
    · -- no scores are put down for a uid without successes
      have hnil : sessionScores (finalOf uids (entries rows listing)) uid = [] :=
        not_not.mp fun hne => hempty ⟨huid, hne⟩
      exact hnil ▸ hasScores_sessionScores hlisting rows huid
  · rw [← Finmap.lookup_eq_none, lookup_readScores, if_neg fun h => huid h.1]
  · rw [readScores_eq huids hserves',
      hextends.readScores_eq huids hlisting hserves.nodup hserves'.nodup]

/-- Two trajectories of a session with success, a failed one of another, and one of another uid. -/
def sixKeys : Listing :=
  [(.trajectory "a" "0" 10, "success"), (.prompt "a", "finished"),
    (.trajectory "a" "0" 9, "success"), (.trajectory "a" "1" 0, "failure"),
    (.trajectory "b_0" "0" 0, "success"), (.trajectory "a" "10" 0, "success")].map
      fun (entry : TqKey × String) => (.ofList entry.1.text, some ⟨some entry.2⟩)

/-- A store with these keys, whose rows have the scores of their tokens. -/
def sixKeysQueue : Queue ℤ where
  kvList := fun _ => some [(PARTITION_ID, some sixKeys)]
  kvBatchGet := fun keys _ => .ok (keys.map fun key => [0, key.length])

theorem readScores_decodes_sixKeys :
    ∃ result : Scores ℤ × Statuses, readScores ["a"] sixKeysQueue = .ok result ∧
      (∀ uid ∈ ["a"], HasScores sixKeys (fun key => [0, (key.length : ℤ)]) uid
        ((result.1.lookup uid).getD [])) ∧
      (∀ uid ∉ ["a"], uid ∉ result.1) ∧
      ∀ (foreign other : Listing) (queue' : Queue ℤ), Extends ["a"] sixKeys foreign other →
        queue'.Serves other (fun key => [0, (key.length : ℤ)]) →
          readScores ["a"] queue' = .ok result :=
  readScores_decodes (by decide)
    (fun name hname => by
      obtain ⟨_, hitem, rfl⟩ := List.mem_map.mp hname
      obtain ⟨entry, hentry, rfl⟩ := List.mem_map.mp hitem
      refine ⟨entry.1, ?_, rfl⟩
      revert entry
      decide)
    ⟨by decide, by decide, fun _ _ => rfl⟩

end TransferQueue

end

end ExternalEval
