import Mathlib.Algebra.Order.Floor.Ring
import CodingOpd.Selection.Interleave
import CodingOpd.Selection.Splits
import CodingOpd.Selection.Verified

/-!
# The pilot of Verified

`_select_verified` keeps the pilot proportional to the official test distribution: every repository
gets its share rounded down, and one pass over the largest remainders gives out what is left. The
rows of the repositories are interleaved, so that the fast split is a prefix that covers many of
them.

## Main definitions

* `giveOnce`: the loop over the remainders
* `pilotQuotas`: the quotas of `_select_verified`
* `selectVerified`: `_select_verified`

## Main results

* `giveOnce_of_room`: the first repositories get the slots that remain
* `pilotSplits_perm_takeRanked`: the full split has the first rows of every repository
-/

open Python RankedSort RoundRobin

namespace Selection

variable {V ρ : Type} (K : Type) [Field K] [LinearOrder K] [FloorRing K] [LinearOrder ρ]
variable (sha256 : String → ρ)

/-! ## Quotas in one pass -/

/-- The loop over the order of the remainders: a slot for every repository with room, until none
remains. -/
def giveOnce (size : String → ℤ) : List String → ℤ → (String → ℤ) → String → ℤ
  | [], _, quotas => quotas
  | repo :: order, remaining, quotas =>
    if remaining = 0 then quotas
    else if quotas repo < size repo then
      giveOnce size order (remaining - 1) (Function.update quotas repo (quotas repo + 1))
    else giveOnce size order remaining quotas

/-- The quotas of `_select_verified`, for `total` rows. -/
def pilotQuotas {α : Type} (groups : Dict (List α)) (total fullSize : ℤ) : Dict ℤ :=
  let length repo : ℤ := (groups.getD repo []).length
  let exact repo : K := ((fullSize * length repo : ℤ) : K) / (total : K)
  let quotas repo := min (length repo) (truncate (exact repo))
  let remaining := fullSize - (groups.keys.map quotas).sum
  let order := sortBy (fun repo => toLex (-(exact repo - (quotas repo : K)), repo)) groups.keys
  Dict.ofKeys groups.keys (giveOnce length order remaining quotas)

/-- **Where the first repositories have room**, the pass gives them all that remains. -/
theorem giveOnce_of_room (size : String → ℤ) {order : List String} (hnodup : order.Nodup)
    {remaining : ℕ} (hle : remaining ≤ order.length) {quotas : String → ℤ}
    (hroom : ∀ repo ∈ order.take remaining, quotas repo < size repo) :
    giveOnce size order remaining quotas =
      fun repo => if repo ∈ order.take remaining then quotas repo + 1 else quotas repo := by
  induction order generalizing remaining quotas with
  | nil =>
    funext repo
    rw [List.take_nil, if_neg List.not_mem_nil]
    rfl
  | cons repo order ih =>
    obtain ⟨hrepo, hnodup⟩ := List.nodup_cons.mp hnodup
    cases remaining with
    | zero =>
      funext other
      rw [giveOnce, if_pos Nat.cast_zero, List.take_zero, if_neg List.not_mem_nil]
    | succ n =>
      rw [List.take_succ_cons] at hroom ⊢
      have hnot : ∀ other ∈ order.take n, other ≠ repo :=
        fun other hother => ne_of_mem_of_not_mem (List.mem_of_mem_take hother) hrepo
      have hroom' : ∀ other ∈ order.take n,
          Function.update quotas repo (quotas repo + 1) other < size other := by
        intro other hother
        rw [Function.update_of_ne (hnot other hother)]
        exact hroom other (List.mem_cons_of_mem _ hother)
      have hleft : ((n + 1 : ℕ) : ℤ) - 1 = n := by omega
      rw [giveOnce, if_neg (by omega), if_pos (hroom repo List.mem_cons_self), hleft,
        ih hnodup (Nat.le_of_succ_le_succ hle) hroom']
      funext other
      simp only [List.mem_cons]
      rcases eq_or_ne other repo with rfl | hne
      · rw [if_neg fun hmem => hnot other hmem rfl, if_pos (Or.inl rfl), Function.update_self]
      · simp only [Function.update_of_ne hne, hne, false_or]

/-! ## The pilot -/

/-- A raw row of SWE-bench Verified. Columns that are not looked into are of `V`. -/
structure RawPilotRow (V : Type) where
  instanceId : Option String
  repo : Option String
  problemStatement : Option V
  baseCommit : Option V
  patch : Option V
  testPatch : Option V
  version : Option V
  other : V

/-- A row that has the columns of `required`. -/
def RawPilotRow.HasRequired (raw : RawPilotRow V) : Prop :=
  raw.instanceId.isSome ∧ raw.repo.isSome ∧ raw.problemStatement.isSome ∧ raw.baseCommit.isSome ∧
    raw.patch.isSome ∧ raw.testPatch.isSome ∧ raw.version.isSome

instance (raw : RawPilotRow V) : Decidable raw.HasRequired :=
  inferInstanceAs (Decidable (_ ∧ _))

/-- The body of the first loop of `_select_verified`. The set `seen` holds the ids of the rows that
were read. -/
def readPilotRow (pool : List (VerifiedRow (RawPilotRow V))) (raw : RawPilotRow V) :
    Except PyError (List (VerifiedRow (RawPilotRow V))) := do
  let instanceId ← key "instance_id" raw.instanceId
  raiseUnless (instanceId ∉ pool.map VerifiedRow.instanceId)
    (.valueError "duplicate Verified instance_id")
  let repo ← key "repo" raw.repo
  return pool ++ [{ instanceId, repo, other := raw }]

/-- The splits of the pilot. -/
structure PilotSplits (V : Type) where
  fast : List (VerifiedRow (RawPilotRow V))
  full : List (VerifiedRow (RawPilotRow V))

/-- The splits of rows that were read. -/
def pilotSplits (pool : List (VerifiedRow (RawPilotRow V))) (fastSize fullSize seed : ℤ) :
    Except PyError (PilotSplits V) := do
  let groups := groupBy VerifiedRow.repo pool
  let quotas := pilotQuotas K groups pool.length fullSize
  let chosen := Dict.ofKeys quotas.sortedKeys fun repo =>
    slice (sortBy (fun row : VerifiedRow (RawPilotRow V) =>
      stableRank sha256 seed "verified-task" row.instanceId) (groups.getD repo []))
      (quotas.getD repo 0)
  let ordered ← interleave chosen (sortBy (stableRank sha256 seed "verified-repo") chosen.keys)
  return { fast := slice ordered fastSize, full := ordered }

/-- `_select_verified` -/
def selectVerified (rows : List (RawPilotRow V)) (fastSize fullSize seed : ℤ) :
    Except PyError (PilotSplits V) := do
  raiseUnless (∃ raw ∈ rows.head?, raw.HasRequired)
    (.valueError "Verified rows are missing required columns")
  raiseUnless (0 < fastSize ∧ fastSize ≤ fullSize ∧ fullSize ≤ rows.length)
    (.valueError "expected 0 < fast_size <= full_size <= rows")
  let pool ← rows.foldlM readPilotRow []
  pilotSplits K sha256 pool fastSize fullSize seed

variable {K sha256}

theorem keys_pilotQuotas {α : Type} (groups : Dict (List α)) (total fullSize : ℤ) :
    (pilotQuotas K groups total fullSize).keys = groups.keys :=
  Dict.keys_ofKeys _ _

/-- **The full split has the first rows of every repository**, as many as its quota says, and the
fast split is a slice of it. -/
theorem pilotSplits_perm_takeRanked {pool : List (VerifiedRow (RawPilotRow V))} (hne : pool ≠ [])
    (fastSize fullSize seed : ℤ) :
    ∃ splits, pilotSplits K sha256 pool fastSize fullSize seed = .ok splits ∧
      splits.fast = slice splits.full fastSize ∧
      splits.full.Perm (takeRanked
        (fun row => stableRank sha256 seed "verified-task" row.instanceId)
        (groupBy VerifiedRow.repo pool)
        (pilotQuotas K (groupBy VerifiedRow.repo pool) pool.length fullSize)) := by
  have hsorted : (pilotQuotas K (groupBy VerifiedRow.repo pool) pool.length fullSize).sortedKeys =
      (groupBy VerifiedRow.repo pool).sortedKeys :=
    Dict.sortedKeys_eq_of_perm (keys_pilotQuotas (K := K) _ _ _ ▸ List.Perm.refl _)
  obtain ⟨row, hrow⟩ := List.exists_mem_of_ne_nil pool hne
  have hkeys : (groupBy VerifiedRow.repo pool).sortedKeys ≠ [] :=
    List.ne_nil_of_mem (Dict.mem_sortedKeys.mpr
      (mem_keys_groupBy.mpr (List.mem_map_of_mem hrow)))
  unfold pilotSplits
  dsimp only
  rw [hsorted, Dict.keys_ofKeys]
  obtain ⟨n, hn, hperm⟩ := interleave_spec (fun repo =>
    slice (sortBy (fun row : VerifiedRow (RawPilotRow V) =>
      stableRank sha256 seed "verified-task" row.instanceId)
      ((groupBy VerifiedRow.repo pool).getD repo []))
      ((pilotQuotas K (groupBy VerifiedRow.repo pool) pool.length fullSize).getD repo 0))
    hkeys (sortBy_perm (stableRank sha256 seed "verified-repo")
      (groupBy VerifiedRow.repo pool).sortedKeys)
  rw [hn]
  exact ⟨_, rfl, rfl, hperm⟩

end Selection
