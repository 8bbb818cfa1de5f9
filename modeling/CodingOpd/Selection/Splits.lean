import Mathlib.Algebra.Order.Floor.Ring
import Mathlib.Data.Prod.Lex
import CodingOpd.Selection.Rows

/-!
# Splits

`build_r2e_splits` divides a pool into a development and a training split, with smaller splits
nested in the latter. Each is a repository-proportional selection of `stratified_select`, whose
quotas `_repo_quotas` completes by giving out the slots that remain in rounds.

## Main definitions

* `giveSlots`, `allocate`: the loops of `_repo_quotas`
* `repoQuotas`, `stratifiedSelect`: `_repo_quotas`, `stratified_select`
* `buildR2eSplits`: `build_r2e_splits`

## Main results

* `stratifiedSelect_perm`: a selection does not depend on the order of the rows
* `buildR2eSplits_perm`: the splits do not depend on the order of the rows
-/

open Python RankedSort

namespace Selection

/-! ## Quotas in rounds -/

/-- The variables of the loops of `_repo_quotas`. -/
structure Rounds where
  remaining : ℕ
  quotas : String → ℤ
  progressed : Bool

/-- A slot for a repository. -/
def Rounds.give (rounds : Rounds) (repo : String) : Rounds where
  remaining := rounds.remaining - 1
  quotas := Function.update rounds.quotas repo (rounds.quotas repo + 1)
  progressed := true

/-- The inner loop: a slot for every repository with room, until no slot remains. -/
def giveSlots (size : String → ℤ) : List String → Rounds → Rounds
  | [], rounds => rounds
  | repo :: order, rounds =>
    if rounds.quotas repo < size repo then
      if (rounds.give repo).remaining = 0 then rounds.give repo
      else giveSlots size order (rounds.give repo)
    else giveSlots size order rounds

/-- A round in which a slot is given leaves fewer slots. -/
theorem giveSlots_remaining (size : String → ℤ) (order : List String) (rounds : Rounds)
    (hpos : 0 < rounds.remaining) :
    (giveSlots size order rounds).remaining ≤ rounds.remaining ∧
      ((giveSlots size order rounds).progressed → rounds.progressed = false →
        (giveSlots size order rounds).remaining < rounds.remaining) := by
  induction order generalizing rounds with
  | nil =>
    constructor
    · exact le_rfl
    · intro hprogressed hnot
      rw [giveSlots, hnot] at hprogressed
      cases hprogressed
  | cons repo order ih =>
    rw [giveSlots]
    split
    case isTrue =>
      have hlt : (rounds.give repo).remaining < rounds.remaining := Nat.sub_one_lt_of_lt hpos
      split
      case isTrue => exact ⟨hlt.le, fun _ _ => hlt⟩
      case isFalse hleft =>
        have hle := (ih (rounds.give repo) (Nat.pos_of_ne_zero hleft)).1
        exact ⟨hle.trans hlt.le, fun _ _ => hle.trans_lt hlt⟩
    case isFalse => exact ih rounds hpos

/-- The outer loop: rounds until no slot remains. It raises when no repository has room. -/
def allocate (size : String → ℤ) (order : List String) (remaining : ℕ) (quotas : String → ℤ) :
    Option (String → ℤ) :=
  if hzero : remaining = 0 then some quotas
  else
    let rounds := giveSlots size order ⟨remaining, quotas, false⟩
    if hprogressed : rounds.progressed then
      have : rounds.remaining < remaining :=
        (giveSlots_remaining size order _ (Nat.pos_of_ne_zero hzero)).2 hprogressed rfl
      allocate size order rounds.remaining rounds.quotas
    else none
termination_by remaining

/-- A negative number of slots never comes down to zero: slots are given out until no repository has
room. -/
def allocateRemaining (size : String → ℤ) (order : List String) :
    ℤ → (String → ℤ) → Option (String → ℤ)
  | .ofNat remaining, quotas => allocate size order remaining quotas
  | .negSucc _, _ => none

variable {V ρ : Type} (K : Type) [Field K] [LinearOrder K] [FloorRing K] [LinearOrder ρ]
variable (sha256 : String → ρ)

/-- `int(value)` -/
def truncate {K : Type} [Field K] [LinearOrder K] [FloorRing K] (value : K) : ℤ :=
  if 0 ≤ value then ⌊value⌋ else ⌈value⌉

/-- The quotas of the repositories with the given sizes. -/
def quotasOf (repos : List String) (length : String → ℤ) (size : ℤ) :
    Except PyError (String → ℤ) := do
  let total := (repos.map length).sum
  raiseUnless (¬ (size < 0 ∨ size > total)) (.valueError "requested more rows than the pool has")
  let exact repo : K := ((size * length repo : ℤ) : K) / (total : K)
  let quotas repo := min (length repo) (truncate (exact repo))
  let remaining := size - (repos.map quotas).sum
  let order := sortBy (fun repo => toLex (-(exact repo - (quotas repo : K)), repo)) repos
  match allocateRemaining length order remaining quotas with
  | none => .error (.runtimeError "unable to allocate repository quotas")
  | some quotas => .ok quotas

theorem quotasOf_eq_ok {repos : List String} {length : String → ℤ} {size : ℤ} {exact : String → K}
    {quotas result : String → ℤ} (hchecks : ¬ (size < 0 ∨ size > (repos.map length).sum))
    (hexact : exact = fun repo => ((size * length repo : ℤ) : K) / ((repos.map length).sum : K))
    (hquotas : quotas = fun repo => min (length repo) (truncate (exact repo)))
    (h : allocateRemaining length
      (sortBy (fun repo => toLex (-(exact repo - (quotas repo : K)), repo)) repos)
      (size - (repos.map quotas).sum) quotas = some result) :
    quotasOf K repos length size = .ok result := by
  subst hexact hquotas
  rw [quotasOf, raiseUnless, if_pos hchecks]
  exact congrArg (fun result : Option (String → ℤ) => match result with
    | none => Except.error (PyError.runtimeError "unable to allocate repository quotas")
    | some quotas => .ok quotas) h

/-- `_repo_quotas` -/
def repoQuotas {α : Type} (groups : Dict (List α)) (size : ℤ) : Except PyError (Dict ℤ) := do
  let quotas ← quotasOf K groups.keys (fun repo => (groups.getD repo []).length) size
  return Dict.ofKeys groups.keys quotas

/-! ## Selections -/

/-- `stratified_select` -/
def stratifiedSelect (rows : List (Row V)) (size seed : ℤ) (label : String) :
    Except PyError (List (Row V)) := do
  let groups := groupBy Row.repoName rows
  let quotas ← repoQuotas K groups size
  let selected := takeRanked (fun row => stableRank sha256 seed label row.taskId) groups quotas
  return sortBy (fun row => stableRank sha256 seed (label ++ ":order") row.taskId) selected

/-- The sizes of the splits, with the defaults of `build_r2e_splits`. -/
structure SplitSizes where
  trainSize : ℤ := 2048
  devSize : ℤ := 128
  pilotSize : ℤ := 128
  debugSize : Option ℤ := none
  smokeSize : ℤ := 8

/-- The splits of a pool, in the order of the dictionary. -/
def splitsOf (pool : List (Row V)) (sizes : SplitSizes) (seed : ℤ) :
    Except PyError (Dict (List (Row V))) := do
  raiseUnless (sizes.trainSize + sizes.devSize ≤ pool.length)
    (.valueError "train_size + dev_size exceeds source pool")
  raiseUnless (0 < sizes.smokeSize ∧ sizes.smokeSize ≤ sizes.pilotSize ∧
    sizes.pilotSize ≤ sizes.trainSize)
    (.valueError "expected 0 < smoke_size <= pilot_size <= train_size")
  raiseUnless (∀ debugSize ∈ sizes.debugSize,
    sizes.smokeSize ≤ debugSize ∧ debugSize ≤ sizes.pilotSize)
    (.valueError "expected smoke_size <= debug_size <= pilot_size")
  let dev ← stratifiedSelect K sha256 pool sizes.devSize seed "dev"
  let trainCandidates := pool.filter fun row => row.taskId ∉ dev.map Row.taskId
  let train ← stratifiedSelect K sha256 trainCandidates sizes.trainSize seed "train"
  let pilot ← stratifiedSelect K sha256 train sizes.pilotSize seed "pilot"
  let smoke ← stratifiedSelect K sha256 pilot sizes.smokeSize seed "smoke"
  match sizes.debugSize with
  | none => return [("train", train), ("dev", dev), ("pilot", pilot), ("smoke", smoke)]
  | some debugSize =>
    let remaining := pilot.filter fun row => row.taskId ∉ smoke.map Row.taskId
    let debugExtra ← stratifiedSelect K sha256 remaining (debugSize - sizes.smokeSize) seed
      "debug-extra"
    let debug := sortBy (fun row => stableRank sha256 seed "debug:order" row.taskId)
      (smoke ++ debugExtra)
    return [("train", train), ("dev", dev), ("pilot", pilot), ("debug", debug), ("smoke", smoke)]

/-- `build_r2e_splits` -/
def buildR2eSplits (rows : List (RawRow V)) (sizes : SplitSizes) (seed : ℤ) :
    Except PyError (Dict (List (Row V))) := do
  let pool ← validateSourceRows rows
  splitsOf K sha256 pool sizes seed

/-! ## The order of the rows -/

variable {K sha256}

/-- Quotas do not depend on the order of the repositories. -/
theorem quotasOf_perm {repos repos' : List String} (hperm : repos.Perm repos')
    (length : String → ℤ) (size : ℤ) :
    quotasOf K repos length size = quotasOf K repos' length size := by
  have horder : ∀ f : String → K, sortBy (fun repo => toLex (f repo, repo)) repos =
      sortBy (fun repo => toLex (f repo, repo)) repos' := by
    intro f
    apply sortBy_eq_of_perm hperm
    intro repo _ other _ heq
    exact congrArg (fun key => (ofLex key).2) heq
  unfold quotasOf
  simp only [(hperm.map _).sum_eq, horder]

/-- **A selection does not depend on the order of the rows.** -/
theorem stratifiedSelect_perm {rows rows' : List (Row V)} (hperm : rows.Perm rows') {seed : ℤ}
    {label : String} (hinj : Set.InjOn (fun row : Row V => stableRank sha256 seed label row.taskId)
      {row | row ∈ rows}) (size : ℤ) :
    stratifiedSelect K sha256 rows size seed label =
      stratifiedSelect K sha256 rows' size seed label := by
  have hkeys := keys_groupBy_perm Row.repoName hperm
  have hlengths : (fun repo => (((groupBy Row.repoName rows).getD repo []).length : ℤ)) =
      fun repo => (((groupBy Row.repoName rows').getD repo []).length : ℤ) := by
    funext repo
    rw [(getD_groupBy_perm Row.repoName hperm repo).length_eq]
  unfold stratifiedSelect repoQuotas
  dsimp only
  rw [hlengths, quotasOf_perm hkeys]
  cases quotasOf K (groupBy Row.repoName rows').keys _ size with
  | error error => rfl
  | ok quotas =>
    show Except.ok (sortBy _ (takeRanked _ _ (Dict.ofKeys _ quotas))) =
      Except.ok (sortBy _ (takeRanked _ _ (Dict.ofKeys _ quotas)))
    rw [takeRanked_perm hperm hinj fun repo => Dict.getD_ofKeys_perm hkeys quotas repo 0]

/-- The splits of a pool do not depend on the order of its rows. -/
theorem splitsOf_perm {pool pool' : List (Row V)} (hperm : pool.Perm pool')
    (hids : (pool.map Row.taskId).Nodup) {seed : ℤ}
    (hrank : RanksApart sha256 seed ["dev", "train"] (pool.map Row.taskId)) (sizes : SplitSizes) :
    splitsOf K sha256 pool sizes seed = splitsOf K sha256 pool' sizes seed := by
  have hmem : ∀ row ∈ pool, row.taskId ∈ pool.map Row.taskId := fun _ => List.mem_map_of_mem
  have hdev := stratifiedSelect_perm (K := K) hperm
    (hrank.injOn (List.mem_cons_self) hids hmem) sizes.devSize
  have htrain : ∀ dev : List (Row V),
      stratifiedSelect K sha256 (pool.filter fun row => row.taskId ∉ dev.map Row.taskId)
        sizes.trainSize seed "train" =
      stratifiedSelect K sha256 (pool'.filter fun row => row.taskId ∉ dev.map Row.taskId)
        sizes.trainSize seed "train" := by
    intro dev
    apply stratifiedSelect_perm (hperm.filter _)
    apply hrank.injOn (List.mem_cons_of_mem _ (List.mem_singleton_self _))
    · exact hids.sublist (List.Sublist.map _ List.filter_sublist)
    · exact fun row hrow => hmem row (List.mem_of_mem_filter hrow)
  unfold splitsOf
  simp only [hperm.length_eq, hdev, htrain]

/-- **The splits do not depend on the order of the rows.** -/
theorem buildR2eSplits_perm {rows rows' : List (RawRow V)} (hperm : rows.Perm rows') {seed : ℤ}
    (hrank : RanksApart sha256 seed ["dev", "train"]
      ((rows.filterMap RawRow.complete?).map Row.taskId)) {sizes : SplitSizes}
    {result : Dict (List (Row V))} (h : buildR2eSplits K sha256 rows sizes seed = .ok result) :
    buildR2eSplits K sha256 rows' sizes seed = .ok result := by
  obtain ⟨pool, hpool, h⟩ := bind_eq_ok.mp h
  obtain ⟨pool', hpool', hpools⟩ := validateSourceRows_perm hperm hpool
  obtain ⟨-, rfl, hids, -⟩ := validateSourceRows_eq_ok.mp hpool
  rw [buildR2eSplits, hpool', ok_bind, ← splitsOf_perm hpools hids hrank, h]

end Selection
