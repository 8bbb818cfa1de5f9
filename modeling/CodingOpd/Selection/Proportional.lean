import Mathlib.Data.Rat.Floor
import CodingOpd.Library.Apportionment
import CodingOpd.Selection.Splits

/-!
# Proportional splits

The quotas of `_repo_quotas` are the proportional shares rounded down, and one more row for the
largest remainders: the first round of its loop gives out all that is left. A selection of
`stratified_select` has the rows of every repository in proportion, up to less than one, and the
splits of `build_r2e_splits` are drawn from one another so that the training and development splits
are disjoint and the smaller ones are nested in the training split.

## Main definitions

* `Drawn`: a selection of a given size from a pool, proportional by repository
* `SplitSizes.Checked`: the sizes that pass the checks
* `Splits`, `Splits.Nested`: the splits, and what they are to each other

## Main results

* `quotasOf_spec`: the quotas are found, and are the shares up to less than one
* `stratifiedSelect_spec`: a selection is drawn from its pool
* `buildR2eSplits_nested`: the splits are found, disjoint, nested, exact and proportional
-/

open Python RankedSort Apportionment

namespace Selection

/-! ## The first round -/

/-- Where the first repositories have room, a round gives them all that remains. -/
theorem giveSlots_of_room (size : String → ℤ) {order : List String} (hnodup : order.Nodup)
    {remaining : ℕ} (hpos : 0 < remaining) (hle : remaining ≤ order.length) {quotas : String → ℤ}
    (hroom : ∀ repo ∈ order.take remaining, quotas repo < size repo) (progressed : Bool) :
    giveSlots size order ⟨remaining, quotas, progressed⟩ =
      ⟨0, fun repo => if repo ∈ order.take remaining then quotas repo + 1 else quotas repo,
        true⟩ := by
  induction order generalizing remaining quotas progressed with
  | nil => exact absurd hle (not_le.mpr hpos)
  | cons repo order ih =>
    obtain ⟨hrepo, hnodup⟩ := List.nodup_cons.mp hnodup
    obtain ⟨n, rfl⟩ := Nat.exists_eq_succ_of_ne_zero hpos.ne'
    rw [List.take_succ_cons] at hroom ⊢
    have hnot : ∀ other ∈ order.take n, other ≠ repo :=
      fun other hother => ne_of_mem_of_not_mem (List.mem_of_mem_take hother) hrepo
    rw [giveSlots, if_pos (hroom repo List.mem_cons_self)]
    show (if n = 0 then _ else _) = _
    split
    case isTrue hzero =>
      subst hzero
      rw [Rounds.give, Rounds.mk.injEq]
      refine ⟨rfl, ?_, rfl⟩
      funext other
      rw [List.take_zero, Function.update_apply]
      simp only [List.mem_singleton]
      split
      case isTrue heq => rw [heq]
      case isFalse => rfl
    case isFalse hzero =>
      -- the rest of the round has room with the quota just raised
      have hroom' : ∀ other ∈ order.take n,
          Function.update quotas repo (quotas repo + 1) other < size other := by
        intro other hother
        rw [Function.update_of_ne (hnot other hother)]
        exact hroom other (List.mem_cons_of_mem _ hother)
      show giveSlots size order ⟨n, Function.update quotas repo (quotas repo + 1), true⟩ = _
      rw [ih hnodup (Nat.pos_of_ne_zero hzero) (Nat.le_of_succ_le_succ hle) hroom' true,
        Rounds.mk.injEq]
      refine ⟨rfl, ?_, rfl⟩
      funext other
      simp only [List.mem_cons]
      rcases eq_or_ne other repo with rfl | hne
      · rw [if_neg fun hmem => hnot other hmem rfl, if_pos (Or.inl rfl), Function.update_self]
      · simp only [Function.update_of_ne hne, hne, false_or]

/-- Then no slot remains for another round. -/
theorem allocate_of_room (size : String → ℤ) {order : List String} (hnodup : order.Nodup)
    {remaining : ℕ} (hle : remaining ≤ order.length) {quotas : String → ℤ}
    (hroom : ∀ repo ∈ order.take remaining, quotas repo < size repo) :
    allocate size order remaining quotas =
      some fun repo => if repo ∈ order.take remaining then quotas repo + 1 else quotas repo := by
  rw [allocate]
  split
  case isTrue hzero =>
    subst hzero
    simp
  case isFalse hzero =>
    have hround := giveSlots_of_room size hnodup (Nat.pos_of_ne_zero hzero) hle hroom false
    dsimp only
    rw [dif_pos (by rw [hround]), hround, allocate, dif_pos rfl]

/-- A number of slots that is not negative. -/
theorem allocateRemaining_natCast (size : String → ℤ) (order : List String) (remaining : ℕ)
    (quotas : String → ℤ) :
    allocateRemaining size order remaining quotas = allocate size order remaining quotas := rfl

variable {K : Type} [Field K] [LinearOrder K] [IsStrictOrderedRing K] [FloorRing K]

/-! ## The quotas -/

/-- The proportional share of a repository. -/
def proportion (K : Type) [Field K] (length : String → ℤ) (size total : ℤ) (repo : String) : K :=
  ((size * length repo : ℤ) : K) / (total : K)

section Quotas

variable {repos : List String} {length : String → ℤ} {size : ℤ}

omit [IsStrictOrderedRing K] in
/-- The proportional shares add up to the size. -/
theorem sum_proportion (hlength : ∀ repo ∈ repos, 0 < length repo) (hsize : 0 ≤ size)
    (hle : size ≤ (repos.map length).sum) :
    (repos.map (proportion K length size (repos.map length).sum)).sum = (size : K) := by
  by_cases hzero : (repos.map length).sum = 0
  · -- an empty pool, of which nothing is drawn
    have hnil : repos = [] := by
      by_contra hne
      have hpos : 0 < (repos.map length).sum := by
        apply List.sum_pos
        · intro n hn
          obtain ⟨repo, hrepo, rfl⟩ := List.mem_map.mp hn
          exact hlength repo hrepo
        · exact fun h => hne (List.map_eq_nil_iff.mp h)
      exact hpos.ne' hzero
    have hnothing : size = 0 := le_antisymm (hzero ▸ hle) hsize
    rw [hnil, hnothing]
    simp
  · have htotal : ((repos.map length).sum : K) ≠ 0 := Int.cast_ne_zero.mpr hzero
    have hscale : proportion K length size (repos.map length).sum = fun repo =>
        (size : K) / ((repos.map length).sum : ℤ) * (length repo : K) := by
      funext repo
      rw [proportion, Int.cast_mul, mul_div_right_comm]
    rw [hscale, List.sum_map_mul_left, ← cast_sum_map, div_mul_cancel₀ _ htotal]

theorem proportion_nonneg (hlength : ∀ repo ∈ repos, 0 < length repo) (hsize : 0 ≤ size)
    {repo : String} (hrepo : repo ∈ repos) :
    0 ≤ proportion K length size (repos.map length).sum repo := by
  have htotal : 0 ≤ (repos.map length).sum := by
    apply List.sum_nonneg
    intro n hn
    obtain ⟨other, hother, rfl⟩ := List.mem_map.mp hn
    exact (hlength other hother).le
  exact div_nonneg (Int.cast_nonneg (mul_nonneg hsize (hlength repo hrepo).le))
    (Int.cast_nonneg htotal)

theorem proportion_le (hlength : ∀ repo ∈ repos, 0 < length repo) (hsize : 0 ≤ size)
    (hle : size ≤ (repos.map length).sum) {repo : String} (hrepo : repo ∈ repos) :
    proportion K length size (repos.map length).sum repo ≤ length repo := by
  rcases eq_or_lt_of_le (hsize.trans hle) with hzero | hpos
  · rw [proportion, ← hzero, Int.cast_zero, div_zero]
    exact Int.cast_nonneg (hlength repo hrepo).le
  · rw [proportion, div_le_iff₀ (Int.cast_pos.mpr hpos), ← Int.cast_mul, Int.cast_le, mul_comm]
    exact mul_le_mul_of_nonneg_left hle (hlength repo hrepo).le

/-- The quota before the rounds is the share rounded down: it is at most the repository's rows. -/
theorem min_truncate_proportion (hlength : ∀ repo ∈ repos, 0 < length repo) (hsize : 0 ≤ size)
    (hle : size ≤ (repos.map length).sum) {repo : String} (hrepo : repo ∈ repos) :
    min (length repo) (truncate (proportion K length size (repos.map length).sum repo)) =
      ⌊proportion K length size (repos.map length).sum repo⌋ := by
  rw [truncate, if_pos (proportion_nonneg hlength hsize hrepo)]
  apply min_eq_right
  exact Int.cast_le.mp ((Int.floor_le _).trans (proportion_le hlength hsize hle hrepo))

/-- What is left is one row for each of the first repositories in the order of the remainders, and
these are positive. -/
theorem exists_units {exact : String → K} {floors : String → ℤ}
    (hfloor : ∀ repo ∈ repos, floors repo = ⌊exact repo⌋)
    (hsum : (repos.map exact).sum = (size : K)) {order : List String}
    (horder : order =
      sortBy (fun repo => toLex (-(exact repo - (floors repo : K)), repo)) repos) :
    ∃ n : ℕ, size - (repos.map floors).sum = n ∧ n ≤ order.length ∧
      ∀ repo ∈ order.take n, 0 < exact repo - floors repo := by
  have hperm : order.Perm repos := horder ▸ sortBy_perm _ repos
  have hremainder : ∀ repo ∈ order,
      0 ≤ exact repo - floors repo ∧ exact repo - floors repo < 1 := by
    intro repo hrepo
    rw [hfloor repo (hperm.mem_iff.mp hrepo)]
    exact ⟨Int.fract_nonneg _, Int.fract_lt_one _⟩
  have hsorted : order.Pairwise fun a b => exact b - floors b ≤ exact a - floors a := by
    rw [horder]
    apply (pairwise_sortBy _ repos).imp
    intro a b hab
    rcases Prod.Lex.toLex_le_toLex.mp hab with hlt | ⟨heq, -⟩
    · exact (neg_lt_neg_iff.mp hlt).le
    · exact (neg_injective heq).ge
  -- the remainders add up to what is left, as the floors are whole
  have hleft : (order.map fun repo => exact repo - (floors repo : K)).sum =
      ((size - (repos.map floors).sum : ℤ) : K) := by
    have hsub : (repos.map fun repo => exact repo - (floors repo : K)).sum +
        (repos.map fun repo => (floors repo : K)).sum = (repos.map exact).sum := by
      rw [← List.sum_map_add]
      simp
    rw [(hperm.map _).sum_eq, Int.cast_sub, ← hsum, ← hsub, cast_sum_map]
    exact (add_sub_cancel_right _ _).symm
  have hnonnegLeft : 0 ≤ size - (repos.map floors).sum := by
    have : (0 : K) ≤ ((size - (repos.map floors).sum : ℤ) : K) := by
      rw [← hleft]
      apply List.sum_nonneg
      intro x hx
      obtain ⟨repo, hrepo, rfl⟩ := List.mem_map.mp hx
      exact (hremainder repo hrepo).1
    exact Int.cast_nonneg_iff.mp this
  obtain ⟨n, hn⟩ := Int.eq_ofNat_of_zero_le hnonnegLeft
  rw [hn, Int.cast_natCast] at hleft
  have hlt : ∀ repo ∈ order, exact repo - floors repo < 1 :=
    fun repo hrepo => (hremainder repo hrepo).2
  exact ⟨n, hn, le_length_of_sum_remainders hlt hleft,
    fun repo hrepo => remainder_pos_of_mem_take hsorted hlt hleft hrepo⟩

/-- **The first round gives out what is left**, to the repositories with the largest remainders. -/
theorem allocateRemaining_spec (hnodup : repos.Nodup) {exact : String → K}
    {floors : String → ℤ} (hnonneg : ∀ repo ∈ repos, 0 ≤ exact repo)
    (hcap : ∀ repo ∈ repos, exact repo ≤ length repo)
    (hfloor : ∀ repo ∈ repos, floors repo = ⌊exact repo⌋)
    (hsum : (repos.map exact).sum = (size : K)) :
    ∃ quotas, allocateRemaining length
        (sortBy (fun repo => toLex (-(exact repo - (floors repo : K)), repo)) repos)
        (size - (repos.map floors).sum) floors = some quotas ∧
      (∀ repo ∈ repos, 0 ≤ quotas repo) ∧ (∀ repo ∈ repos, quotas repo ≤ length repo) ∧
      (repos.map quotas).sum = size ∧ ∀ repo ∈ repos, |(quotas repo : K) - exact repo| < 1 := by
  obtain ⟨order, horder⟩ : ∃ order,
    order = sortBy (fun repo => toLex (-(exact repo - (floors repo : K)), repo)) repos := ⟨_, rfl⟩
  have hperm : order.Perm repos := horder ▸ sortBy_perm _ repos
  obtain ⟨n, hn, hle, hpositive⟩ := exists_units hfloor hsum horder
  have hremainder : ∀ repo ∈ repos,
      0 ≤ exact repo - floors repo ∧ exact repo - floors repo < 1 := by
    intro repo hrepo
    rw [hfloor repo hrepo]
    exact ⟨Int.fract_nonneg _, Int.fract_lt_one _⟩
  have hroom : ∀ repo ∈ order.take n, floors repo < length repo := by
    intro repo hrepo
    have hpos := hpositive repo hrepo
    have hcapacity := hcap repo (hperm.mem_iff.mp (List.mem_of_mem_take hrepo))
    have : (floors repo : K) < length repo := by linarith
    exact Int.cast_lt.mp this
  have hnodup' : order.Nodup := hperm.nodup_iff.mpr hnodup
  rw [← horder, hn]
  refine ⟨_, allocate_of_room length hnodup' hle hroom, ?_, ?_, ?_, ?_⟩
  · intro repo hrepo
    have hfloorNonneg : 0 ≤ floors repo :=
      hfloor repo hrepo ▸ Int.floor_nonneg.mpr (hnonneg repo hrepo)
    split
    · omega
    · exact hfloorNonneg
  · intro repo hrepo
    split
    case isTrue htaken => exact hroom repo htaken
    case isFalse =>
      rw [hfloor repo hrepo]
      exact Int.cast_le.mp ((Int.floor_le _).trans (hcap repo hrepo))
  · rw [← (hperm.map _).sum_eq, sum_map_take_succ hnodup' hle, (hperm.map floors).sum_eq]
    omega
  · intro repo hrepo
    -- the floor is less than one below the share, and at most one is added
    obtain ⟨hzero, hone⟩ := hremainder repo hrepo
    rw [abs_lt]
    split
    case isTrue htaken =>
      have hpos := hpositive repo htaken
      push_cast
      constructor
      · linarith
      · linarith
    case isFalse =>
      constructor
      · linarith
      · linarith

/-- **The quotas of repositories** are found where the size is that of a subset; they add up to the
size, and each is the proportional share up to less than one. -/
theorem quotasOf_spec (hnodup : repos.Nodup) (hlength : ∀ repo ∈ repos, 0 < length repo)
    (hsize : 0 ≤ size) (hle : size ≤ (repos.map length).sum) :
    ∃ quotas, quotasOf K repos length size = .ok quotas ∧
      (∀ repo ∈ repos, 0 ≤ quotas repo) ∧ (∀ repo ∈ repos, quotas repo ≤ length repo) ∧
      (repos.map quotas).sum = size ∧
      ∀ repo ∈ repos,
        |(quotas repo : K) - proportion K length size (repos.map length).sum repo| < 1 := by
  obtain ⟨quotas, hquotas, hspec⟩ := allocateRemaining_spec hnodup
    (fun repo hrepo => proportion_nonneg hlength hsize hrepo)
    (fun repo hrepo => proportion_le hlength hsize hle hrepo)
    (fun repo hrepo => min_truncate_proportion (K := K) hlength hsize hle hrepo)
    (sum_proportion hlength hsize hle)
  refine ⟨quotas, ?_, hspec⟩
  exact quotasOf_eq_ok K (by omega) rfl rfl hquotas

end Quotas

/-! ## Selections -/

section Selections

variable {V ρ : Type} [LinearOrder ρ] {sha256 : String → ρ}

/-- How many rows a repository has. -/
def repoCount (rows : List (Row V)) (repo : String) : ℕ :=
  rows.countP fun row => row.repoName = repo

/-- A selection of distinct rows of a pool, as many as the size says. The rows of every repository
are in proportion, up to less than one. -/
structure Drawn (K : Type) [Field K] [LinearOrder K] (selection pool : List (Row V)) (size : ℤ) :
    Prop where
  subset : selection ⊆ pool
  nodup_ids : (selection.map Row.taskId).Nodup
  length_eq : (selection.length : ℤ) = size
  proportional : ∀ repo,
    |(repoCount selection repo : K) - size * repoCount pool repo / pool.length| < 1

omit [LinearOrder K] [IsStrictOrderedRing K] [FloorRing K] in
/-- The share of a repository in a pool. -/
theorem proportion_groups (pool : List (Row V)) (size : ℤ) (repo : String) :
    proportion K (fun repo => ((groupBy Row.repoName pool).getD repo []).length) size
        ((groupBy Row.repoName pool).keys.map fun repo =>
          (((groupBy Row.repoName pool).getD repo []).length : ℤ)).sum repo =
      size * repoCount pool repo / pool.length := by
  rw [proportion, sum_groupLengths, getD_groupBy, repoCount, List.countP_eq_length_filter]
  push_cast
  rfl

omit [FloorRing K] in
/-- The first rows of every repository, as many as quotas say that are proportional. -/
theorem Drawn.of_perm {pool selection : List (Row V)} (hids : (pool.map Row.taskId).Nodup)
    {rank : Row V → ρ} {quotas : Dict ℤ} {size : ℤ}
    (hperm : selection.Perm (takeRanked rank (groupBy Row.repoName pool) quotas))
    (hfits : Fits (groupBy Row.repoName pool) quotas)
    (hsum : ((groupBy Row.repoName pool).keys.map fun repo => quotas.getD repo 0).sum = size)
    (hproportional : ∀ repo ∈ (groupBy Row.repoName pool).keys,
      |(quotas.getD repo 0 : K) - size * repoCount pool repo / pool.length| < 1) :
    Drawn K selection pool size := by
  have hsubset : selection ⊆ pool := fun row hrow => takeRanked_subset (hperm.mem_iff.mp hrow)
  constructor
  · exact hsubset
  · have hnodup := hperm.nodup_iff.mpr (nodup_takeRanked (List.Nodup.of_map _ hids))
    apply hnodup.map_on
    intro row hrow other hother heq
    exact List.inj_on_of_nodup_map hids (hsubset hrow) (hsubset hother) heq
  · rw [hperm.length_eq, length_takeRanked hfits, hsum]
  · intro repo
    have hcount : (repoCount selection repo : ℤ) =
        if repo ∈ (groupBy Row.repoName pool).keys then quotas.getD repo 0 else 0 := by
      rw [repoCount, hperm.countP_eq, countP_takeRanked hfits]
    have hcast : (repoCount selection repo : K) =
        ((if repo ∈ (groupBy Row.repoName pool).keys then quotas.getD repo 0 else 0 : ℤ) : K) := by
      rw [← hcount, Int.cast_natCast]
    rw [hcast]
    by_cases hrepo : repo ∈ (groupBy Row.repoName pool).keys
    · rw [if_pos hrepo]
      exact hproportional repo hrepo
    · have hnone : repoCount pool repo = 0 := by
        rw [repoCount, List.countP_eq_zero]
        intro row hrow heq
        exact hrepo (mem_keys_groupBy.mpr (List.mem_map.mpr ⟨row, hrow, of_decide_eq_true heq⟩))
      rw [if_neg hrepo, hnone]
      simp

/-- **A selection is drawn from its pool**, for every size that the pool allows. -/
theorem stratifiedSelect_spec (sha256 : String → ρ) {pool : List (Row V)}
    (hids : (pool.map Row.taskId).Nodup) {size : ℤ} (hsize : 0 ≤ size)
    (hle : size ≤ pool.length) (seed : ℤ) (label : String) :
    ∃ selection, stratifiedSelect K sha256 pool size seed label = .ok selection ∧
      Drawn K selection pool size := by
  have hlength : ∀ repo ∈ (groupBy Row.repoName pool).keys,
      (0 : ℤ) < ((groupBy Row.repoName pool).getD repo []).length :=
    fun repo hrepo => Nat.cast_pos.mpr (length_groupBy_pos hrepo)
  obtain ⟨quotas, hquotas, hnonneg, hcap, hsum, hproportion⟩ :=
    quotasOf_spec (K := K) (nodup_keys_groupBy Row.repoName pool) hlength hsize
      (by rwa [sum_groupLengths])
  have hgetD : ∀ repo ∈ (groupBy Row.repoName pool).keys,
      (Dict.ofKeys (groupBy Row.repoName pool).keys quotas).getD repo 0 = quotas repo :=
    fun repo hrepo => Dict.getD_ofKeys hrepo 0
  refine ⟨sortBy (fun row => stableRank sha256 seed (label ++ ":order") row.taskId)
    (takeRanked (fun row => stableRank sha256 seed label row.taskId) (groupBy Row.repoName pool)
      (Dict.ofKeys (groupBy Row.repoName pool).keys quotas)), ?_,
    Drawn.of_perm hids (sortBy_perm _ _) ?_ ?_ ?_⟩
  · unfold stratifiedSelect repoQuotas
    dsimp only
    rw [hquotas]
    rfl
  · intro repo hrepo
    rw [hgetD repo hrepo]
    exact ⟨hnonneg repo hrepo, hcap repo hrepo⟩
  · rw [List.map_congr_left hgetD, hsum]
  · intro repo hrepo
    rw [hgetD repo hrepo, ← proportion_groups]
    exact hproportion repo hrepo

end Selections

/-! ## Splits -/

/-- Sizes that pass the checks of `build_r2e_splits` on a pool. -/
structure SplitSizes.Checked (sizes : SplitSizes) (poolSize : ℤ) : Prop where
  exceeds : sizes.trainSize + sizes.devSize ≤ poolSize
  smoke_pos : 0 < sizes.smokeSize
  smoke_le : sizes.smokeSize ≤ sizes.pilotSize
  pilot_le : sizes.pilotSize ≤ sizes.trainSize
  debug : ∀ debugSize ∈ sizes.debugSize,
    sizes.smokeSize ≤ debugSize ∧ debugSize ≤ sizes.pilotSize

section Splits

variable {V ρ : Type} [LinearOrder ρ] {sha256 : String → ρ}

/-- The splits of a pool. -/
structure Splits (V : Type) where
  train : List (Row V)
  dev : List (Row V)
  pilot : List (Row V)
  debug : Option (List (Row V))
  smoke : List (Row V)

/-- The dictionary that is returned. -/
def Splits.toDict (splits : Splits V) : Dict (List (Row V)) :=
  match splits.debug with
  | none =>
    [("train", splits.train), ("dev", splits.dev), ("pilot", splits.pilot), ("smoke", splits.smoke)]
  | some debug =>
    [("train", splits.train), ("dev", splits.dev), ("pilot", splits.pilot), ("debug", debug),
      ("smoke", splits.smoke)]

/-- The rows that are left for the training split. -/
def Splits.trainCandidates (splits : Splits V) (pool : List (Row V)) : List (Row V) :=
  pool.filter fun row => row.taskId ∉ splits.dev.map Row.taskId

/-- Splits of the requested sizes, each proportional to what it is drawn from; training and
development are disjoint, and the smaller ones are nested in the training split. -/
structure Splits.Nested (K : Type) [Field K] [LinearOrder K] (splits : Splits V)
    (pool : List (Row V)) (sizes : SplitSizes) : Prop where
  dev : Drawn K splits.dev pool sizes.devSize
  train : Drawn K splits.train (splits.trainCandidates pool) sizes.trainSize
  pilot : Drawn K splits.pilot splits.train sizes.pilotSize
  smoke : Drawn K splits.smoke splits.pilot sizes.smokeSize
  disjoint : (splits.train.map Row.taskId).Disjoint (splits.dev.map Row.taskId)
  debug_isSome : splits.debug.isSome = sizes.debugSize.isSome
  debug_nodup_ids : ∀ debug ∈ splits.debug, (debug.map Row.taskId).Nodup
  debug_length : ∀ debug ∈ splits.debug, some (debug.length : ℤ) = sizes.debugSize
  smoke_subset_debug : ∀ debug ∈ splits.debug, splits.smoke ⊆ debug
  debug_subset_pilot : ∀ debug ∈ splits.debug, debug ⊆ splits.pilot

/-- Rows that are not selected are left over. -/
theorem length_filter_notMem {pool selection : List (Row V)} (hids : (pool.map Row.taskId).Nodup)
    (hsubset : selection ⊆ pool) (hnodup : (selection.map Row.taskId).Nodup) :
    (pool.filter fun row => row.taskId ∉ selection.map Row.taskId).length + selection.length =
      pool.length := by
  have hselected : (pool.filter fun row => row.taskId ∈ selection.map Row.taskId).Perm
      selection := by
    apply (List.perm_ext_iff_of_nodup ((List.Nodup.of_map _ hids).filter _)
      (List.Nodup.of_map _ hnodup)).mpr
    intro row
    rw [List.mem_filter, decide_eq_true_iff, List.mem_map]
    constructor
    · rintro ⟨hrow, other, hother, heq⟩
      exact List.inj_on_of_nodup_map hids (hsubset hother) hrow heq ▸ hother
    · exact fun hrow => ⟨hsubset hrow, row, hrow, rfl⟩
  have hsplit := List.length_eq_length_filter_add
    (l := pool) fun row => decide (row.taskId ∈ selection.map Row.taskId)
  rw [hselected.length_eq] at hsplit
  rw [hsplit, add_comm]
  simp only [decide_not]

omit [IsStrictOrderedRing K] [FloorRing K] in
/-- The rows that are left over are as many as the selection leaves. -/
theorem Drawn.length_rest {pool selection : List (Row V)} {size : ℤ}
    (h : Drawn K selection pool size) (hids : (pool.map Row.taskId).Nodup) :
    ((pool.filter fun row => row.taskId ∉ selection.map Row.taskId).length : ℤ) =
      pool.length - size := by
  have hlength := length_filter_notMem hids h.subset h.nodup_ids
  have hsize := h.length_eq
  omega

/-- **The debug split** is the smoke split and rows of the pilot split that are not in it. -/
theorem debug_spec (sha256 : String → ρ) {pilot smoke : List (Row V)}
    (hids : (pilot.map Row.taskId).Nodup)
    {smokeSize debugSize : ℤ} (hsmoke : Drawn K smoke pilot smokeSize)
    (hle : smokeSize ≤ debugSize) (hpilot : debugSize ≤ pilot.length) (seed : ℤ) :
    ∃ debugExtra, stratifiedSelect K sha256
        (pilot.filter fun row => row.taskId ∉ smoke.map Row.taskId) (debugSize - smokeSize) seed
        "debug-extra" = .ok debugExtra ∧
      ∀ rank : Row V → ρ, ((sortBy rank (smoke ++ debugExtra)).map Row.taskId).Nodup ∧
        ((sortBy rank (smoke ++ debugExtra)).length : ℤ) = debugSize ∧
        smoke ⊆ sortBy rank (smoke ++ debugExtra) ∧
        sortBy rank (smoke ++ debugExtra) ⊆ pilot := by
  have hrest := hsmoke.length_rest hids
  have hrestIds := hids.sublist ((List.filter_sublist (l := pilot)
    (p := fun row => row.taskId ∉ smoke.map Row.taskId)).map Row.taskId)
  obtain ⟨debugExtra, hextra, hdrawn⟩ := stratifiedSelect_spec (K := K) sha256 hrestIds
    (sub_nonneg.mpr hle) (by omega) seed "debug-extra"
  refine ⟨debugExtra, hextra, fun rank => ?_⟩
  have hperm := sortBy_perm rank (smoke ++ debugExtra)
  refine ⟨?_, ?_, ?_, ?_⟩
  · rw [(hperm.map Row.taskId).nodup_iff, List.map_append]
    refine hsmoke.nodup_ids.append hdrawn.nodup_ids ?_
    intro uid huid hother
    obtain ⟨row, hrow, rfl⟩ := List.mem_map.mp hother
    exact absurd huid (of_decide_eq_true (List.mem_filter.mp (hdrawn.subset hrow)).2)
  · have hsmokeLength := hsmoke.length_eq
    have hextraLength := hdrawn.length_eq
    rw [hperm.length_eq, List.length_append]
    omega
  · intro row hrow
    exact hperm.mem_iff.mpr (List.mem_append_left _ hrow)
  · intro row hrow
    rcases List.mem_append.mp (hperm.mem_iff.mp hrow) with hrow | hrow
    · exact hsmoke.subset hrow
    · exact List.mem_of_mem_filter (hdrawn.subset hrow)

/-- The splits of a pool of distinct tasks. -/
theorem splitsOf_nested {pool : List (Row V)} (hids : (pool.map Row.taskId).Nodup)
    {sizes : SplitSizes} (hchecked : sizes.Checked pool.length) (hdev : 0 ≤ sizes.devSize)
    (seed : ℤ) :
    ∃ splits : Splits V, splitsOf K sha256 pool sizes seed = .ok splits.toDict ∧
      splits.Nested K pool sizes := by
  have htrainSize : 0 ≤ sizes.trainSize :=
    (hchecked.smoke_pos.le.trans hchecked.smoke_le).trans hchecked.pilot_le
  have hexceeds := hchecked.exceeds
  -- Each split is drawn from the one before, of which the sizes leave enough.
  obtain ⟨dev, hdevOk, hdevDrawn⟩ := stratifiedSelect_spec (K := K) sha256 hids hdev
    (by omega) seed "dev"
  have hcandidateIds := hids.sublist ((List.filter_sublist (l := pool)
    (p := fun row => row.taskId ∉ dev.map Row.taskId)).map Row.taskId)
  have hcandidates := hdevDrawn.length_rest hids
  obtain ⟨train, htrainOk, htrainDrawn⟩ := stratifiedSelect_spec (K := K) sha256
    hcandidateIds htrainSize (by omega) seed "train"
  obtain ⟨pilot, hpilotOk, hpilotDrawn⟩ := stratifiedSelect_spec (K := K) sha256
    htrainDrawn.nodup_ids (hchecked.smoke_pos.le.trans hchecked.smoke_le)
    (by rw [htrainDrawn.length_eq]; exact hchecked.pilot_le) seed "pilot"
  obtain ⟨smoke, hsmokeOk, hsmokeDrawn⟩ := stratifiedSelect_spec (K := K) sha256
    hpilotDrawn.nodup_ids hchecked.smoke_pos.le
    (by rw [hpilotDrawn.length_eq]; exact hchecked.smoke_le) seed "smoke"
  have hdisjoint : (train.map Row.taskId).Disjoint (dev.map Row.taskId) := by
    intro uid huid hother
    obtain ⟨row, hrow, rfl⟩ := List.mem_map.mp huid
    exact absurd hother (of_decide_eq_true (List.mem_filter.mp (htrainDrawn.subset hrow)).2)
  unfold splitsOf
  rw [raiseUnless, if_pos hchecked.exceeds, ok_bind, raiseUnless,
    if_pos ⟨hchecked.smoke_pos, hchecked.smoke_le, hchecked.pilot_le⟩, ok_bind, raiseUnless,
    if_pos hchecked.debug, ok_bind, hdevOk, ok_bind]
  dsimp only
  rw [htrainOk, ok_bind, hpilotOk, ok_bind, hsmokeOk, ok_bind]
  cases hsize : sizes.debugSize with
  | none =>
    refine ⟨⟨train, dev, pilot, none, smoke⟩, rfl, hdevDrawn, htrainDrawn, hpilotDrawn, hsmokeDrawn,
      hdisjoint, ?_, ?_, ?_, ?_, ?_⟩
    · rw [hsize]
      rfl
    all_goals
      intro debug hdebug
      cases hdebug
  | some debugSize =>
    obtain ⟨hsmokeLe, hpilotLe⟩ := hchecked.debug debugSize hsize
    obtain ⟨debugExtra, hextra, hdebug⟩ := debug_spec sha256 hpilotDrawn.nodup_ids
      hsmokeDrawn hsmokeLe (by rwa [hpilotDrawn.length_eq]) seed
    obtain ⟨hnodup, hlength, hsmokeSub, hpilotSub⟩ :=
      hdebug fun row => stableRank sha256 seed "debug:order" row.taskId
    refine ⟨⟨train, dev, pilot, some (sortBy
        (fun row => stableRank sha256 seed "debug:order" row.taskId) (smoke ++ debugExtra)),
      smoke⟩, ?_, hdevDrawn, htrainDrawn, hpilotDrawn, hsmokeDrawn, hdisjoint, ?_, ?_, ?_, ?_, ?_⟩
    · dsimp only
      rw [hextra, ok_bind]
      rfl
    · rw [hsize]
      rfl
    · rintro debug ⟨rfl⟩
      exact hnodup
    · rintro debug ⟨rfl⟩
      rw [hsize, hlength]
    · rintro debug ⟨rfl⟩
      exact hsmokeSub
    · rintro debug ⟨rfl⟩
      exact hpilotSub

/-- **The splits are found, disjoint, nested, exact and proportional**, for all rows that
`validate_source_rows` accepts and all sizes that pass the checks, where the development split is
not asked for a negative number of rows. -/
theorem buildR2eSplits_nested (K : Type) [Field K] [LinearOrder K] [IsStrictOrderedRing K]
    [FloorRing K] (sha256 : String → ρ) (rows : List (RawRow V)) (pool : List (Row V))
    (sizes : SplitSizes) (seed : ℤ) (hpool : validateSourceRows rows = .ok pool)
    (hchecked : sizes.Checked pool.length) (hdev : 0 ≤ sizes.devSize) :
    ∃ splits : Splits V, buildR2eSplits K sha256 rows sizes seed = .ok splits.toDict ∧
      splits.Nested K pool sizes := by
  obtain ⟨-, -, hids, -⟩ := validateSourceRows_eq_ok.mp hpool
  rw [buildR2eSplits, hpool, ok_bind]
  exact splitsOf_nested hids hchecked hdev seed

end Splits

/-- Two training tasks and one for development, of three. -/
theorem exists_exampleSplits : ∃ splits : Splits String,
    buildR2eSplits ℚ id exampleRows ⟨2, 1, 2, some 1, 1⟩ 42 = .ok splits.toDict ∧
      splits.Nested ℚ (exampleRows.filterMap RawRow.complete?) ⟨2, 1, 2, some 1, 1⟩ := by
  refine buildR2eSplits_nested ℚ id exampleRows _ ⟨2, 1, 2, some 1, 1⟩ 42
    validateSourceRows_exampleRows ⟨?_, ?_, ?_, ?_, ?_⟩ (by decide)
  · decide
  · decide
  · decide
  · decide
  · rintro debugSize ⟨rfl⟩
    decide

/-- A negative size of the development split passes the checks, where the training split is larger
than the source by as much, and is rejected for a quota. -/
theorem buildR2eSplits_negative_devSize :
    validateSourceRows exampleRows = .ok (exampleRows.filterMap RawRow.complete?) ∧
      SplitSizes.Checked ⟨4, -1, 1, none, 1⟩ (exampleRows.filterMap RawRow.complete?).length ∧
      buildR2eSplits ℚ id exampleRows ⟨4, -1, 1, none, 1⟩ 42 =
        .error (.valueError "requested more rows than the pool has") := by
  refine ⟨rfl, ⟨?_, ?_, ?_, ?_, ?_⟩, rfl⟩
  · decide
  · decide
  · decide
  · decide
  · intro debugSize hsize
    cases hsize

end Selection
