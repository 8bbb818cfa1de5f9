import Mathlib.Data.Finmap
import CodingOpd.Python.Values

/-!
# Run identities

A resumed evaluation may differ from its source in the resources it uses, and in the commit or the
task configuration where the operator names the source's. `_resume_records` decides this by
deleting what may differ from copies of the two identities and comparing what is left.

## Main definitions

* `Identity`: the dictionary that `_run_identity` builds
* `checkIdentity`: the identity checks of `_resume_records`
* `Agree`: the abstract relation, field by field

## Main results

* `checkIdentity_eq_ok_iff`: the checks pass exactly on identities that agree
-/

open Python

namespace CodexEval

/-- A field of an identity, as JSON: the values inside an object, and the values that a resume
does not look into, are opaque. -/
inductive Value (V : Type) where
  | string (text : String)
  | object (fields : Finmap fun _ : String => V)
  | array (value : V)
  | other (value : V)

instance {V : Type} [DecidableEq V] : DecidableEq (Value V) := fun a b =>
  match a, b with
  | .string s, .string t => decidable_of_iff (s = t) (by simp)
  | .object f, .object g => decidable_of_iff (f = g) (by simp)
  | .array v, .array w => decidable_of_iff (v = w) (by simp)
  | .other v, .other w => decidable_of_iff (v = w) (by simp)
  | .string _, .object _ | .string _, .array _ | .string _, .other _ => isFalse (by simp)
  | .object _, .string _ | .object _, .array _ | .object _, .other _ => isFalse (by simp)
  | .array _, .string _ | .array _, .object _ | .array _, .other _ => isFalse (by simp)
  | .other _, .string _ | .other _, .object _ | .other _, .array _ => isFalse (by simp)

/-- The identity of a run. -/
abbrev Identity (V : Type) := Finmap fun _ : String => Value V

/-- The fields of an identity that a resume may change. -/
def resourceKeys : List String :=
  ["backend_count", "concurrency", "tasks_per_replica", "task_cpu_threads"]

/-- The fields of `serving_config` that a resume may change. -/
def servingResourceKeys : List String :=
  ["gpu_groups", "replica_count", "tasks_per_replica", "total_task_concurrency", "max_num_seqs"]

/-- `pop(key, None)` for each of the keys. -/
def popAll {W : Type} (keys : List String) (config : Finmap fun _ : String => W) :
    Finmap fun _ : String => W :=
  keys.foldl (fun config key => config.erase key) config

theorem lookup_popAll {W : Type} (keys : List String) (config : Finmap fun _ : String => W)
    (key : String) :
    (popAll keys config).lookup key = if key ∈ keys then none else config.lookup key := by
  induction keys generalizing config with
  | nil => simp [popAll]
  | cons k keys ih =>
    show (popAll keys (config.erase k)).lookup key = _
    rw [ih]
    by_cases hkeys : key ∈ keys
    · simp [hkeys]
    · by_cases hk : key = k
      · subst hk
        simp [hkeys]
      · simp [hkeys, hk, Finmap.lookup_erase_ne hk]

variable {V : Type}

section

variable [DecidableEq V]

/-- The commit check: where the commits differ, `--resume-source-git-sha` has to name the source's,
and the field is deleted. -/
def dropReviewedSha (approvedSha : Option String) (old new : Identity V) :
    Except PyError (Identity V × Identity V) :=
  if old.lookup "repo_git_sha" ≠ new.lookup "repo_git_sha" then
    match approvedSha with
    | none =>
      .error (.valueError "resume source code change requires its explicitly reviewed full SHA")
    | some sha =>
      if sha = "" ∨ some (.string sha) ≠ old.lookup "repo_git_sha" then
        .error (.valueError "resume source code change requires its explicitly reviewed full SHA")
      else
        .ok (old.erase "repo_git_sha", new.erase "repo_git_sha")
  else
    .ok (old, new)

/-- The check of `--resume-source-task-config-sha256`, where it is passed. -/
def dropReviewedConfig (reviewedConfig : Option String) (old new : Identity V) :
    Except PyError (Identity V × Identity V) :=
  match reviewedConfig with
  | none => .ok (old, new)
  | some hash =>
    if some (.string hash) ≠ old.lookup "task_config_sha256" then
      .error (.valueError "resume source task config does not match the reviewed hash")
    else
      .ok (old.erase "task_config_sha256", new.erase "task_config_sha256")

end

/-- The resource fields of `config.get("serving_config", {})` are deleted in place. -/
def popServing (config : Identity V) : Except PyError (Identity V) :=
  match config.lookup "serving_config" with
  | none => .ok config
  | some (.object fields) =>
    .ok (config.insert "serving_config" (.object (popAll servingResourceKeys fields)))
  | some (.array _) => .error (.typeError "pop expected at most 1 argument, got 2")
  | some _ => .error (.attributeError "pop")

/-- The comparison of what is left without the resources. -/
def compareSemantics [DecidableEq V] (old new : Identity V) : Except PyError Unit := do
  let old ← popServing (popAll resourceKeys old)
  let new ← popServing (popAll resourceKeys new)
  if old ≠ new then
    throw (.valueError "resume may change resource allocation only, not evaluation semantics")

/-- The identity checks of `_resume_records`. -/
def checkIdentity [DecidableEq V] (previous identity : Identity V)
    (approvedSha reviewedConfig : Option String) : Except PyError Unit := do
  let (old, new) ← dropReviewedSha approvedSha previous identity
  let (old, new) ← dropReviewedConfig reviewedConfig old new
  compareSemantics old new

/-! ## Agreement -/

/-- What two identities have to agree on at a field: at `serving_config`, what is left without the
resource fields. -/
def semantics (field : String) (value : Option (Value V)) : Option (Value V) :=
  match value with
  | some (.object fields) =>
    if field = "serving_config" then some (.object (popAll servingResourceKeys fields))
    else some (.object fields)
  | value => value

/-- The identities agree on every field but resources and those excepted. -/
def Agree (excepted : Set String) (a b : Identity V) : Prop :=
  ∀ field, field ∉ resourceKeys → field ∉ excepted →
    semantics field (a.lookup field) = semantics field (b.lookup field)

theorem Agree.refl (excepted : Set String) (a : Identity V) : Agree excepted a a :=
  fun _ _ _ => rfl

theorem Agree.trans {excepted excepted' : Set String} {a b c : Identity V}
    (h : Agree excepted a b) (h' : Agree excepted' b c) : Agree (excepted ∪ excepted') a c :=
  fun field hresource hexcepted =>
    (h field hresource fun hmem => hexcepted (Or.inl hmem)).trans
      (h' field hresource fun hmem => hexcepted (Or.inr hmem))

theorem Agree.mono {excepted excepted' : Set String} {a b : Identity V}
    (h : Agree excepted a b) (hsub : excepted ⊆ excepted') : Agree excepted' a b :=
  fun field hresource hexcepted => h field hresource fun hmem => hexcepted (hsub hmem)

/-- The operator names the source's commit. -/
def ShaReviewed (previous : Identity V) (approvedSha : Option String) : Prop :=
  ∃ sha, approvedSha = some sha ∧ sha ≠ "" ∧ previous.lookup "repo_git_sha" = some (.string sha)

/-- The operator names the source's task configuration. -/
def ConfigReviewed (previous : Identity V) (reviewedConfig : Option String) : Prop :=
  ∃ hash, reviewedConfig = some hash ∧
    previous.lookup "task_config_sha256" = some (.string hash)

/-- The fields whose change has been explicitly reviewed. -/
def reviewed (previous : Identity V) (approvedSha reviewedConfig : Option String) : Set String :=
  {field | field = "repo_git_sha" ∧ ShaReviewed previous approvedSha ∨
    field = "task_config_sha256" ∧ ConfigReviewed previous reviewedConfig}

/-- `serving_config` is absent or a JSON object. -/
def ServingObject (identity : Identity V) : Prop :=
  ∀ value, identity.lookup "serving_config" = some value → ∃ fields, value = .object fields

theorem semantics_of_ne {field : String} (h : field ≠ "serving_config")
    (value : Option (Value V)) : semantics field value = value := by
  cases value with
  | none => rfl
  | some value => cases value <;> simp [semantics, h]

theorem popServing_eq_ok_iff {config stripped : Identity V} :
    popServing config = .ok stripped ↔ ServingObject config ∧
      ∀ field, stripped.lookup field = semantics field (config.lookup field) := by
  unfold popServing
  cases hserving : config.lookup "serving_config" with
  | none =>
    have hobject : ServingObject config := by simp [ServingObject, hserving]
    have hsame : ∀ field, semantics field (config.lookup field) = config.lookup field := by
      intro field
      by_cases hfield : field = "serving_config"
      · rw [hfield, hserving]
        rfl
      · exact semantics_of_ne hfield _
    simp only [Except.ok.injEq, hobject, true_and, hsame]
    exact ⟨fun h field => by rw [h], fun h => Finmap.ext_lookup fun field => (h field).symm⟩
  | some value =>
    cases value with
    | object fields =>
      have hobject : ServingObject config := by simp [ServingObject, hserving]
      have hinsert : ∀ field, (config.insert "serving_config"
          (.object (popAll servingResourceKeys fields))).lookup field =
            semantics field (config.lookup field) := by
        intro field
        by_cases hfield : field = "serving_config"
        · rw [hfield, Finmap.lookup_insert, hserving]
          rfl
        · rw [Finmap.lookup_insert_of_ne _ hfield, semantics_of_ne hfield]
      simp only [Except.ok.injEq, hobject, true_and, ← hinsert]
      exact ⟨fun h field => by rw [h], fun h => Finmap.ext_lookup fun field => (h field).symm⟩
    | string text => simp [ServingObject, hserving]
    | array value => simp [ServingObject, hserving]
    | other value => simp [ServingObject, hserving]

theorem exists_popServing {config : Identity V} (h : ServingObject config) :
    ∃ stripped, popServing config = .ok stripped := by
  unfold popServing
  cases hserving : config.lookup "serving_config" with
  | none => exact ⟨_, rfl⟩
  | some value =>
    obtain ⟨fields, rfl⟩ := h value hserving
    exact ⟨_, rfl⟩

theorem servingObject_popAll {keys : List String} (hkeys : "serving_config" ∉ keys)
    (config : Identity V) : ServingObject (popAll keys config) ↔ ServingObject config := by
  unfold ServingObject
  rw [lookup_popAll, if_neg hkeys]

section

variable [DecidableEq V]

/-- The comparison passes on identities that agree apart from the deleted fields. -/
theorem compareSemantics_eq_ok_iff {keys : List String} (hkeys : "serving_config" ∉ keys)
    (a b : Identity V) :
    compareSemantics (popAll keys a) (popAll keys b) = .ok () ↔
      Agree {field | field ∈ keys} a b ∧ ServingObject a ∧ ServingObject b := by
  have hresources : "serving_config" ∉ resourceKeys := by decide
  -- A field survives the two deletions where neither names it.
  have hlookup : ∀ (config : Identity V) field,
      (popAll resourceKeys (popAll keys config)).lookup field =
        if field ∈ resourceKeys ∨ field ∈ keys then none else config.lookup field := by
    intro config field
    rw [lookup_popAll, lookup_popAll]
    by_cases hr : field ∈ resourceKeys <;> by_cases hk : field ∈ keys <;> simp [hr, hk]
  have hobject : ∀ config : Identity V,
      ServingObject (popAll resourceKeys (popAll keys config)) ↔ ServingObject config := by
    intro config
    rw [servingObject_popAll hresources, servingObject_popAll hkeys]
  have hsemantics : ∀ (config : Identity V) field,
      semantics field ((popAll resourceKeys (popAll keys config)).lookup field) =
        if field ∈ resourceKeys ∨ field ∈ keys then none
        else semantics field (config.lookup field) := by
    intro config field
    rw [hlookup]
    split_ifs <;> rfl
  unfold compareSemantics
  rw [bind_eq_ok]
  simp only [popServing_eq_ok_iff, bind_eq_ok, hobject, hsemantics]
  constructor
  · rintro ⟨old, ⟨ha, hold⟩, new, ⟨hb, hnew⟩, hcompare⟩
    -- the code compares the two remainders as wholes
    have heq : old = new := by
      by_contra hne
      simp [hne] at hcompare
    refine ⟨fun field hresource hkey => ?_, ha, hb⟩
    have hkept : ¬ (field ∈ resourceKeys ∨ field ∈ keys) := not_or.mpr ⟨hresource, hkey⟩
    have hfield := (hold field).symm.trans ((congrArg _ heq).trans (hnew field))
    rwa [if_neg hkept, if_neg hkept] at hfield
  · rintro ⟨hagree, ha, hb⟩
    obtain ⟨old, hold⟩ := exists_popServing ((hobject a).mpr ha)
    have hlooked := (popServing_eq_ok_iff.mp hold).2
    simp only [hsemantics] at hlooked
    refine ⟨old, ⟨ha, hlooked⟩, old, ⟨hb, fun field => ?_⟩, by simp; rfl⟩
    rw [hlooked field]
    split_ifs with hdeleted
    · rfl
    · rw [not_or] at hdeleted
      exact hagree field hdeleted.1 hdeleted.2

theorem dropReviewedSha_eq_ok_iff {approvedSha : Option String} {old new : Identity V}
    {rest : Identity V × Identity V} :
    dropReviewedSha approvedSha old new = .ok rest ↔
      (old.lookup "repo_git_sha" = new.lookup "repo_git_sha" ∧ rest = (old, new)) ∨
      (old.lookup "repo_git_sha" ≠ new.lookup "repo_git_sha" ∧ ShaReviewed old approvedSha ∧
        rest = (popAll ["repo_git_sha"] old, popAll ["repo_git_sha"] new)) := by
  unfold dropReviewedSha
  by_cases hsame : old.lookup "repo_git_sha" = new.lookup "repo_git_sha"
  · simp [hsame, eq_comm]
  · cases approvedSha with
    | none => simp [hsame, ShaReviewed]
    | some sha =>
      by_cases hempty : sha = ""
      · simp [hsame, hempty, ShaReviewed]
      · by_cases hnamed : old.lookup "repo_git_sha" = some (.string sha)
        · rw [hnamed] at hsame
          simp [hsame, hempty, hnamed, ShaReviewed, popAll, eq_comm]
        · simp [hsame, hempty, hnamed, Ne.symm hnamed, ShaReviewed]

theorem dropReviewedConfig_eq_ok_iff {reviewedConfig : Option String} {old new : Identity V}
    {rest : Identity V × Identity V} :
    dropReviewedConfig reviewedConfig old new = .ok rest ↔
      (reviewedConfig = none ∧ rest = (old, new)) ∨
      (ConfigReviewed old reviewedConfig ∧
        rest = (popAll ["task_config_sha256"] old, popAll ["task_config_sha256"] new)) := by
  unfold dropReviewedConfig
  cases reviewedConfig with
  | none => simp [ConfigReviewed, eq_comm]
  | some hash =>
    by_cases hnamed : old.lookup "task_config_sha256" = some (.string hash)
    · simp [hnamed, ConfigReviewed, popAll, eq_comm]
    · simp [hnamed, Ne.symm hnamed, ConfigReviewed]

/-- The fields that the checks delete before the resources. -/
def deletedKeys (previous identity : Identity V) (reviewedConfig : Option String) : List String :=
  (if previous.lookup "repo_git_sha" = identity.lookup "repo_git_sha" then []
    else ["repo_git_sha"]) ++
  match reviewedConfig with
  | none => []
  | some _ => ["task_config_sha256"]

theorem mem_deletedKeys {previous identity : Identity V} {reviewedConfig : Option String}
    {key : String} : key ∈ deletedKeys previous identity reviewedConfig ↔
      key = "repo_git_sha" ∧
          previous.lookup "repo_git_sha" ≠ identity.lookup "repo_git_sha" ∨
        key = "task_config_sha256" ∧ reviewedConfig ≠ none := by
  unfold deletedKeys
  by_cases hsame : previous.lookup "repo_git_sha" = identity.lookup "repo_git_sha" <;>
    cases reviewedConfig <;> simp [hsame]

theorem checkIdentity_eq_ok_iff_compare (previous identity : Identity V)
    (approvedSha reviewedConfig : Option String) :
    checkIdentity previous identity approvedSha reviewedConfig = .ok () ↔
      (previous.lookup "repo_git_sha" = identity.lookup "repo_git_sha" ∨
        ShaReviewed previous approvedSha) ∧
      (reviewedConfig = none ∨ ConfigReviewed previous reviewedConfig) ∧
      compareSemantics (popAll (deletedKeys previous identity reviewedConfig) previous)
        (popAll (deletedKeys previous identity reviewedConfig) identity) = .ok () := by
  -- the configuration is looked up after the commit has been deleted
  have hkept : ∀ config : Identity V, ConfigReviewed (popAll ["repo_git_sha"] config)
      reviewedConfig ↔ ConfigReviewed config reviewedConfig := by
    intro config
    simp [ConfigReviewed, lookup_popAll]
  unfold checkIdentity deletedKeys
  simp only [bind_eq_ok, Prod.exists, dropReviewedSha_eq_ok_iff, dropReviewedConfig_eq_ok_iff]
  by_cases hsame : previous.lookup "repo_git_sha" = identity.lookup "repo_git_sha"
  · cases reviewedConfig <;> simp [hsame, ConfigReviewed, popAll]
  · cases reviewedConfig with
    | none => simp [hsame, ConfigReviewed, popAll]
    | some hash =>
      have hkept' := hkept previous
      simp only [popAll, List.foldl_cons, List.foldl_nil] at hkept'
      simp [hsame, hkept', popAll]

/-- **The identity checks pass** exactly when the identities agree on every field that is neither
a resource nor reviewed, no hash has been passed that is not the source's, and the two
`serving_config` are objects. -/
theorem checkIdentity_eq_ok_iff (previous identity : Identity V)
    (approvedSha reviewedConfig : Option String) :
    checkIdentity previous identity approvedSha reviewedConfig = .ok () ↔
      Agree (reviewed previous approvedSha reviewedConfig) previous identity ∧
      (reviewedConfig = none ∨ ConfigReviewed previous reviewedConfig) ∧
      ServingObject previous ∧ ServingObject identity := by
  have hserving : "serving_config" ∉ deletedKeys previous identity reviewedConfig := by
    simp [mem_deletedKeys]
  rw [checkIdentity_eq_ok_iff_compare, compareSemantics_eq_ok_iff hserving]
  constructor
  · rintro ⟨hsha, hconfig, hagree, hobjects⟩
    refine ⟨hagree.mono fun field hdeleted => ?_, hconfig, hobjects⟩
    rcases mem_deletedKeys.mp hdeleted with ⟨rfl, hdiffer⟩ | ⟨rfl, hpassed⟩
    · exact Or.inl ⟨rfl, hsha.resolve_left hdiffer⟩
    · exact Or.inr ⟨rfl, hconfig.resolve_left hpassed⟩
  · rintro ⟨hagree, hconfig, hobjects⟩
    have hsha : previous.lookup "repo_git_sha" = identity.lookup "repo_git_sha" ∨
        ShaReviewed previous approvedSha := by
      by_contra hnot
      rw [not_or] at hnot
      have hfield := hagree "repo_git_sha" (by decide) (by simp [reviewed, hnot.2])
      rw [semantics_of_ne (by decide), semantics_of_ne (by decide)] at hfield
      exact hnot.1 hfield
    refine ⟨hsha, hconfig, fun field hresource hkept => ?_, hobjects⟩
    by_cases hreviewed : field ∈ reviewed previous approvedSha reviewedConfig
    · rcases hreviewed with ⟨rfl, -⟩ | ⟨rfl, hash, hpassed, -⟩
      · by_cases hsame : previous.lookup "repo_git_sha" = identity.lookup "repo_git_sha"
        · rw [hsame]
        · exact absurd (mem_deletedKeys.mpr (Or.inl ⟨rfl, hsame⟩)) hkept
      · exact absurd (mem_deletedKeys.mpr (Or.inr ⟨rfl, by simp [hpassed]⟩)) hkept
    · exact hagree field hresource hreviewed

end

end CodexEval
