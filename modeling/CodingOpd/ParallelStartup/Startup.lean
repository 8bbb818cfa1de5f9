import CodingOpd.Library.Heap
import CodingOpd.Library.Transition
import CodingOpd.Python.Values
import Mathlib.Logic.Relation

/-!
# Starting services alongside the trainer

`install_parallel_startup` replaces `_setup` of the trainer. The standalone rollout is created by a
thread of its own, and so is the Teacher, once the trainer has made its resource pools; the main
thread runs veRL's own set-up in the meantime, and joins both threads. The executors have one worker
each, so that the Teachers of one executor are made in the order in which they were submitted.

## Main definitions

* `Trainer`, `PoolManager`, `Job`: what the three threads share
* `Upstream`: what veRL's `_setup` does, in any order
* `setup`: the state once the standalone rollout has been submitted
* `step`: the state after an event
* `State.Advances`, `State.Arranges`, `Move`: all that a step can do
-/

open Python Transition

namespace ParallelStartup

/-- What the replaced `_setup` looks up to decide whether services start early. -/
structure Topology where
  rolloutName : String
  disaggregation : Bool
  trainerNodes : ℕ
  rolloutNodes : ℕ
  tensorModelParallelSize : ℕ
  dataParallelSize : ℕ
  pipelineModelParallelSize : ℕ

/-- Other topologies keep upstream's set-up. -/
def Topology.IsValidated (t : Topology) : Prop :=
  ¬ (t.rolloutName ≠ "vllm" ∨ t.disaggregation = true ∨ t.trainerNodes ≠ 1 ∨ t.rolloutNodes ≠ 1 ∨
    t.tensorModelParallelSize ≠ 1 ∨ t.dataParallelSize ≠ 1 ∨ t.pipelineModelParallelSize ≠ 1)

instance : DecidablePred Topology.IsValidated := fun t => by
  unfold Topology.IsValidated
  infer_instance

/-- A function in `trainer.__dict__["_init_resource_pool_mgr"]`. -/
inductive InitFunction (O : Type) where
  | override (function : O)
  | initPools

/-- A `resource_pool_manager`, with the pools of `resource_pool_dict` by their addresses. -/
structure PoolManager where
  /-- `create_resource_pool` is `create_and_start_teacher`. -/
  startsTeacher : Bool
  resourcePoolDict : List ℕ

/-- The fields of the trainer that the set-up reads or writes. A configuration is an object, given
by its address. -/
structure Trainer (T D S O : Type) where
  config : ℕ
  useTeacherPolicy : Bool
  initResourcePoolMgr : Option (InitFunction O)
  resourcePoolManager : Option ℕ
  teacherModelManager : Option T
  distillationConfig : Option D
  rolloutReplicas : ℕ
  standaloneServerManager : Option S
  /-- The manager whose replicas `standalone_checkpoint_manager` has. -/
  standaloneCheckpointManager : Option S
  rolloutMode : Bool
  balanced : Bool

/-- `executor.submit(_timed, "teacher", teacher_factory, config=..., resource_pool=...)`. -/
structure Job where
  config : ℕ
  resourcePool : ℕ

/-- What is done with the services once both threads are joined. -/
inductive Wiring where
  | prometheus
  | checkpointEngine
  | balancer

/-- Where the main thread is. -/
inductive Phase (S : Type) where
  /-- `base_setup()` -/
  | upstream
  /-- `teacher.result()` -/
  | teacherResult (future : ℕ)
  /-- `convert(trainer.config.distillation)` -/
  | convert
  /-- The end of the `with` block of the Teacher's executor, with what it returns or raises. -/
  | teacherShutdown (result : Except PyError Unit)
  /-- `standalone.result()` -/
  | standaloneResult
  /-- The end of the `with` block of `_parallel_initialize`. -/
  | standaloneShutdown (result : Except PyError S)
  | wiring (stage : Wiring)
  | done (result : Except PyError Unit)

/-- How a Teacher came to be made. -/
inductive Construction where
  | submitted
  | synchronous
  deriving DecidableEq

/-- The three threads. `pools` tells of each pool whether it has its placement groups. -/
structure State (C T D S O : Type) where
  configs : Heap C
  pools : List Bool
  managers : List PoolManager
  trainer : Trainer T D S O
  phase : Phase S
  /-- The Teacher has an executor: `use_teacher_policy` when `_initialize_with_teacher` began. -/
  teaching : Bool
  previousOverride : Option O
  jobs : List Job
  /-- What the Teacher's futures hold, those that are done. -/
  futures : List (Except PyError T)
  teacher : Option ℕ
  standaloneConfig : ℕ
  standalone : Option (Except PyError S)
  startRank : ℕ
  prometheus : Bool
  constructions : List Construction

/-- How far a call of `create_resource_pool` comes. -/
inductive Creation where
  | createRaises
  /-- `get_placement_groups` raises for a pool, behind so many others. -/
  | placementRaises (placed : ℕ)
  /-- `copy.deepcopy` or `get_resource_pool` raises. -/
  | argumentsRaise
  /-- It returns; the Teacher's role has the pool at that position of the dictionary. -/
  | returns (role : ℕ)

/-- What veRL's `_setup` does on the main thread. What it makes of an exception is its own. -/
inductive Upstream (C T D : Type) where
  | initResourcePoolMgr (raises : Bool)
  /-- `create_resource_pool()` of a manager, which makes so many pools. -/
  | createResourcePool (manager count : ℕ) (creation : Creation)
  /-- `get_placement_groups` of a pool. -/
  | placePool (pool : ℕ)
  /-- A Teacher is made where `use_teacher_policy` is set. -/
  | constructTeacher (made : Except PyError (T × D))
  | configure (config : C)
  /-- `llm_server_manager` is made. -/
  | launchReplicas (count : ℕ)

inductive Event (C T D S : Type) where
  | upstream (action : Upstream C T D)
  | upstreamEnds (result : Except PyError Unit)
  | teacherResult
  | convert (result : Except PyError D)
  | teacherShutdown
  | standaloneResult
  | standaloneShutdown
  /-- A stage of the wiring, which may raise. -/
  | wire (raised : Option PyError)
  | teacherConfigures (config : C)
  | teacherEnds (result : Except PyError T)
  | standaloneConfigures (config : C)
  | standaloneEnds (result : Except PyError S)

variable {C T D S O : Type}

/-- The pools at some addresses get their placement groups. -/
def placePools (pools : List Bool) (addresses : List ℕ) : List Bool :=
  addresses.foldl (fun pools address => pools.set address true) pools

namespace State

/-- A manager whose pools have been made anew. -/
def createPools (s : State C T D S O) (address count : ℕ) (manager : PoolManager) :
    State C T D S O :=
  { s with
    pools := s.pools ++ List.replicate count false
    managers := s.managers.set address
      { manager with resourcePoolDict := List.range' s.pools.length count } }

/-- `create_resource_pool()` is `create` again. -/
def restoreCreate (s : State C T D S O) (address : ℕ) (manager : PoolManager) : State C T D S O :=
  { s with managers := s.managers.set address { manager with startsTeacher := false } }

/-- The pools of the last `create()` get their placement groups, or some of them. -/
def placeCreated (s : State C T D S O) (start count : ℕ) : State C T D S O :=
  { s with pools := placePools s.pools (List.range' start count) }

/-- The Teacher is submitted, with a copy of the configuration. -/
def submitTeacher (s : State C T D S O) (config : C) (pool : ℕ) : State C T D S O :=
  { s with
    configs := s.configs.alloc config
    jobs := s.jobs ++ [⟨s.configs.next, pool⟩]
    teacher := some s.jobs.length
    trainer := { s.trainer with useTeacherPolicy := false }
    constructions := s.constructions ++ [.submitted] }

/-- `create_and_start_teacher`. The manager is the one that it was made for. -/
def createAndStartTeacher (s : State C T D S O) (address count : ℕ) (manager : PoolManager)
    (creation : Creation) : Option (State C T D S O) :=
  let restored := s.restoreCreate address manager
  let created := restored.createPools address count { manager with startsTeacher := false }
  match creation with
  | .createRaises => some restored
  | .placementRaises placed =>
    if placed < count then some (created.placeCreated s.pools.length placed) else none
  | .argumentsRaise => some (created.placeCreated s.pools.length count)
  | .returns role =>
    match s.configs.read s.trainer.config with
    | none => none
    | some config =>
      if role < count then
        some ((created.placeCreated s.pools.length count).submitTeacher config
          (s.pools.length + role))
      else none

/-- `create_resource_pool()` of a manager; the original one raises or returns. -/
def createResourcePool (s : State C T D S O) (address count : ℕ) (creation : Creation) :
    Option (State C T D S O) :=
  match s.managers[address]? with
  | none => none
  | some manager =>
    if manager.startsTeacher then s.createAndStartTeacher address count manager creation
    else
      match creation with
      | .createRaises => some s
      | .returns _ => some (s.createPools address count manager)
      | .placementRaises _ | .argumentsRaise => none

/-- `_init_resource_pool_mgr()`, which makes a new manager. -/
def initResourcePoolMgr (s : State C T D S O) : State C T D S O :=
  let startsTeacher := match s.trainer.initResourcePoolMgr with
    | some .initPools => true
    | some (.override _) | none => false
  { s with
    managers := s.managers ++ [⟨startsTeacher, []⟩]
    trainer := { s.trainer with resourcePoolManager := some s.managers.length } }

/-- The branch of upstream's set-up on `use_teacher_policy`. -/
def constructTeacher (s : State C T D S O) (made : Except PyError (T × D)) : State C T D S O :=
  if s.trainer.useTeacherPolicy then
    let logged := { s with constructions := s.constructions ++ [.synchronous] }
    match made with
    | .error _ => logged
    | .ok (teacher, distillation) =>
      { logged with
        trainer := { s.trainer with
          teacherModelManager := some teacher
          distillationConfig := some distillation } }
  else
    { s with trainer := { s.trainer with teacherModelManager := none, distillationConfig := none } }

/-- An action of upstream's set-up. -/
def act (s : State C T D S O) : Upstream C T D → Option (State C T D S O)
  | .initResourcePoolMgr raises => some (if raises then s else s.initResourcePoolMgr)
  | .createResourcePool manager count creation => s.createResourcePool manager count creation
  | .placePool pool => some { s with pools := s.pools.set pool true }
  | .constructTeacher made => some (s.constructTeacher made)
  | .configure config => some { s with configs := s.configs.write s.trainer.config config }
  | .launchReplicas count => some { s with trainer := { s.trainer with rolloutReplicas := count } }

/-- The `finally` block of `_initialize_with_teacher`. -/
def restore (s : State C T D S O) : State C T D S O :=
  { s with
    trainer := { s.trainer with
      useTeacherPolicy := true
      initResourcePoolMgr := s.previousOverride.map .override } }

/-- `_initialize_with_teacher` behind `base_setup()`. -/
def afterUpstream (s : State C T D S O) (result : Except PyError Unit) : State C T D S O :=
  if s.teaching then
    let restored := s.restore
    match result, s.teacher with
    | .error error, _ => { restored with phase := .teacherShutdown (.error error) }
    | .ok (), none =>
      { restored with
        phase := .teacherShutdown
          (.error (.runtimeError "Base setup did not initialize the Teacher resource pool")) }
    | .ok (), some future => { restored with phase := .teacherResult future }
  else
    match result with
    | .error error => { s with phase := .standaloneShutdown (.error error) }
    | .ok () => { s with phase := .standaloneResult }

/-- The replaced `_setup` behind `_parallel_initialize`, up to the wiring. -/
def afterInitialize (s : State C T D S O) : Except PyError S → State C T D S O
  | .error error => { s with phase := .done (.error error) }
  | .ok manager =>
    let assigned := { s with trainer := { s.trainer with standaloneServerManager := some manager } }
    if s.trainer.rolloutReplicas ≠ s.startRank then
      { assigned with
        phase := .done
          (.error (.runtimeError "Parallel startup replica ranks differ from hybrid replicas")) }
    else
      { assigned with phase := .wiring (if s.prometheus then .prometheus else .checkpointEngine) }

/-- A stage of the wiring that does not raise. -/
def wire (s : State C T D S O) : Wiring → State C T D S O
  | .prometheus => { s with phase := .wiring .checkpointEngine }
  | .checkpointEngine =>
    { s with
      trainer := { s.trainer with
        standaloneCheckpointManager := s.trainer.standaloneServerManager
        rolloutMode := true }
      phase := .wiring .balancer }
  | .balancer =>
    { s with
      trainer := { s.trainer with balanced := true }
      phase := .done (.ok ()) }

end State

/-- `setup` of a validated topology, once the standalone rollout has been submitted. The trainer's
own `__dict__` may hold a function for `_init_resource_pool_mgr`. -/
def State.start (trainer : Trainer T D S O) (override : Option O) (config : C) (startRank : ℕ)
    (prometheus : Bool) : State C T D S O where
  configs := ⟨[config, config]⟩
  pools := []
  managers := []
  trainer := { trainer with
    config := 0
    initResourcePoolMgr :=
      if trainer.useTeacherPolicy then some .initPools else override.map .override }
  phase := .upstream
  teaching := trainer.useTeacherPolicy
  previousOverride := override
  jobs := []
  futures := []
  teacher := none
  standaloneConfig := 1
  standalone := none
  startRank := startRank
  prometheus := prometheus
  constructions := []

/-- `setup`; `none` where it is upstream's. -/
def setup (topology : Topology) (trainer : Trainer T D S O) (override : Option O) (config : C)
    (startRank : ℕ) (prometheus : Bool) : Option (State C T D S O) :=
  if topology.IsValidated then some (.start trainer override config startRank prometheus)
  else none

/-- The state after an event; `none` where it cannot happen. -/
def step (s : State C T D S O) : Event C T D S → Option (State C T D S O)
  | .upstream action =>
    match s.phase with
    | .upstream => s.act action
    | _ => none
  | .upstreamEnds result =>
    match s.phase with
    | .upstream => some (s.afterUpstream result)
    | _ => none
  | .teacherResult =>
    match s.phase with
    | .teacherResult future =>
      match s.futures[future]? with
      | none => none
      | some (.error error) => some { s with phase := .teacherShutdown (.error error) }
      | some (.ok teacher) =>
        some { s with
          trainer := { s.trainer with teacherModelManager := some teacher }
          phase := .convert }
    | _ => none
  | .convert result =>
    match s.phase with
    | .convert =>
      match result with
      | .error error => some { s with phase := .teacherShutdown (.error error) }
      | .ok distillation =>
        some { s with
          trainer := { s.trainer with distillationConfig := some distillation }
          phase := .teacherShutdown (.ok ()) }
    | _ => none
  | .teacherShutdown =>
    match s.phase with
    | .teacherShutdown result =>
      if s.futures.length = s.jobs.length then
        match result with
        | .error error => some { s with phase := .standaloneShutdown (.error error) }
        | .ok () => some { s with phase := .standaloneResult }
      else none
    | _ => none
  | .standaloneResult =>
    match s.phase, s.standalone with
    | .standaloneResult, some result => some { s with phase := .standaloneShutdown result }
    | _, _ => none
  | .standaloneShutdown =>
    match s.phase, s.standalone with
    | .standaloneShutdown result, some _ => some (s.afterInitialize result)
    | _, _ => none
  | .wire raised =>
    match s.phase with
    | .wiring stage =>
      match raised with
      | some error => some { s with phase := .done (.error error) }
      | none => some (s.wire stage)
    | _ => none
  | .teacherConfigures config =>
    match s.jobs[s.futures.length]? with
    | some job => some { s with configs := s.configs.write job.config config }
    | none => none
  | .teacherEnds result =>
    if s.futures.length < s.jobs.length then some { s with futures := s.futures ++ [result] }
    else none
  | .standaloneConfigures config =>
    match s.standalone with
    | none => some { s with configs := s.configs.write s.standaloneConfig config }
    | some _ => none
  | .standaloneEnds result =>
    match s.standalone with
    | none => some { s with standalone := some result }
    | some _ => none

/-! ## What a step can do -/

/-- A pool keeps its placement groups. -/
theorem placePools_of_placed {pools : List Bool} {pool : ℕ} (hplaced : pools[pool]? = some true)
    (addresses : List ℕ) : (placePools pools addresses)[pool]? = some true := by
  induction addresses generalizing pools with
  | nil => exact hplaced
  | cons address addresses ih =>
    rw [placePools, List.foldl_cons]
    refine ih ?_
    rcases eq_or_ne address pool with rfl | hne
    · exact List.getElem?_set_self (List.getElem?_eq_some_iff.mp hplaced).1
    · rw [List.getElem?_set_ne hne]
      exact hplaced

/-- The pools that are placed have their placement groups. -/
theorem placePools_of_mem {pools : List Bool} {addresses : List ℕ} {pool : ℕ}
    (hmem : pool ∈ addresses) (hlt : pool < pools.length) :
    (placePools pools addresses)[pool]? = some true := by
  induction addresses generalizing pools with
  | nil => exact absurd hmem List.not_mem_nil
  | cons address addresses ih =>
    rw [placePools, List.foldl_cons]
    rcases List.mem_cons.mp hmem with rfl | hmem
    · exact placePools_of_placed (List.getElem?_set_self hlt) addresses
    · exact ih hmem (by rwa [List.length_set])

namespace State

/-- The main thread goes on behind upstream's set-up, and touches nothing that the services use. -/
structure Advances (s t : State C T D S O) : Prop where
  left : s.phase ≠ .upstream
  behind : t.phase ≠ .upstream
  same : t = { s with phase := t.phase, trainer := t.trainer }
  config : t.trainer.config = s.trainer.config
  useTeacherPolicy : t.trainer.useTeacherPolicy = s.trainer.useTeacherPolicy
  initResourcePoolMgr : t.trainer.initResourcePoolMgr = s.trainer.initResourcePoolMgr

/-- Upstream's set-up goes on, and no Teacher is made. A pool keeps its placement groups. -/
structure Arranges (s t : State C T D S O) : Prop where
  same : t = { s with
    configs := t.configs, pools := t.pools, managers := t.managers, trainer := t.trainer }
  next : t.configs.next = s.configs.next
  pools : ∀ pool : ℕ, s.pools[pool]? = some true → t.pools[pool]? = some true
  managers : ∀ manager ∈ t.managers, manager.startsTeacher = true →
    s.trainer.initResourcePoolMgr = some .initPools ∨
      ∃ manager ∈ s.managers, manager.startsTeacher = true
  config : t.trainer.config = s.trainer.config
  useTeacherPolicy : t.trainer.useTeacherPolicy = s.trainer.useTeacherPolicy
  initResourcePoolMgr : t.trainer.initResourcePoolMgr = s.trainer.initResourcePoolMgr
  standaloneServerManager :
    t.trainer.standaloneServerManager = s.trainer.standaloneServerManager

namespace Arranges

variable {s t u : State C T D S O}

theorem refl (s : State C T D S O) : s.Arranges s where
  same := rfl
  next := rfl
  pools _ hplaced := hplaced
  managers manager hmem hstarts := .inr ⟨manager, hmem, hstarts⟩
  config := rfl
  useTeacherPolicy := rfl
  initResourcePoolMgr := rfl
  standaloneServerManager := rfl

theorem trans (h : s.Arranges t) (h' : t.Arranges u) : s.Arranges u where
  same := by
    rw [h'.same, h.same]
  next := h'.next.trans h.next
  pools pool hplaced := h'.pools pool (h.pools pool hplaced)
  managers manager hmem hstarts := by
    rcases h'.managers manager hmem hstarts with hinit | ⟨manager, hmem, hstarts⟩
    · exact .inl (h.initResourcePoolMgr ▸ hinit)
    · exact h.managers manager hmem hstarts
  config := h'.config.trans h.config
  useTeacherPolicy := h'.useTeacherPolicy.trans h.useTeacherPolicy
  initResourcePoolMgr := h'.initResourcePoolMgr.trans h.initResourcePoolMgr
  standaloneServerManager := h'.standaloneServerManager.trans h.standaloneServerManager

/-- A manager that starts a Teacher no sooner than before. -/
theorem setManager {address : ℕ} {manager next : PoolManager}
    (hmanager : s.managers[address]? = some manager)
    (hstarts : next.startsTeacher = true → manager.startsTeacher = true) :
    s.Arranges { s with managers := s.managers.set address next } where
  same := rfl
  next := rfl
  pools _ hplaced := hplaced
  managers other hmem hother := by
    rcases List.mem_or_eq_of_mem_set hmem with hold | rfl
    · exact .inr ⟨other, hold, hother⟩
    · exact .inr ⟨manager, List.mem_of_getElem? hmanager, hstarts hother⟩
  config := rfl
  useTeacherPolicy := rfl
  initResourcePoolMgr := rfl
  standaloneServerManager := rfl

/-- Pools that keep their placement groups. -/
theorem setPools {pools : List Bool}
    (hpools : ∀ pool : ℕ, s.pools[pool]? = some true → pools[pool]? = some true) :
    s.Arranges { s with pools := pools } where
  same := rfl
  next := rfl
  pools := hpools
  managers manager hmem hstarts := .inr ⟨manager, hmem, hstarts⟩
  config := rfl
  useTeacherPolicy := rfl
  initResourcePoolMgr := rfl
  standaloneServerManager := rfl

theorem restoreCreate {address : ℕ} {manager : PoolManager}
    (hmanager : s.managers[address]? = some manager) :
    s.Arranges (s.restoreCreate address manager) :=
  setManager hmanager fun hstarts => absurd hstarts Bool.false_ne_true

theorem createPools {address count : ℕ} {manager : PoolManager}
    (hmanager : s.managers[address]? = some manager) :
    s.Arranges (s.createPools address count manager) := by
  have hpools : s.Arranges { s with pools := s.pools ++ List.replicate count false } := by
    refine setPools fun pool hplaced => ?_
    rw [List.getElem?_append_left (List.getElem?_eq_some_iff.mp hplaced).1]
    exact hplaced
  exact hpools.trans (setManager hmanager id)

theorem placeCreated (s : State C T D S O) (start count : ℕ) :
    s.Arranges (s.placeCreated start count) :=
  setPools fun _ hplaced => placePools_of_placed hplaced _

theorem initResourcePoolMgr_call (s : State C T D S O) : s.Arranges s.initResourcePoolMgr where
  same := rfl
  next := rfl
  pools _ hplaced := hplaced
  managers manager hmem hstarts := by
    rcases List.mem_append.mp hmem with hold | hnew
    · exact .inr ⟨manager, hold, hstarts⟩
    · -- the new manager starts a Teacher where the call is of `init_pools`
      left
      obtain rfl := List.mem_singleton.mp hnew
      cases hinit : s.trainer.initResourcePoolMgr with
      | none => simp [hinit] at hstarts
      | some function =>
        cases function with
        | override function => simp [hinit] at hstarts
        | initPools => rfl
  config := rfl
  useTeacherPolicy := rfl
  initResourcePoolMgr := rfl
  standaloneServerManager := rfl

end Arranges

/-- `create_and_start_teacher` makes the Teacher of a pool that has its placement groups, or none
at all. -/
theorem createAndStartTeacher_cases {s t : State C T D S O} {address count : ℕ}
    {manager : PoolManager} {creation : Creation} (hmanager : s.managers[address]? = some manager)
    (h : s.createAndStartTeacher address count manager creation = some t) :
    s.Arranges t ∨
      ∃ u config pool, s.Arranges u ∧ u.pools[pool]? = some true ∧
        t = u.submitTeacher config pool := by
  have hrestored := Arranges.restoreCreate hmanager
  have hlt : address < s.managers.length := (List.getElem?_eq_some_iff.mp hmanager).1
  have hcreated : s.Arranges ((s.restoreCreate address manager).createPools address count
      { manager with startsTeacher := false }) :=
    hrestored.trans (Arranges.createPools (List.getElem?_set_self hlt))
  cases creation with
  | createRaises =>
    cases h
    exact .inl hrestored
  | placementRaises placed =>
    obtain ⟨_, ⟨⟩⟩ := Option.ite_none_right_eq_some.mp h
    exact .inl (hcreated.trans (.placeCreated ..))
  | argumentsRaise =>
    cases h
    exact .inl (hcreated.trans (.placeCreated ..))
  | returns role =>
    rw [createAndStartTeacher] at h
    cases hconfig : s.configs.read s.trainer.config with
    | none => simp [hconfig] at h
    | some config =>
      rw [hconfig] at h
      obtain ⟨hrole, ⟨⟩⟩ := Option.ite_none_right_eq_some.mp h
      refine .inr ⟨_, config, _, hcreated.trans (.placeCreated ..), ?_, rfl⟩
      -- the loop reaches every pool of the dictionary, the Teacher's too
      refine placePools_of_mem ?_ ?_
      · rw [List.mem_range'_1]
        omega
      · simp only [State.createPools, State.restoreCreate, List.length_append,
          List.length_replicate]
        omega

/-- An action of upstream's set-up makes at most one Teacher: in a thread, of a pool that has its
placement groups, or at once, where `use_teacher_policy` is set. -/
theorem act_cases {s t : State C T D S O} {action : Upstream C T D} (h : s.act action = some t) :
    s.Arranges t ∨
      (∃ u config pool, s.Arranges u ∧ u.pools[pool]? = some true ∧
        (∃ manager ∈ s.managers, manager.startsTeacher = true) ∧
        t = u.submitTeacher config pool) ∨
      s.trainer.useTeacherPolicy = true ∧
        ∃ u, s.Arranges u ∧ t = { u with constructions := s.constructions ++ [.synchronous] } := by
  cases action with
  | initResourcePoolMgr raises =>
    cases raises <;> cases h
    · exact .inl (.initResourcePoolMgr_call s)
    · exact .inl (.refl s)
  | createResourcePool address count creation =>
    rw [act, createResourcePool] at h
    cases hmanager : s.managers[address]? with
    | none => simp [hmanager] at h
    | some manager =>
      simp only [hmanager] at h
      split at h
      next hstarts =>
        rcases createAndStartTeacher_cases hmanager h with harranges | hsubmits
        · exact .inl harranges
        · obtain ⟨u, config, pool, harranges, hplaced, rfl⟩ := hsubmits
          exact .inr (.inl ⟨u, config, pool, harranges, hplaced,
            ⟨manager, List.mem_of_getElem? hmanager, hstarts⟩, rfl⟩)
      next =>
        cases creation with
        | createRaises =>
          cases h
          exact .inl (.refl s)
        | returns role =>
          cases h
          exact .inl (.createPools hmanager)
        | placementRaises | argumentsRaise => cases h
  | placePool pool =>
    cases h
    exact .inl (.setPools fun other hplaced => placePools_of_placed hplaced [pool])
  | constructTeacher made =>
    cases h
    unfold constructTeacher
    split
    next hteacher =>
      refine .inr (.inr ⟨hteacher, ?_⟩)
      cases made with
      | error error => exact ⟨s, .refl s, rfl⟩
      | ok made =>
        refine ⟨{ s with trainer := { s.trainer with
          teacherModelManager := some made.1, distillationConfig := some made.2 } }, ?_, rfl⟩
        exact { Arranges.refl s with same := rfl }
    next => exact .inl { Arranges.refl s with same := rfl }
  | configure config =>
    cases h
    exact .inl { Arranges.refl s with same := rfl, next := Heap.next_write .. }
  | launchReplicas count =>
    cases h
    exact .inl { Arranges.refl s with same := rfl }

/-- The main thread behind upstream's set-up. -/
theorem afterInitialize_advances {s : State C T D S O} (hleft : s.phase ≠ .upstream)
    (result : Except PyError S) : s.Advances (s.afterInitialize result) := by
  cases result with
  | error error => exact ⟨hleft, nofun, rfl, rfl, rfl, rfl⟩
  | ok manager =>
    unfold afterInitialize
    dsimp only
    split
    · exact ⟨hleft, nofun, rfl, rfl, rfl, rfl⟩
    · exact ⟨hleft, nofun, rfl, rfl, rfl, rfl⟩

end State

/-- All that a step can do. -/
inductive Move (s : State C T D S O) : Event C T D S → State C T D S O → Prop
  | act (action : Upstream C T D) {t : State C T D S O} (hphase : s.phase = .upstream)
      (hact : s.act action = some t) : Move s (.upstream action) t
  | upstreamEnds (result : Except PyError Unit) (hphase : s.phase = .upstream) :
      Move s (.upstreamEnds result) (s.afterUpstream result)
  | advance {e : Event C T D S} {t : State C T D S O} (hadvances : s.Advances t) : Move s e t
  | configure {e : Event C T D S} (address : ℕ) (config : C) :
      Move s e { s with configs := s.configs.write address config }
  | teacherEnds (result : Except PyError T) (hlt : s.futures.length < s.jobs.length) :
      Move s (.teacherEnds result) { s with futures := s.futures ++ [result] }
  | standaloneEnds (result : Except PyError S) (hnone : s.standalone = none) :
      Move s (.standaloneEnds result) { s with standalone := some result }

/-- The inversion of `step`. -/
theorem move_of_step {s t : State C T D S O} {e : Event C T D S} (h : step s e = some t) :
    Move s e t := by
  cases e with
  | upstream action =>
    cases hphase : s.phase <;> simp only [step, hphase, reduceCtorEq] at h
    exact .act action hphase h
  | upstreamEnds result =>
    cases hphase : s.phase <;> simp only [step, hphase, reduceCtorEq] at h
    cases h
    exact .upstreamEnds result hphase
  | teacherResult =>
    cases hphase : s.phase <;> simp only [step, hphase, reduceCtorEq] at h
    split at h <;> cases h
    · exact .advance ⟨hphase ▸ nofun, nofun, rfl, rfl, rfl, rfl⟩
    · exact .advance ⟨hphase ▸ nofun, nofun, rfl, rfl, rfl, rfl⟩
  | convert result =>
    cases hphase : s.phase <;> simp only [step, hphase, reduceCtorEq] at h
    split at h <;> cases h
    · exact .advance ⟨hphase ▸ nofun, nofun, rfl, rfl, rfl, rfl⟩
    · exact .advance ⟨hphase ▸ nofun, nofun, rfl, rfl, rfl, rfl⟩
  | teacherShutdown =>
    cases hphase : s.phase <;> simp only [step, hphase, reduceCtorEq] at h
    obtain ⟨-, h⟩ := Option.ite_none_right_eq_some.mp h
    split at h <;> cases h
    · exact .advance ⟨hphase ▸ nofun, nofun, rfl, rfl, rfl, rfl⟩
    · exact .advance ⟨hphase ▸ nofun, nofun, rfl, rfl, rfl, rfl⟩
  | standaloneResult =>
    simp only [step] at h
    split at h <;> cases h
    next hphase _ => exact .advance ⟨hphase ▸ nofun, nofun, rfl, rfl, rfl, rfl⟩
  | standaloneShutdown =>
    simp only [step] at h
    split at h <;> cases h
    next hphase _ => exact .advance (State.afterInitialize_advances (hphase ▸ nofun) _)
  | wire raised =>
    cases hphase : s.phase with
    | wiring stage =>
      simp only [step, hphase] at h
      cases raised with
      | some error =>
        cases h
        exact .advance ⟨hphase ▸ nofun, nofun, rfl, rfl, rfl, rfl⟩
      | none =>
        cases h
        cases stage <;> exact .advance ⟨hphase ▸ nofun, nofun, rfl, rfl, rfl, rfl⟩
    | _ => simp [step, hphase] at h
  | teacherConfigures config =>
    simp only [step] at h
    split at h <;> cases h
    exact .configure _ config
  | teacherEnds result =>
    obtain ⟨hlt, ⟨⟩⟩ := Option.ite_none_right_eq_some.mp h
    exact .teacherEnds result hlt
  | standaloneConfigures config =>
    simp only [step] at h
    split at h <;> cases h
    exact .configure _ config
  | standaloneEnds result =>
    simp only [step] at h
    split at h <;> cases h
    exact .standaloneEnds result ‹_›

end ParallelStartup
