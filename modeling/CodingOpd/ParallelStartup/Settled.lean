import CodingOpd.ParallelStartup.Startup

/-!
# How the startup ends

However the three threads interleave, and whatever raises: a Teacher is only made of a pool that has
its placement groups, no two threads have a configuration in common, the trainer gets back what was
replaced on it, and no thread is left running when `_setup` ends. What `_setup` makes of the
services depends on how each of them ended, and not on when.

## Main definitions

* `State.Sound`: what holds of the shared objects
* `initialized`, `services`: what is returned or raised, by how the services ended
* `State.Follows`: where the main thread is, after some events
* `Decided`, `Settled`: what holds after every run

## Main results

* `settled_of_run`: a run leaves what its outcomes determine
-/

open Python Transition

namespace ParallelStartup

variable {C T D S O : Type}

/-! ## The shared objects -/

/-- The configurations of the threads: those of the main thread, of the standalone rollout and of
the Teachers. -/
def State.ownConfigs (s : State C T D S O) : List ℕ :=
  s.trainer.config :: s.standaloneConfig :: s.jobs.map Job.config

/-- What holds of the shared objects, after every step. -/
structure State.Sound (s : State C T D S O) : Prop where
  /-- The Teachers' pools have their placement groups. -/
  placed : ∀ job ∈ s.jobs, s.pools[job.resourcePool]? = some true
  apart : s.ownConfigs.Nodup
  allocated : ∀ address ∈ s.ownConfigs, address < s.configs.next
  /-- No Teacher is made at once behind one that has been submitted. -/
  single : s.constructions.Pairwise fun first later => first = .submitted → later = .submitted
  submitted : .submitted ∈ s.constructions → s.jobs ≠ []
  silenced : s.phase = .upstream → s.jobs ≠ [] → s.trainer.useTeacherPolicy = false
  teaching : s.jobs ≠ [] → s.teaching = true
  starts : ∀ manager ∈ s.managers, manager.startsTeacher = true → s.teaching = true
  replaced : s.phase = .upstream → s.trainer.initResourcePoolMgr =
    if s.teaching then some .initPools else s.previousOverride.map .override
  /-- The future that is waited for is that of the last Teacher. -/
  last : s.teacher = if s.jobs = [] then none else some (s.jobs.length - 1)
  futures : s.futures.length ≤ s.jobs.length

namespace State.Sound

variable {s t : State C T D S O}

theorem start (trainer : Trainer T D S O) (override : Option O) (config : C) (startRank : ℕ)
    (prometheus : Bool) : (State.start trainer override config startRank prometheus).Sound where
  placed _ hmem := absurd hmem List.not_mem_nil
  apart := by simp [State.ownConfigs, State.start]
  allocated address hmem := by
    simp only [State.ownConfigs, State.start, List.map_nil, List.mem_cons, List.not_mem_nil,
      or_false] at hmem
    simp only [State.start, Heap.next, List.length_cons, List.length_nil]
    omega
  single := .nil
  submitted hmem := absurd hmem List.not_mem_nil
  silenced _ hjobs := absurd rfl hjobs
  teaching hjobs := absurd rfl hjobs
  starts _ hmem := absurd hmem List.not_mem_nil
  replaced _ := rfl
  last := rfl
  futures := Nat.le_refl _

theorem arranges (h : s.Sound) (harranges : s.Arranges t) (hphase : s.phase = .upstream) :
    t.Sound := by
  obtain ⟨configs, pools, managers, trainer, rfl⟩ : ∃ configs pools managers trainer,
      t = { s with configs := configs, pools := pools, managers := managers, trainer := trainer } :=
    ⟨_, _, _, _, harranges.same⟩
  have hown : State.ownConfigs { s with
      configs := configs, pools := pools, managers := managers, trainer := trainer } =
        s.ownConfigs :=
    congrArg (· :: s.standaloneConfig :: s.jobs.map Job.config) harranges.config
  exact
    { placed := fun job hmem => harranges.pools _ (h.placed job hmem)
      apart := hown ▸ h.apart
      allocated := fun address hmem => by
        rw [hown] at hmem
        exact harranges.next ▸ h.allocated address hmem
      single := h.single
      submitted := h.submitted
      silenced := fun hphase hjobs => harranges.useTeacherPolicy.trans (h.silenced hphase hjobs)
      teaching := h.teaching
      starts := fun manager hmem hstarts => by
        rcases harranges.managers manager hmem hstarts with hinit | ⟨other, hother, hstarts⟩
        · -- `init_pools` is only there while the Teacher has an executor
          rw [h.replaced hphase] at hinit
          by_contra hteaching
          rw [if_neg hteaching] at hinit
          cases hprevious : s.previousOverride <;> simp [hprevious] at hinit
        · exact h.starts other hother hstarts
      replaced := fun hphase => harranges.initResourcePoolMgr.trans (h.replaced hphase)
      last := h.last
      futures := h.futures }

/-- The Teacher is submitted by a manager that starts one. -/
theorem submitTeacher (h : s.Sound) {config : C} {pool : ℕ} (hplaced : s.pools[pool]? = some true)
    (hteaching : s.teaching = true) : (s.submitTeacher config pool).Sound where
  placed job hmem := by
    rcases List.mem_append.mp hmem with hold | hnew
    · exact h.placed job hold
    · obtain rfl := List.mem_singleton.mp hnew
      exact hplaced
  apart := by
    have hfresh : s.configs.next ∉ s.ownConfigs := fun hmem => (h.allocated _ hmem).ne rfl
    have hown : (s.submitTeacher config pool).ownConfigs = s.ownConfigs ++ [s.configs.next] := by
      simp [State.ownConfigs, State.submitTeacher]
    rw [hown]
    exact List.nodup_append.mpr ⟨h.apart, List.pairwise_singleton _ _,
      fun address hold other hnew heq => hfresh (List.mem_singleton.mp hnew ▸ heq ▸ hold)⟩
  allocated address hmem := by
    rw [State.submitTeacher, Heap.next_alloc]
    have hmem' : address ∈ s.ownConfigs ∨ address = s.configs.next := by
      simpa [State.ownConfigs, State.submitTeacher, or_assoc] using hmem
    rcases hmem' with hold | rfl
    · exact (h.allocated address hold).trans (Nat.lt_succ_self _)
    · exact Nat.lt_succ_self _
  single := List.pairwise_append.mpr
    ⟨h.single, List.pairwise_singleton _ _, fun _ _ later hlater _ => List.mem_singleton.mp hlater⟩
  submitted _ := List.append_ne_nil_of_right_ne_nil _ (List.cons_ne_nil _ _)
  silenced _ _ := rfl
  teaching _ := hteaching
  starts _ _ _ := hteaching
  replaced hphase := h.replaced hphase
  last := by
    simp [State.submitTeacher]
  futures := by
    simp only [State.submitTeacher, List.length_append, List.length_singleton]
    exact Nat.le_succ_of_le h.futures

/-- A Teacher is only made at once where none has been submitted. -/
theorem synchronous (h : s.Sound) (hphase : s.phase = .upstream)
    (hteacher : s.trainer.useTeacherPolicy = true) :
    State.Sound { s with constructions := s.constructions ++ [.synchronous] } := by
  have hjobs : s.jobs = [] := by
    by_contra hjobs
    exact Bool.false_ne_true ((h.silenced hphase hjobs).symm.trans hteacher)
  have hnone : .submitted ∉ s.constructions := fun hmem => h.submitted hmem hjobs
  exact
    { h with
      single := List.pairwise_append.mpr
        ⟨h.single, List.pairwise_singleton _ _, fun first hfirst later _ heq =>
          absurd (heq ▸ hfirst) hnone⟩
      submitted := fun hmem => by
        rcases List.mem_append.mp hmem with hold | hnew
        · exact absurd hold hnone
        · cases List.mem_singleton.mp hnew }

theorem act (h : s.Sound) {action : Upstream C T D} (hphase : s.phase = .upstream)
    (hact : s.act action = some t) : t.Sound := by
  rcases State.act_cases hact with harranges | hsubmits | ⟨hteacher, u, harranges, rfl⟩
  · exact h.arranges harranges hphase
  · obtain ⟨u, config, pool, harranges, hplaced, ⟨manager, hmem, hstarts⟩, rfl⟩ := hsubmits
    have hteaching : u.teaching = true := by
      rw [harranges.same]
      exact h.starts manager hmem hstarts
    exact (h.arranges harranges hphase).submitTeacher hplaced hteaching
  · have hphase' : u.phase = .upstream := by
      rw [harranges.same]
      exact hphase
    have hconstructions : u.constructions = s.constructions := by
      rw [harranges.same]
    rw [← hconstructions]
    exact (h.arranges harranges hphase).synchronous hphase'
      (harranges.useTeacherPolicy.trans hteacher)

/-- The main thread moves on. -/
theorem of_same (h : s.Sound) (hphase : t.phase ≠ .upstream)
    (hsame : t = { s with phase := t.phase, trainer := t.trainer })
    (hconfig : t.trainer.config = s.trainer.config) : t.Sound := by
  obtain ⟨phase, trainer, rfl⟩ : ∃ phase trainer,
      t = { s with phase := phase, trainer := trainer } :=
    ⟨_, _, hsame⟩
  have hown : State.ownConfigs { s with phase := phase, trainer := trainer } = s.ownConfigs :=
    congrArg (· :: s.standaloneConfig :: s.jobs.map Job.config) hconfig
  exact
    { placed := h.placed
      apart := hown ▸ h.apart
      allocated := fun address hmem => h.allocated address (hown ▸ hmem)
      single := h.single
      submitted := h.submitted
      silenced := fun heq => absurd heq hphase
      teaching := h.teaching
      starts := h.starts
      replaced := fun heq => absurd heq hphase
      last := h.last
      futures := h.futures }

end State.Sound

/-- The main thread behind upstream's set-up, and what it has given back to the trainer. -/
theorem State.afterUpstream_same (s : State C T D S O) (result : Except PyError Unit) :
    (s.afterUpstream result).phase ≠ .upstream ∧
      s.afterUpstream result = { s with
        phase := (s.afterUpstream result).phase, trainer := (s.afterUpstream result).trainer } ∧
      (s.afterUpstream result).trainer.config = s.trainer.config := by
  unfold afterUpstream
  split
  · split <;> exact ⟨nofun, rfl, rfl⟩
  · split <;> exact ⟨nofun, rfl, rfl⟩

theorem State.Sound.step {s t : State C T D S O} {e : Event C T D S} (h : s.Sound)
    (hstep : step s e = some t) : t.Sound := by
  cases move_of_step hstep with
  | act action hphase hact => exact h.act hphase hact
  | upstreamEnds result hphase =>
    obtain ⟨hbehind, hsame, hconfig⟩ := s.afterUpstream_same result
    exact h.of_same hbehind hsame hconfig
  | advance hadvances => exact h.of_same hadvances.behind hadvances.same hadvances.config
  | configure address config =>
    exact
      { h with
        allocated := fun other hmem => by
          rw [Heap.next_write]
          exact h.allocated other hmem }
  | teacherEnds result hlt =>
    exact
      { h with
        futures := by
          rw [List.length_append, List.length_singleton]
          exact hlt }
  | standaloneEnds result hnone => exact { h with }

/-! ## How the services ended -/

/-- The result of upstream's set-up. -/
def Event.upstreamEnd? : Event C T D S → Option (Except PyError Unit)
  | .upstreamEnds result => some result
  | _ => none

def Event.conversion? : Event C T D S → Option (Except PyError D)
  | .convert result => some result
  | _ => none

def Event.teacherEnd? : Event C T D S → Option (Except PyError T)
  | .teacherEnds result => some result
  | _ => none

def Event.standaloneEnd? : Event C T D S → Option (Except PyError S)
  | .standaloneEnds result => some result
  | _ => none

/-- What `_initialize_with_teacher` returns or raises, by how upstream's set-up and the last Teacher
ended, and what the configuration was converted to. -/
def initialized (teaching : Bool) (upstream : Except PyError Unit)
    (teacher : Option (Except PyError T)) (converted : Except PyError D) :
    Except PyError (Option (T × D)) := do
  upstream
  if teaching then
    match teacher with
    | none =>
      .error (.runtimeError "Base setup did not initialize the Teacher resource pool")
    | some made => do
      let teacher ← made
      let distillation ← converted
      pure (some (teacher, distillation))
  else pure none

/-- What `_parallel_initialize` returns or raises: the first of the exceptions, or the services. -/
def services (teaching : Bool) (upstream : Except PyError Unit)
    (teacher : Option (Except PyError T)) (converted : Except PyError D)
    (standalone : Except PyError S) : Except PyError (Option (T × D) × S) := do
  let teacher ← initialized teaching upstream teacher converted
  let rollout ← standalone
  pure (teacher, rollout)

namespace State

/-- How `_initialize_with_teacher` has come to its end. -/
inductive Initialized (es : List (Event C T D S)) (s : State C T D S O) :
    Except PyError Unit → Prop
  | upstreamRaised {error : PyError}
      (hends : es.filterMap Event.upstreamEnd? = [.error error])
      (hconverts : es.filterMap Event.conversion? = []) : Initialized es s (.error error)
  | plain (hends : es.filterMap Event.upstreamEnd? = [.ok ()])
      (hconverts : es.filterMap Event.conversion? = []) (hteaching : s.teaching = false) :
      Initialized es s (.ok ())
  | withoutPools (hends : es.filterMap Event.upstreamEnd? = [.ok ()])
      (hconverts : es.filterMap Event.conversion? = []) (hteaching : s.teaching = true)
      (hteacher : s.teacher = none) :
      Initialized es s
        (.error (.runtimeError "Base setup did not initialize the Teacher resource pool"))
  | teacherRaised {future : ℕ} {error : PyError}
      (hends : es.filterMap Event.upstreamEnd? = [.ok ()])
      (hconverts : es.filterMap Event.conversion? = []) (hteaching : s.teaching = true)
      (hteacher : s.teacher = some future) (hmade : s.futures[future]? = some (.error error)) :
      Initialized es s (.error error)
  | conversionRaised {future : ℕ} {teacher : T} {error : PyError}
      (hends : es.filterMap Event.upstreamEnd? = [.ok ()])
      (hconverts : es.filterMap Event.conversion? = [.error error]) (hteaching : s.teaching = true)
      (hteacher : s.teacher = some future) (hmade : s.futures[future]? = some (.ok teacher)) :
      Initialized es s (.error error)
  | made {future : ℕ} {teacher : T} {distillation : D}
      (hends : es.filterMap Event.upstreamEnd? = [.ok ()])
      (hconverts : es.filterMap Event.conversion? = [.ok distillation])
      (hteaching : s.teaching = true) (hteacher : s.teacher = some future)
      (hmade : s.futures[future]? = some (.ok teacher))
      (hmanager : s.trainer.teacherModelManager = some teacher)
      (hconfig : s.trainer.distillationConfig = some distillation) : Initialized es s (.ok ())

/-- The end of `_initialize_with_teacher` is the one that the outcomes determine, once all the
Teachers have ended. -/
theorem Initialized.eq_initialized {s : State C T D S O} {es : List (Event C T D S)}
    {result : Except PyError Unit} (h : s.Initialized es result) :
    ∃ upstream converted,
      es.filterMap Event.upstreamEnd? = [upstream] ∧
      (∀ conversion ∈ es.filterMap Event.conversion?, conversion = converted) ∧
      match initialized s.teaching upstream (s.teacher.bind (s.futures[·]?)) converted with
      | .error error => result = .error error
      | .ok none => result = .ok ()
      | .ok (some (teacher, distillation)) =>
        result = .ok () ∧ s.trainer.teacherModelManager = some teacher ∧
          s.trainer.distillationConfig = some distillation := by
  cases h with
  | upstreamRaised hends hconverts =>
    refine ⟨_, .error .zeroDivisionError, hends, ?_, rfl⟩
    rw [hconverts]
    exact List.forall_mem_nil _
  | plain hends hconverts hteaching =>
    refine ⟨_, .error .zeroDivisionError, hends, ?_, ?_⟩
    · rw [hconverts]
      exact List.forall_mem_nil _
    · rw [hteaching]
      rfl
  | withoutPools hends hconverts hteaching hteacher =>
    refine ⟨_, .error .zeroDivisionError, hends, ?_, ?_⟩
    · rw [hconverts]
      exact List.forall_mem_nil _
    · rw [hteaching, hteacher]
      rfl
  | teacherRaised hends hconverts hteaching hteacher hmade =>
    refine ⟨_, .error .zeroDivisionError, hends, ?_, ?_⟩
    · rw [hconverts]
      exact List.forall_mem_nil _
    · rw [hteaching, hteacher, Option.bind_some, hmade]
      rfl
  | @conversionRaised _ _ error hends hconverts hteaching hteacher hmade =>
    refine ⟨_, .error error, hends, ?_, ?_⟩
    · rw [hconverts]
      exact fun conversion hmem => List.mem_singleton.mp hmem
    · rw [hteaching, hteacher, Option.bind_some, hmade]
      rfl
  | @made _ _ distillation hends hconverts hteaching hteacher hmade hmanager hconfig =>
    refine ⟨_, .ok distillation, hends, ?_, ?_⟩
    · rw [hconverts]
      exact fun conversion hmem => List.mem_singleton.mp hmem
    · rw [hteaching, hteacher, Option.bind_some, hmade]
      exact ⟨rfl, hmanager, hconfig⟩

/-- What the main thread has done so far, by where it is; `initial` is the standalone manager that
the trainer had before. -/
inductive Stands (initial : Option S) (es : List (Event C T D S)) (s : State C T D S O) :
    Phase S → Prop
  | upstream (hends : es.filterMap Event.upstreamEnd? = [])
      (hconverts : es.filterMap Event.conversion? = [])
      (hinitial : s.trainer.standaloneServerManager = initial) : Stands initial es s .upstream
  | teacherResult {future : ℕ} (hends : es.filterMap Event.upstreamEnd? = [.ok ()])
      (hconverts : es.filterMap Event.conversion? = []) (hteaching : s.teaching = true)
      (hteacher : s.teacher = some future)
      (hinitial : s.trainer.standaloneServerManager = initial) :
      Stands initial es s (.teacherResult future)
  | convert {future : ℕ} {teacher : T} (hends : es.filterMap Event.upstreamEnd? = [.ok ()])
      (hconverts : es.filterMap Event.conversion? = []) (hteaching : s.teaching = true)
      (hteacher : s.teacher = some future) (hmade : s.futures[future]? = some (.ok teacher))
      (hmanager : s.trainer.teacherModelManager = some teacher)
      (hinitial : s.trainer.standaloneServerManager = initial) : Stands initial es s .convert
  | teacherShutdown {result : Except PyError Unit} (hended : s.Initialized es result)
      (hinitial : s.trainer.standaloneServerManager = initial) :
      Stands initial es s (.teacherShutdown result)
  | standaloneResult (hjoined : s.futures.length = s.jobs.length)
      (hended : s.Initialized es (.ok ()))
      (hinitial : s.trainer.standaloneServerManager = initial) :
      Stands initial es s .standaloneResult
  | raising {error : PyError} (hjoined : s.futures.length = s.jobs.length)
      (hended : s.Initialized es (.error error))
      (hinitial : s.trainer.standaloneServerManager = initial) :
      Stands initial es s (.standaloneShutdown (.error error))
  | standaloneShutdown {result : Except PyError S} (hjoined : s.futures.length = s.jobs.length)
      (hended : s.Initialized es (.ok ())) (hstandalone : s.standalone = some result)
      (hinitial : s.trainer.standaloneServerManager = initial) :
      Stands initial es s (.standaloneShutdown result)
  | wiring {stage : Wiring} {manager : S} (hjoined : s.futures.length = s.jobs.length)
      (hended : s.Initialized es (.ok ())) (hstandalone : s.standalone = some (.ok manager))
      (hmanager : s.trainer.standaloneServerManager = some manager)
      (hranks : s.trainer.rolloutReplicas = s.startRank)
      (hwired : stage = .balancer →
        s.trainer.standaloneCheckpointManager = some manager ∧ s.trainer.rolloutMode = true) :
      Stands initial es s (.wiring stage)
  | raised {error : PyError} {standalone : Except PyError S}
      (hjoined : s.futures.length = s.jobs.length) (hended : s.Initialized es (.error error))
      (hstandalone : s.standalone = some standalone)
      (hinitial : s.trainer.standaloneServerManager = initial) :
      Stands initial es s (.done (.error error))
  | standaloneRaised {error : PyError} (hjoined : s.futures.length = s.jobs.length)
      (hended : s.Initialized es (.ok ())) (hstandalone : s.standalone = some (.error error))
      (hinitial : s.trainer.standaloneServerManager = initial) :
      Stands initial es s (.done (.error error))
  | wired {result : Except PyError Unit} {manager : S}
      (hjoined : s.futures.length = s.jobs.length) (hended : s.Initialized es (.ok ()))
      (hstandalone : s.standalone = some (.ok manager))
      (hmanager : s.trainer.standaloneServerManager = some manager)
      (hwired : result = .ok () → s.trainer.rolloutReplicas = s.startRank ∧
        s.trainer.standaloneCheckpointManager = some manager ∧ s.trainer.rolloutMode = true ∧
        s.trainer.balanced = true) :
      Stands initial es s (.done result)

/-- What the threads' results are, and where the main thread is, after some events. -/
structure Follows (initial : Option S) (es : List (Event C T D S)) (s : State C T D S O) :
    Prop where
  futures : es.filterMap Event.teacherEnd? = s.futures
  standalone : es.filterMap Event.standaloneEnd? = s.standalone.toList
  stands : s.Stands initial es s.phase

/-! ## After a step -/

/-- Upstream's set-up is as it was before, and so is the conversion. -/
structure Quiet (es fs : List (Event C T D S)) : Prop where
  ends : fs.filterMap Event.upstreamEnd? = es.filterMap Event.upstreamEnd?
  converts : fs.filterMap Event.conversion? = es.filterMap Event.conversion?

theorem Quiet.append {e : Event C T D S} (hends : e.upstreamEnd? = none)
    (hconverts : e.conversion? = none) (es : List (Event C T D S)) : Quiet es (es ++ [e]) where
  ends := by simp [hends]
  converts := by simp [hconverts]

/-- What the main thread has learnt of the Teacher stays. -/
theorem Initialized.carry {s t : State C T D S O} {es fs : List (Event C T D S)}
    {result : Except PyError Unit} (h : s.Initialized es result) (hquiet : Quiet es fs)
    (hteaching : t.teaching = s.teaching) (hteacher : t.teacher = s.teacher)
    (hfutures : s.futures <+: t.futures)
    (hmanager : t.trainer.teacherModelManager = s.trainer.teacherModelManager)
    (hconfig : t.trainer.distillationConfig = s.trainer.distillationConfig) :
    t.Initialized fs result := by
  have hmade : ∀ {future : ℕ} {made : Except PyError T}, s.futures[future]? = some made →
      t.futures[future]? = some made := by
    intro future made hmade
    obtain ⟨rest, heq⟩ := hfutures
    rw [← heq, List.getElem?_append_left (List.getElem?_eq_some_iff.mp hmade).1]
    exact hmade
  cases h with
  | upstreamRaised hends hconverts =>
    exact .upstreamRaised (hquiet.ends.trans hends) (hquiet.converts.trans hconverts)
  | plain hends hconverts hplain =>
    exact .plain (hquiet.ends.trans hends) (hquiet.converts.trans hconverts)
      (hteaching.trans hplain)
  | withoutPools hends hconverts hteaches hnone =>
    exact .withoutPools (hquiet.ends.trans hends) (hquiet.converts.trans hconverts)
      (hteaching.trans hteaches) (hteacher.trans hnone)
  | teacherRaised hends hconverts hteaches hsome hraised =>
    exact .teacherRaised (hquiet.ends.trans hends) (hquiet.converts.trans hconverts)
      (hteaching.trans hteaches) (hteacher.trans hsome) (hmade hraised)
  | conversionRaised hends hconverts hteaches hsome hok =>
    exact .conversionRaised (hquiet.ends.trans hends) (hquiet.converts.trans hconverts)
      (hteaching.trans hteaches) (hteacher.trans hsome) (hmade hok)
  | made hends hconverts hteaches hsome hok hmanager' hconfig' =>
    exact .made (hquiet.ends.trans hends) (hquiet.converts.trans hconverts)
      (hteaching.trans hteaches) (hteacher.trans hsome) (hmade hok) (hmanager.trans hmanager')
      (hconfig.trans hconfig')

/-- The main thread stands where it stood while another thread goes on. A Teacher only ends before
the Teachers are joined, and the rollout before it is. -/
theorem Stands.carry {initial : Option S} {s t : State C T D S O} {es fs : List (Event C T D S)}
    {phase : Phase S} (h : s.Stands initial es phase) (hquiet : Quiet es fs)
    (hteaching : t.teaching = s.teaching) (hteacher : t.teacher = s.teacher)
    (htrainer : t.trainer = s.trainer) (hrank : t.startRank = s.startRank)
    (hjobs : t.jobs = s.jobs) (hfutures : s.futures <+: t.futures)
    (hrunning : s.futures.length = s.jobs.length → t.futures = s.futures)
    (hstandalone : ∀ result, s.standalone = some result → t.standalone = some result) :
    t.Stands initial fs phase := by
  have hinit : ∀ {result}, s.Initialized es result → t.Initialized fs result := fun h =>
    h.carry hquiet hteaching hteacher hfutures (by rw [htrainer]) (by rw [htrainer])
  have hjoin : s.futures.length = s.jobs.length → t.futures.length = t.jobs.length := by
    intro hjoined
    rw [hrunning hjoined, hjobs]
    exact hjoined
  cases h with
  | upstream hends hconverts hinitial =>
    exact .upstream (hquiet.ends.trans hends) (hquiet.converts.trans hconverts)
      (htrainer ▸ hinitial)
  | teacherResult hends hconverts hteaches hsome hinitial =>
    exact .teacherResult (hquiet.ends.trans hends) (hquiet.converts.trans hconverts)
      (hteaching.trans hteaches) (hteacher.trans hsome) (htrainer ▸ hinitial)
  | convert hends hconverts hteaches hsome hmade hmanager hinitial =>
    refine .convert (hquiet.ends.trans hends) (hquiet.converts.trans hconverts)
      (hteaching.trans hteaches) (hteacher.trans hsome) ?_ (htrainer ▸ hmanager)
      (htrainer ▸ hinitial)
    obtain ⟨rest, heq⟩ := hfutures
    rw [← heq, List.getElem?_append_left (List.getElem?_eq_some_iff.mp hmade).1]
    exact hmade
  | teacherShutdown hended hinitial =>
    exact .teacherShutdown (hinit hended) (htrainer ▸ hinitial)
  | standaloneResult hjoined hended hinitial =>
    exact .standaloneResult (hjoin hjoined) (hinit hended) (htrainer ▸ hinitial)
  | raising hjoined hended hinitial =>
    exact .raising (hjoin hjoined) (hinit hended) (htrainer ▸ hinitial)
  | standaloneShutdown hjoined hended hsome hinitial =>
    exact .standaloneShutdown (hjoin hjoined) (hinit hended) (hstandalone _ hsome)
      (htrainer ▸ hinitial)
  | wiring hjoined hended hsome hmanager hranks hwired =>
    exact .wiring (hjoin hjoined) (hinit hended) (hstandalone _ hsome) (htrainer ▸ hmanager)
      (by rw [htrainer, hrank, hranks]) (htrainer ▸ hwired)
  | raised hjoined hended hsome hinitial =>
    exact .raised (hjoin hjoined) (hinit hended) (hstandalone _ hsome) (htrainer ▸ hinitial)
  | standaloneRaised hjoined hended hsome hinitial =>
    exact .standaloneRaised (hjoin hjoined) (hinit hended) (hstandalone _ hsome)
      (htrainer ▸ hinitial)
  | wired hjoined hended hsome hmanager hwired =>
    exact .wired (hjoin hjoined) (hinit hended) (hstandalone _ hsome) (htrainer ▸ hmanager)
      (by rwa [htrainer, hrank])

/-- What an action of upstream's set-up leaves alone. -/
theorem act_keeps {s t : State C T D S O} {action : Upstream C T D}
    (h : s.act action = some t) :
    t.phase = s.phase ∧ t.futures = s.futures ∧ t.standalone = s.standalone ∧
      t.teaching = s.teaching ∧ t.previousOverride = s.previousOverride ∧
      t.startRank = s.startRank ∧
      t.trainer.standaloneServerManager = s.trainer.standaloneServerManager := by
  rcases act_cases h with
    harranges | ⟨u, config, pool, harranges, -, -, rfl⟩ | ⟨-, u, harranges, rfl⟩
  · rw [harranges.same]
    exact ⟨rfl, rfl, rfl, rfl, rfl, rfl, harranges.standaloneServerManager⟩
  · refine ⟨?_, ?_, ?_, ?_, ?_, ?_, harranges.standaloneServerManager⟩ <;>
      rw [harranges.same] <;> rfl
  · refine ⟨?_, ?_, ?_, ?_, ?_, ?_, harranges.standaloneServerManager⟩ <;> rw [harranges.same]

namespace Follows

variable {initial : Option S} {es : List (Event C T D S)} {s t : State C T D S O}

theorem start (trainer : Trainer T D S O) (override : Option O) (config : C) (startRank : ℕ)
    (prometheus : Bool) :
    (State.start trainer override config startRank prometheus).Follows
      trainer.standaloneServerManager [] where
  futures := rfl
  standalone := rfl
  stands := .upstream rfl rfl rfl

/-- A step of the main thread. -/
theorem main (h : s.Follows initial es) {e : Event C T D S} (hteacher : e.teacherEnd? = none)
    (hstandalone : e.standaloneEnd? = none) (hfutures : t.futures = s.futures)
    (hsame : t.standalone = s.standalone) (hstands : t.Stands initial (es ++ [e]) t.phase) :
    t.Follows initial (es ++ [e]) where
  futures := by
    rw [hfutures, ← h.futures]
    simp [hteacher]
  standalone := by
    rw [hsame, ← h.standalone]
    simp [hstandalone]
  stands := hstands

/-- A trainer without a Teacher has nothing to join. -/
theorem joined_of_plain (hsound : s.Sound) (hteaching : s.teaching ≠ true) :
    s.futures.length = s.jobs.length := by
  have hjobs : s.jobs = [] := by
    by_contra hjobs
    exact hteaching (hsound.teaching hjobs)
  have hle := hsound.futures
  rw [hjobs] at hle ⊢
  exact Nat.le_zero.mp hle

/-- `base_setup()` returns or raises. -/
theorem upstreamEnds (h : s.Follows initial es) (hsound : s.Sound) {result : Except PyError Unit}
    (hphase : s.phase = .upstream) :
    (s.afterUpstream result).Follows initial (es ++ [Event.upstreamEnds result]) := by
  have hstands := h.stands
  rw [hphase] at hstands
  cases hstands with
  | upstream hends hconverts hinitial =>
    have hends' : (es ++ [Event.upstreamEnds result]).filterMap Event.upstreamEnd? = [result] := by
      simp [hends, Event.upstreamEnd?]
    have hconverts' : (es ++ [Event.upstreamEnds result]).filterMap Event.conversion? = [] := by
      simp [hconverts, Event.conversion?]
    unfold afterUpstream
    split
    next hteaching =>
      cases result with
      | error error =>
        exact h.main rfl rfl rfl rfl
          (.teacherShutdown (.upstreamRaised hends' hconverts') hinitial)
      | ok =>
        cases hteacher : s.teacher with
        | none =>
          exact h.main rfl rfl rfl rfl
            (.teacherShutdown (.withoutPools hends' hconverts' hteaching hteacher) hinitial)
        | some future =>
          exact h.main rfl rfl rfl rfl
            (.teacherResult hends' hconverts' hteaching hteacher hinitial)
    next hteaching =>
      have hjoined := joined_of_plain hsound hteaching
      have hplain : s.teaching = false := by simpa using hteaching
      cases result with
      | error error =>
        exact h.main rfl rfl rfl rfl (.raising hjoined (.upstreamRaised hends' hconverts') hinitial)
      | ok =>
        exact h.main rfl rfl rfl rfl
          (.standaloneResult hjoined (.plain hends' hconverts' hplain) hinitial)

/-- `teacher.result()` returns or raises. -/
theorem teacherResult (h : s.Follows initial es) (hstep : step s .teacherResult = some t) :
    t.Follows initial (es ++ [.teacherResult]) := by
  have hstands := h.stands
  have hquiet : Quiet es (es ++ [Event.teacherResult]) := .append rfl rfl es
  cases hphase : s.phase <;> simp only [step, hphase, reduceCtorEq] at hstep
  rw [hphase] at hstands
  cases hstands with
  | teacherResult hends hconverts hteaching hteacher hinitial =>
    have hends' := hquiet.ends.trans hends
    have hconverts' := hquiet.converts.trans hconverts
    split at hstep <;> cases hstep
    next hmade =>
      exact h.main rfl rfl rfl rfl
        (.teacherShutdown (.teacherRaised hends' hconverts' hteaching hteacher hmade) hinitial)
    next hmade =>
      exact h.main rfl rfl rfl rfl
        (.convert hends' hconverts' hteaching hteacher hmade rfl hinitial)

/-- The configuration is converted, or the conversion raises. -/
theorem convert (h : s.Follows initial es) {result : Except PyError D}
    (hstep : step s (.convert result) = some t) :
    t.Follows initial (es ++ [Event.convert result]) := by
  have hstands := h.stands
  cases hphase : s.phase <;> simp only [step, hphase, reduceCtorEq] at hstep
  rw [hphase] at hstands
  cases hstands with
  | convert hends hconverts hteaching hteacher hmade hmanager hinitial =>
    have hends' :
        (es ++ [Event.convert result]).filterMap Event.upstreamEnd? = [.ok ()] := by
      simp [hends, Event.upstreamEnd?]
    have hconverts' :
        (es ++ [Event.convert result]).filterMap Event.conversion? = [result] := by
      simp [hconverts, Event.conversion?]
    cases result with
    | error error =>
      cases hstep
      exact h.main rfl rfl rfl rfl
        (.teacherShutdown (.conversionRaised hends' hconverts' hteaching hteacher hmade) hinitial)
    | ok distillation =>
      cases hstep
      exact h.main rfl rfl rfl rfl
        (.teacherShutdown (.made hends' hconverts' hteaching hteacher hmade hmanager rfl) hinitial)

/-- The Teacher's executor is shut down, once its thread has ended. -/
theorem teacherShutdown (h : s.Follows initial es) (hstep : step s .teacherShutdown = some t) :
    t.Follows initial (es ++ [.teacherShutdown]) := by
  have hstands := h.stands
  have hquiet : Quiet es (es ++ [Event.teacherShutdown]) := .append rfl rfl es
  cases hphase : s.phase <;> simp only [step, hphase, reduceCtorEq] at hstep
  rw [hphase] at hstands
  obtain ⟨hjoined, hstep⟩ := Option.ite_none_right_eq_some.mp hstep
  cases hstands with
  | teacherShutdown hended hinitial =>
    have hended' := hended.carry (t := t) hquiet
    split at hstep <;> cases hstep
    · exact h.main rfl rfl rfl rfl
        (.raising hjoined (hended' rfl rfl List.prefix_rfl rfl rfl) hinitial)
    · exact h.main rfl rfl rfl rfl
        (.standaloneResult hjoined (hended' rfl rfl List.prefix_rfl rfl rfl) hinitial)

/-- `standalone.result()` returns or raises. -/
theorem standaloneResult (h : s.Follows initial es) (hstep : step s .standaloneResult = some t) :
    t.Follows initial (es ++ [.standaloneResult]) := by
  have hstands := h.stands
  have hquiet : Quiet es (es ++ [Event.standaloneResult]) := .append rfl rfl es
  simp only [step] at hstep
  split at hstep <;> cases hstep
  next hphase hstandalone =>
    rw [hphase] at hstands
    cases hstands with
    | standaloneResult hjoined hended hinitial =>
      exact h.main rfl rfl rfl rfl
        (.standaloneShutdown hjoined (hended.carry hquiet rfl rfl List.prefix_rfl rfl rfl)
          hstandalone hinitial)

/-- The executor of the rollout is shut down, once its thread has ended. -/
theorem standaloneShutdown (h : s.Follows initial es)
    (hstep : step s .standaloneShutdown = some t) :
    t.Follows initial (es ++ [.standaloneShutdown]) := by
  have hstands := h.stands
  have hquiet : Quiet es (es ++ [Event.standaloneShutdown]) := .append rfl rfl es
  simp only [step] at hstep
  split at hstep <;> cases hstep
  next result _ hphase hsome =>
    rw [hphase] at hstands
    cases hstands with
    | raising hjoined hended hinitial =>
      exact h.main rfl rfl rfl rfl
        (.raised hjoined (hended.carry hquiet rfl rfl List.prefix_rfl rfl rfl) hsome hinitial)
    | standaloneShutdown hjoined hended hstandalone hinitial =>
      cases result with
      | error error =>
        exact h.main rfl rfl rfl rfl
          (.standaloneRaised hjoined (hended.carry hquiet rfl rfl List.prefix_rfl rfl rfl)
            hstandalone hinitial)
      | ok manager =>
        unfold afterInitialize
        dsimp only
        split
        next =>
          exact h.main rfl rfl rfl rfl
            (.wired hjoined (hended.carry hquiet rfl rfl List.prefix_rfl rfl rfl) hstandalone rfl
              fun heq => by cases heq)
        next hranks =>
          refine h.main rfl rfl rfl rfl
            (.wiring hjoined (hended.carry hquiet rfl rfl List.prefix_rfl rfl rfl) hstandalone rfl
              (not_not.mp hranks) ?_)
          split <;> simp

/-- A stage of the wiring. -/
theorem wire (h : s.Follows initial es) {raised : Option PyError}
    (hstep : step s (.wire raised) = some t) :
    t.Follows initial (es ++ [Event.wire raised]) := by
  have hstands := h.stands
  have hquiet : Quiet es (es ++ [Event.wire raised]) := .append rfl rfl es
  cases hphase : s.phase with
  | wiring stage =>
    simp only [step, hphase] at hstep
    rw [hphase] at hstands
    cases hstands with
    | wiring hjoined hended hstandalone hmanager hranks hwired =>
      cases raised with
      | some error =>
        cases hstep
        exact h.main rfl rfl rfl rfl
          (.wired hjoined (hended.carry hquiet rfl rfl List.prefix_rfl rfl rfl) hstandalone
            hmanager fun heq => by cases heq)
      | none =>
        cases hstep
        cases stage with
        | prometheus =>
          exact h.main rfl rfl rfl rfl
            (.wiring hjoined (hended.carry hquiet rfl rfl List.prefix_rfl rfl rfl) hstandalone
              hmanager hranks fun heq => by cases heq)
        | checkpointEngine =>
          exact h.main rfl rfl rfl rfl
            (.wiring hjoined (hended.carry hquiet rfl rfl List.prefix_rfl rfl rfl) hstandalone
              hmanager hranks fun _ => ⟨hmanager, rfl⟩)
        | balancer =>
          obtain ⟨hcheckpoint, hmode⟩ := hwired rfl
          exact h.main rfl rfl rfl rfl
            (.wired hjoined (hended.carry hquiet rfl rfl List.prefix_rfl rfl rfl) hstandalone
              hmanager fun _ => ⟨hranks, hcheckpoint, hmode, rfl⟩)
  | _ => simp [step, hphase] at hstep

theorem step (h : s.Follows initial es) (hsound : s.Sound) {e : Event C T D S}
    (hstep : step s e = some t) : t.Follows initial (es ++ [e]) := by
  cases e with
  | upstream action =>
    cases hphase : s.phase <;> simp only [ParallelStartup.step, hphase, reduceCtorEq] at hstep
    have hstands := h.stands
    rw [hphase] at hstands
    obtain ⟨hkept, hfutures, hstandalone, -, -, -, hmanager⟩ := act_keeps hstep
    have hquiet : Quiet es (es ++ [Event.upstream action]) := .append rfl rfl es
    cases hstands with
    | upstream hends hconverts hinitial =>
      refine h.main rfl rfl hfutures hstandalone ?_
      rw [hkept, hphase]
      exact .upstream (hquiet.ends.trans hends) (hquiet.converts.trans hconverts)
        (hmanager.trans hinitial)
  | upstreamEnds result =>
    cases hphase : s.phase <;> simp only [ParallelStartup.step, hphase, reduceCtorEq] at hstep
    cases hstep
    exact h.upstreamEnds hsound hphase
  | teacherResult => exact h.teacherResult hstep
  | convert result => exact h.convert hstep
  | teacherShutdown => exact h.teacherShutdown hstep
  | standaloneResult => exact h.standaloneResult hstep
  | standaloneShutdown => exact h.standaloneShutdown hstep
  | wire raised => exact h.wire hstep
  | teacherConfigures config =>
    simp only [ParallelStartup.step] at hstep
    split at hstep <;> cases hstep
    exact h.main rfl rfl rfl rfl (h.stands.carry (.append rfl rfl es) rfl rfl rfl rfl rfl
      List.prefix_rfl (fun _ => rfl) fun _ hsome => hsome)
  | teacherEnds result =>
    obtain ⟨hlt, ⟨⟩⟩ := Option.ite_none_right_eq_some.mp hstep
    exact
      { futures := by simp [h.futures, Event.teacherEnd?]
        standalone := by simp [h.standalone, Event.standaloneEnd?]
        stands := h.stands.carry (.append rfl rfl es) rfl rfl rfl rfl rfl (List.prefix_append _ _)
          (fun hjoined => absurd hjoined hlt.ne) fun _ hsome => hsome }
  | standaloneConfigures config =>
    simp only [ParallelStartup.step] at hstep
    split at hstep <;> cases hstep
    exact h.main rfl rfl rfl rfl (h.stands.carry (.append rfl rfl es) rfl rfl rfl rfl rfl
      List.prefix_rfl (fun _ => rfl) fun _ hsome => hsome)
  | standaloneEnds result =>
    simp only [ParallelStartup.step] at hstep
    split at hstep <;> cases hstep
    next hnone =>
      exact
        { futures := by simp [h.futures, Event.teacherEnd?]
          standalone := by simp [h.standalone, hnone, Event.standaloneEnd?]
          stands := h.stands.carry (.append rfl rfl es) rfl rfl rfl rfl rfl List.prefix_rfl
            (fun _ => rfl) fun _ hsome => by simp [hnone] at hsome }

end Follows

end State

/-! ## The trainer afterwards -/

/-- The trainer gets back what was replaced on it; `trainer` and `override` are as they were. -/
structure State.Restores (trainer : Trainer T D S O) (override : Option O) (s : State C T D S O) :
    Prop where
  teaching : s.teaching = trainer.useTeacherPolicy
  previous : s.previousOverride = override
  plain : s.teaching = false → s.trainer.useTeacherPolicy = false
  restored : s.phase ≠ .upstream →
    s.trainer.useTeacherPolicy = trainer.useTeacherPolicy ∧
      s.trainer.initResourcePoolMgr = override.map .override

namespace State.Restores

variable {trainer : Trainer T D S O} {override : Option O} {s t : State C T D S O}

theorem start (trainer : Trainer T D S O) (override : Option O) (config : C) (startRank : ℕ)
    (prometheus : Bool) :
    (State.start trainer override config startRank prometheus).Restores trainer override where
  teaching := rfl
  previous := rfl
  plain hteaching := hteaching
  restored hphase := absurd rfl hphase

theorem act (h : s.Restores trainer override) {action : Upstream C T D}
    (hphase : s.phase = .upstream) (hact : s.act action = some t) :
    t.Restores trainer override := by
  obtain ⟨hkept, -, -, hteaching, hprevious, -, -⟩ := State.act_keeps hact
  refine ⟨hteaching.trans h.teaching, hprevious.trans h.previous, fun hplain => ?_,
    fun hne => absurd (hkept.trans hphase) hne⟩
  have hpolicy := h.plain (hteaching.symm.trans hplain)
  rcases State.act_cases hact with
    harranges | ⟨u, config, pool, harranges, -, -, rfl⟩ | ⟨-, u, harranges, rfl⟩
  · exact harranges.useTeacherPolicy.trans hpolicy
  · rfl
  · exact harranges.useTeacherPolicy.trans hpolicy

/-- The `finally` block, where there is one. -/
theorem afterUpstream (h : s.Restores trainer override) (hsound : s.Sound)
    (hphase : s.phase = .upstream) (result : Except PyError Unit) :
    (s.afterUpstream result).Restores trainer override := by
  unfold State.afterUpstream
  split
  next hteaching =>
    have htrue : true = trainer.useTeacherPolicy := hteaching.symm.trans h.teaching
    have hrestored : s.restore.trainer.initResourcePoolMgr = override.map .override :=
      congrArg (Option.map InitFunction.override) h.previous
    split <;>
      exact ⟨h.teaching, h.previous, fun hplain => absurd (hteaching.symm.trans hplain) nofun,
        fun _ => ⟨htrue, hrestored⟩⟩
  next hteaching =>
    have hplain : s.teaching = false := by simpa using hteaching
    have hpolicy := (h.plain hplain).trans (hplain.symm.trans h.teaching)
    have hinit : s.trainer.initResourcePoolMgr = override.map .override := by
      rw [hsound.replaced hphase, if_neg hteaching, h.previous]
    split <;> exact ⟨h.teaching, h.previous, h.plain, fun _ => ⟨hpolicy, hinit⟩⟩

theorem step (h : s.Restores trainer override) (hsound : s.Sound) {e : Event C T D S}
    (hstep : step s e = some t) : t.Restores trainer override := by
  cases move_of_step hstep with
  | act action hphase hact => exact h.act hphase hact
  | upstreamEnds result hphase => exact h.afterUpstream hsound hphase result
  | advance hadvances =>
    obtain ⟨hpolicy, hinit⟩ := h.restored hadvances.left
    have hteaching : t.teaching = s.teaching := by rw [hadvances.same]
    have hprevious : t.previousOverride = s.previousOverride := by rw [hadvances.same]
    exact ⟨hteaching.trans h.teaching, hprevious.trans h.previous,
      fun hplain => hadvances.useTeacherPolicy.trans (h.plain (hteaching.symm.trans hplain)),
      fun _ => ⟨hadvances.useTeacherPolicy.trans hpolicy,
        hadvances.initResourcePoolMgr.trans hinit⟩⟩
  | configure address config => exact { h with }
  | teacherEnds result hlt => exact { h with }
  | standaloneEnds result hnone => exact { h with }

end State.Restores

/-! ## Every run -/

/-- The end of `_setup`, and what it leaves the trainer with, are those that the ends of the
services determine: the services are assigned where all of them have been made, and the Teacher is
the last one to be submitted. -/
def Decided (trainer : Trainer T D S O) (es : List (Event C T D S)) (s : State C T D S O)
    (result : Except PyError Unit) : Prop :=
  ∃ upstream converted standalone,
    es.filterMap Event.upstreamEnd? = [upstream] ∧
    (∀ conversion ∈ es.filterMap Event.conversion?, conversion = converted) ∧
    es.filterMap Event.standaloneEnd? = [standalone] ∧
    match services trainer.useTeacherPolicy upstream (es.filterMap Event.teacherEnd?).getLast?
      converted standalone with
    | .error error =>
      result = .error error ∧
        s.trainer.standaloneServerManager = trainer.standaloneServerManager
    | .ok (teacher, manager) =>
      (∀ made distillation, teacher = some (made, distillation) →
        s.trainer.teacherModelManager = some made ∧
          s.trainer.distillationConfig = some distillation) ∧
      s.trainer.standaloneServerManager = some manager ∧
      (result = .ok () → s.trainer.rolloutReplicas = s.startRank ∧
        s.trainer.standaloneCheckpointManager = some manager ∧ s.trainer.rolloutMode = true ∧
        s.trainer.balanced = true)

/-- What holds after some events of a startup on a trainer. -/
structure Settled (trainer : Trainer T D S O) (override : Option O) (es : List (Event C T D S))
    (s : State C T D S O) : Prop where
  /-- Every Teacher is made of a pool that has its placement groups already. -/
  placed : ∀ job ∈ s.jobs, s.pools[job.resourcePool]? = some true
  /-- No two threads have a configuration in common. -/
  apart : s.ownConfigs.Nodup
  /-- Once a Teacher has been submitted, upstream's set-up makes none of its own. -/
  single : s.constructions.Pairwise fun first later => first = .submitted → later = .submitted
  /-- Behind upstream's set-up, however it ended, the trainer is as it was. -/
  restored : s.phase ≠ .upstream →
    s.trainer.useTeacherPolicy = trainer.useTeacherPolicy ∧
      s.trainer.initResourcePoolMgr = override.map .override
  /-- `_setup` outlives the threads. -/
  joined : ∀ result, s.phase = .done result →
    s.futures.length = s.jobs.length ∧ s.standalone.isSome
  /-- The end of `_setup` depends only on how the services ended. -/
  decided : ∀ result, s.phase = .done result → Decided trainer es s result

/-- The future that is waited for is the last one to be done. -/
theorem State.Sound.teacher_eq_getLast? {s : State C T D S O} (h : s.Sound)
    (hjoined : s.futures.length = s.jobs.length) :
    s.teacher.bind (s.futures[·]?) = s.futures.getLast? := by
  rw [h.last, List.getLast?_eq_getElem?, hjoined]
  split
  next hjobs =>
    rw [hjobs, List.length_nil] at hjoined
    rw [List.length_eq_zero_iff.mp hjoined]
    rfl
  next => rfl

/-- What the trainer is left with when `_setup` ends. -/
theorem State.Follows.decided {trainer : Trainer T D S O} {override : Option O}
    {es : List (Event C T D S)} {s : State C T D S O}
    (h : s.Follows trainer.standaloneServerManager es) (hsound : s.Sound)
    (hrestores : s.Restores trainer override) {result : Except PyError Unit}
    (hphase : s.phase = .done result) :
    s.futures.length = s.jobs.length ∧ s.standalone.isSome ∧ Decided trainer es s result := by
  have hstands := h.stands
  rw [hphase] at hstands
  have hstandalone : ∀ {standalone}, s.standalone = some standalone →
      es.filterMap Event.standaloneEnd? = [standalone] := fun hsome => by
    rw [h.standalone, hsome]
    rfl
  have hresult : ∀ {ended}, s.futures.length = s.jobs.length → s.Initialized es ended →
      ∃ upstream converted, es.filterMap Event.upstreamEnd? = [upstream] ∧
        (∀ conversion ∈ es.filterMap Event.conversion?, conversion = converted) ∧
        match initialized trainer.useTeacherPolicy upstream
          (es.filterMap Event.teacherEnd?).getLast? converted with
        | .error error => ended = .error error
        | .ok none => ended = .ok ()
        | .ok (some (teacher, distillation)) =>
          ended = .ok () ∧ s.trainer.teacherModelManager = some teacher ∧
            s.trainer.distillationConfig = some distillation := fun hjoined hended => by
    rw [h.futures, ← hsound.teacher_eq_getLast? hjoined, ← hrestores.teaching]
    exact hended.eq_initialized
  cases hstands with
  | raised hjoined hended hsome hinitial =>
    obtain ⟨upstream, converted, hends, hconverts, hmatch⟩ := hresult hjoined hended
    refine ⟨hjoined, hsome ▸ rfl, upstream, converted, _, hends, hconverts, hstandalone hsome,
      ?_⟩
    unfold services
    split at hmatch
    next heq =>
      cases hmatch
      rw [heq]
      exact ⟨rfl, hinitial⟩
    next => cases hmatch
    next => cases hmatch.1
  | standaloneRaised hjoined hended hsome hinitial =>
    obtain ⟨upstream, converted, hends, hconverts, hmatch⟩ := hresult hjoined hended
    refine ⟨hjoined, hsome ▸ rfl, upstream, converted, _, hends, hconverts, hstandalone hsome,
      ?_⟩
    unfold services
    split at hmatch
    next => cases hmatch
    next heq =>
      rw [heq]
      exact ⟨rfl, hinitial⟩
    next heq =>
      rw [heq]
      exact ⟨rfl, hinitial⟩
  | wired hjoined hended hsome hmanager hwired =>
    obtain ⟨upstream, converted, hends, hconverts, hmatch⟩ := hresult hjoined hended
    refine ⟨hjoined, hsome ▸ rfl, upstream, converted, _, hends, hconverts, hstandalone hsome,
      ?_⟩
    unfold services
    split at hmatch
    next => cases hmatch
    next heq =>
      rw [heq]
      exact ⟨nofun, hmanager, hwired⟩
    next heq =>
      rw [heq]
      refine ⟨?_, hmanager, hwired⟩
      rintro made distillation ⟨⟩
      exact hmatch.2

/-- The invariants after every run. -/
theorem invariants_of_run {trainer : Trainer T D S O} {override : Option O} {config : C}
    {startRank : ℕ} {prometheus : Bool} {es : List (Event C T D S)} {s : State C T D S O}
    (hrun : run step (.start trainer override config startRank prometheus) es = some s) :
    s.Sound ∧ s.Restores trainer override ∧ s.Follows trainer.standaloneServerManager es := by
  refine run_invariant (P := fun es s => s.Sound ∧ s.Restores trainer override ∧
    s.Follows trainer.standaloneServerManager es) hrun
    ⟨.start .., .start .., .start ..⟩ ?_
  rintro es s e t ⟨hsound, hrestores, hfollows⟩ hstep
  exact ⟨hsound.step hstep, hrestores.step hsound hstep, hfollows.step hsound hstep⟩

/-- The Teacher and the rollout start while upstream's set-up goes on; the rollout is ready before
it, and the Teacher behind it. -/
def overlapping : List (Event Unit Unit Unit Unit) :=
  [.upstream (.initResourcePoolMgr false), .upstream (.createResourcePool 0 2 (.returns 1)),
    .upstream (.constructTeacher (.ok ((), ()))), .standaloneEnds (.ok ()),
    .upstream (.launchReplicas 4), .upstreamEnds (.ok ()), .teacherConfigures (),
    .teacherEnds (.ok ()), .teacherResult, .convert (.ok ()), .teacherShutdown, .standaloneResult,
    .standaloneShutdown, .wire none, .wire none]

/-- The topology that the startup was validated on. -/
def singleNode : Topology := ⟨"vllm", false, 1, 1, 1, 1, 1⟩

/-- A trainer that has a Teacher. -/
def freshTrainer : Trainer Unit Unit Unit Unit :=
  ⟨0, true, none, none, none, none, 0, none, none, false, false⟩

/-- The trainer once it is set up. -/
def readyTrainer : Trainer Unit Unit Unit Unit :=
  ⟨0, true, none, some 0, some (), some (), 4, some (), some (), true, true⟩

def overlapped : State Unit Unit Unit Unit Unit where
  configs := ⟨[(), (), ()]⟩
  pools := [true, true]
  managers := [⟨false, [0, 1]⟩]
  trainer := readyTrainer
  phase := .done (.ok ())
  teaching := true
  previousOverride := none
  jobs := [⟨2, 1⟩]
  futures := [.ok ()]
  teacher := some 0
  standaloneConfig := 1
  standalone := some (.ok ())
  startRank := 4
  prometheus := false
  constructions := [.submitted]

end ParallelStartup
