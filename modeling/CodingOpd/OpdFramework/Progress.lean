import CodingOpd.Library.Transition
import CodingOpd.OpdFramework.Algorithms

/-!
# The progress of training

The framework tells the runner of a prompt how far training has come, and the runner sets the limit
of the episode's turns and whether the task is evaluated. All of it goes through dictionaries that
the rollouts of many prompts may share. `_run_prompt_rollouts` and `run_r2e_task` write only to
copies of their own, so that prompts of training and of validation keep out of each other's way.

## Main definitions

* `Outcome`: a result, or an exception with the objects that it leaves
* `runPromptRollouts`, `runR2eTask`: what they do before they await
* `Upstream`: the runner's arguments and the task's configuration, as the agent library makes them
* `Rollouts.step`: the prompts and episodes of a worker
* `Rollouts.Configured`: the arguments of a task

## Main results

* `runR2eTask_configures`, `runR2eTask_spares`: one episode, which may raise
* `Rollouts.configured_of_run`: in every order, an episode's limits are those of its own prompt
-/

open Python Transition Adaptive

namespace OpdFramework

/-- A result, or an exception with the objects that it leaves. -/
abbrev Outcome (α : Type) := Except (PyError × Objects) α

/-- A computation that makes no object and writes to none. -/
def reading {α : Type} (h : Objects) (x : Except PyError α) : Outcome α := x.mapError (·, h)

section

variable {α β : Type} {h base : Objects}

@[simp] theorem reading_ok (a : α) : reading h (.ok a) = .ok a := rfl

theorem reading_bind_eq_ok {x : Except PyError α} {f : α → Outcome β} {b : β} :
    (reading h x >>= f) = .ok b ↔ ∃ a, x = .ok a ∧ f a = .ok b := by
  cases x with
  | ok a => rw [reading_ok, bind_eq_ok]; simp
  | error error => exact iff_of_false nofun (by rintro ⟨_, ⟨⟩, _⟩)

/-- The objects of `base` are kept where an exception is raised. -/
def Spares (base : Objects) (x : Outcome α) : Prop :=
  ∀ error h, x = .error (error, h) → base.Keeps h

theorem spares_ok (a : α) : Spares base (.ok a) := nofun

theorem spares_error {error : PyError} (hbase : base.Keeps h) :
    Spares base (.error (error, h) : Outcome α) := by
  rintro _ _ ⟨⟩
  exact hbase

theorem Spares.mono {x : Outcome α} (hx : Spares h x) (hbase : base.Keeps h) : Spares base x :=
  fun _ _ hraised => hbase.trans (hx _ _ hraised)

theorem Spares.bind {x : Outcome α} {f : α → Outcome β} (hx : Spares base x)
    (hf : ∀ a, x = .ok a → Spares base (f a)) : Spares base (x >>= f) := by
  cases x with
  | ok a => exact hf a rfl
  | error left =>
    rintro error h ⟨⟩
    exact hx _ _ rfl

/-- What only reads leaves the objects as they are. -/
theorem spares_reading {x : Except PyError α} {f : α → Outcome β} (hbase : base.Keeps h)
    (hf : ∀ a, x = .ok a → Spares base (f a)) : Spares base (reading h x >>= f) := by
  cases x with
  | ok a => exact hf a rfl
  | error error => exact spares_error hbase

end

/-- `_run_prompt_rollouts` before it awaits: its copy of the fields. -/
def runPromptRollouts (h : Objects) (sampleFields : ℕ) (globalSteps : Value)
    (partitionId : String) : Outcome (ℕ × Objects) := do
  let fields ← reading h ((Value.dict sampleFields).asDict h)
  let fieldsAt := h.next
  let h := h.alloc fields
  let tools ← reading h (dictOr h (fields.lookup "tools_kwargs"))
  let toolsAt := h.next
  let h := h.alloc tools
  let progressAt := h.next
  let h := h.alloc
    [("step", globalSteps.asPythonScalar), ("training", .bool (partitionId == "train"))]
  let h := h.write toolsAt (tools.setItem "_opd_progress" (.dict progressAt))
  let h := h.write fieldsAt (fields.setItem "tools_kwargs" (.dict toolsAt))
  return (fieldsAt, h)

/-- `progress is None`, or the value. -/
def givenProgress (tools : Dict Value) : Option Value :=
  match tools.lookup "_opd_progress" with
  | none | some .none => none
  | some progress => some progress

/-- `progress[name]` -/
def progressItem (h : Objects) (progress : Value) (name : String) : Except PyError Value := do
  let items ← progress.asDict h
  key name (items.lookup name)

variable {K : Type} [Field K] [LinearOrder K]

/-- The task's configuration with the limit of the algorithm. -/
def limitTurns (resolve : Objects → Value → Outcome (Dict Value × Objects))
    (algorithm : OPDAlgorithm K) (progress : Value) (toolsAt : ℕ) (h : Objects) :
    Outcome Objects := do
  let tools ← reading h ((Value.dict toolsAt).asDict h)
  let task ← reading h (key "task" (tools.lookup "task"))
  let (resolved, h) ← resolve h task
  let agent ← reading h (dictOr h (resolved.lookup "agent"))
  let maxTurns := (agent.lookup "max_steps").getD (.int 50)
  let step ← reading h (progressItem h progress "step")
  let turns ← reading h (algorithm.rolloutMaxTurns step maxTurns)
  let agentAt := h.next
  let h := h.alloc (agent.setItem "max_steps" (.int turns))
  let taskAt := h.next
  let h := h.alloc (resolved.setItem "agent" (.dict agentAt))
  return h.write toolsAt (tools.setItem "task" (.dict taskAt))

/-- The task's configuration with `run_evaluation`. -/
def setEvaluation (evaluate : Bool) (toolsAt : ℕ) (h : Objects) : Outcome Objects := do
  let tools ← reading h ((Value.dict toolsAt).asDict h)
  let task ← reading h (key "task" (tools.lookup "task"))
  let items ← reading h (task.asDict h)
  let taskAt := h.next
  let h := h.alloc (items.setItem "run_evaluation" (.bool evaluate))
  return h.write toolsAt (tools.setItem "task" (.dict taskAt))

section

variable (resolve : Objects → Value → Outcome (Dict Value × Objects)) (runner : Runner K)

/-- The part of `run_r2e_task` for an algorithm with a limit of its own. `kwargs["tools_kwargs"]` is
replaced where the task's configuration changes. -/
def applyAlgorithm (algorithm : OPDAlgorithm K) (progress : Option Value) (toolsKwargs : Value)
    (toolsAt : ℕ) (h : Objects) : Outcome (Value × Objects) :=
  if runner.opdAlgorithm = "vanilla" then .ok (toolsKwargs, h)
  else
    match progress with
    | none =>
      .error (.valueError (runner.opdAlgorithm ++
        " requires explicit _opd_progress from the OPD framework"), h)
    | some progress => do
      let training ← reading h (progressItem h progress "training")
      if training.truthy h then do
        let h ← limitTurns resolve algorithm progress toolsAt h
        .ok (Value.dict toolsAt, h)
      else .ok (toolsKwargs, h)

/-- The part of `run_r2e_task` for `run_evaluation`. -/
def applyEvaluation (progress : Option Value) (toolsKwargs : Value) (toolsAt : ℕ) (h : Objects) :
    Outcome (Value × Objects) :=
  match runner.runEvaluation with
  | none => .ok (toolsKwargs, h)
  | some runEvaluation => do
    let evaluate ←
      match progress with
      | none => .ok runEvaluation
      | some progress => do
        let training ← reading h (progressItem h progress "training")
        -- a validation of the framework always measures the task's success
        .ok (!training.truthy h || runEvaluation)
    let h ← setEvaluation evaluate toolsAt h
    return (Value.dict toolsAt, h)

/-- `run_r2e_task` before it awaits: the `tools_kwargs` of `_run_task`. -/
def runR2eTask (toolsKwargs : Value) (h : Objects) : Outcome (Value × Objects) := do
  let algorithm ← reading h (OPDAlgorithm.getAlgorithm runner)
  let tools ← reading h (dictOr h (some toolsKwargs))
  let toolsAt := h.next
  let progress := givenProgress tools
  let (toolsKwargs, h) ←
    applyAlgorithm resolve runner algorithm progress toolsKwargs toolsAt (h.alloc tools)
  applyEvaluation runner progress toolsKwargs toolsAt h

end

/-! ## One episode -/

/-- The limit of the algorithm applies. -/
def Limits (runner : Runner K) (training : Bool) : Prop :=
  runner.opdAlgorithm ≠ "vanilla" ∧ training = true

/-- The turns of an episode of training, of the step and the task's own limit: a curriculum that
grows by a turn in each interval, or all of them. -/
inductive Turns (runner : Runner K) (step maxTurns : ℤ) : ℤ → Prop
  | tcod {interval : ℤ} : runner.opdAlgorithm = "tcod" →
    runner.tcodGrowthInterval = .int interval → 1 ≤ interval →
    Turns runner step maxTurns (min maxTurns (1 + step / interval))
  | adaptive : runner.opdAlgorithm = "adaptive" → Turns runner step maxTurns maxTurns

/-- The task's configuration with the limit of the algorithm: what `limitTurns` makes, where the
objects of `base` are kept. -/
inductive Limited (resolve : Objects → Value → Outcome (Dict Value × Objects))
    (runner : Runner K) (step task : Value) (base h : Objects) (agentAt : ℕ) :
    Dict Value → Prop
  | limit {before after : Objects} {resolved agent : Dict Value} {n m turns : ℤ} :
    base.Keeps before → resolve before task = .ok (resolved, after) →
    dictOr after (resolved.lookup "agent") = .ok agent →
    step = .int n → 0 ≤ n → (agent.lookup "max_steps").getD (.int 50) = .int m → 1 ≤ m →
    Turns runner n m turns →
    h.read agentAt = some (agent.setItem "max_steps" (.int turns)) →
    Limited resolve runner step task base h agentAt (resolved.setItem "agent" (.dict agentAt))

/-- The task's configuration with what the runner says of the evaluation. -/
def evaluated (runner : Runner K) (training : Bool) (items : Dict Value) : Dict Value :=
  match runner.runEvaluation with
  | none => items
  | some runEvaluation => items.setItem "run_evaluation" (.bool (!training || runEvaluation))

/-- The `tools_kwargs` of a task, by those that the runner is given, the step and whether the prompt
is one of training; the objects of `base` are kept all along. -/
inductive Configured (resolve : Objects → Value → Outcome (Dict Value × Objects))
    (runner : Runner K) (base h : Objects) (tools : Dict Value) (step : Value) (training : Bool) :
    Dict Value → Prop
  | unchanged : ¬ Limits runner training → runner.runEvaluation = none →
    Configured resolve runner base h tools step training tools
  | limited {task : Value} {items : Dict Value} {agentAt taskAt : ℕ} : Limits runner training →
    tools.lookup "task" = some task → Limited resolve runner step task base h agentAt items →
    h.read taskAt = some (evaluated runner training items) →
    Configured resolve runner base h tools step training (tools.setItem "task" (.dict taskAt))
  | evaluated {task : Value} {before : Objects} {items : Dict Value} {taskAt : ℕ} :
    ¬ Limits runner training → tools.lookup "task" = some task →
    base.Keeps before → task.asDict before = .ok items →
    h.read taskAt = some (evaluated runner training items) →
    Configured resolve runner base h tools step training (tools.setItem "task" (.dict taskAt))

section

variable {resolve : Objects → Value → Outcome (Dict Value × Objects)}
  {algorithm : OPDAlgorithm K} {h h' base : Objects} {toolsAt : ℕ} {tools : Dict Value}

/-- The horizon of an algorithm that is not vanilla. -/
theorem turns_of_getAlgorithm {runner : Runner K} (hne : runner.opdAlgorithm ≠ "vanilla")
    (halgorithm : OPDAlgorithm.getAlgorithm runner = .ok algorithm) (step maxTurns : ℤ) :
    Turns runner step maxTurns (algorithm.horizon step maxTurns) := by
  rw [OPDAlgorithm.getAlgorithm, if_neg hne] at halgorithm
  split_ifs at halgorithm with htcod hadaptive
  · cases hcreate : TCOD.create runner.tcodGrowthInterval with
    | error error =>
      rw [hcreate] at halgorithm
      cases halgorithm
    | ok t =>
      rw [hcreate] at halgorithm
      cases halgorithm
      exact .tcod htcod (TCOD.eq_of_create hcreate) t.one_le
  · cases hcreate : AdaptiveOPD.create runner.adaptiveThreshold with
    | error error =>
      rw [hcreate] at halgorithm
      cases halgorithm
    | ok t =>
      rw [hcreate] at halgorithm
      cases halgorithm
      exact .adaptive hadaptive

theorem asDict_eq_ok_iff {value : Value} {items : Dict Value} :
    value.asDict h = .ok items ↔
      ∃ address, value = .dict address ∧ h.read address = some items := by
  cases value with
  | dict address =>
    rw [Value.asDict]
    cases hread : h.read address with
    | none => exact iff_of_false nofun (by rintro ⟨_, ⟨⟩, heq⟩; cases hread.symm.trans heq)
    | some cell =>
      constructor
      · rintro ⟨⟩
        exact ⟨address, rfl, hread⟩
      · rintro ⟨_, ⟨⟩, heq⟩
        cases hread.symm.trans heq
        rfl
  | none | bool | int | str | array | other =>
    exact iff_of_false nofun fun ⟨_, heq, _⟩ => nomatch heq

theorem dictOr_dict {address : ℕ} {items : Dict Value} (hread : h.read address = some items) :
    dictOr h (some (.dict address)) = .ok items := by
  have hdict : (Value.dict address).asDict h = .ok items :=
    asDict_eq_ok_iff.mpr ⟨address, rfl, hread⟩
  rw [dictOr, hdict]
  split_ifs with htruthy
  · rfl
  · have hempty : h.read address = some [] := by simpa [Value.truthy] using htruthy
    cases hread.symm.trans hempty
    rfl

theorem progressItem_eq_ok_iff {progress : Value} {name : String} {value : Value} :
    progressItem h progress name = .ok value ↔
      ∃ items, progress.asDict h = .ok items ∧ items.lookup name = some value := by
  rw [progressItem, bind_eq_ok]
  exact exists_congr fun items => and_congr_right fun _ => key_eq_ok

/-- What `limitTurns` writes. -/
theorem limitTurns_spec {runner : Runner K}
    (hturns : ∀ n m, Turns runner n m (algorithm.horizon n m))
    (hresolve : ∀ h value items h', resolve h value = .ok (items, h') → h.Keeps h')
    (hbase : base.Keeps h) (hfresh : base.next ≤ toolsAt) (hread : h.read toolsAt = some tools)
    {progress step : Value} (hstep : progressItem base progress "step" = .ok step)
    (hok : limitTurns resolve algorithm progress toolsAt h = .ok h') :
    base.Keeps h' ∧ ∃ task items agentAt taskAt, tools.lookup "task" = some task ∧
      h'.read toolsAt = some (tools.setItem "task" (.dict taskAt)) ∧
      h'.read taskAt = some items ∧ Limited resolve runner step task base h' agentAt items ∧
      toolsAt ≠ agentAt ∧ toolsAt ≠ taskAt := by
  obtain ⟨tools', htools, hok⟩ := reading_bind_eq_ok.mp hok
  obtain ⟨_, ⟨⟩, hread'⟩ := asDict_eq_ok_iff.mp htools
  cases hread.symm.trans hread'
  obtain ⟨task, htask, hok⟩ := reading_bind_eq_ok.mp hok
  obtain ⟨⟨resolved, after⟩, hresolved, hok⟩ := bind_eq_ok.mp hok
  obtain ⟨agent, hagent, hok⟩ := reading_bind_eq_ok.mp hok
  obtain ⟨step', hstep', hok⟩ := reading_bind_eq_ok.mp hok
  obtain ⟨turns, hmax, hok⟩ := reading_bind_eq_ok.mp hok
  cases hok
  have hafter : h.Keeps after := hresolve _ _ _ _ hresolved
  have hsame : step' = step := by
    obtain ⟨items, hitems, hlookup⟩ := progressItem_eq_ok_iff.mp hstep
    obtain ⟨address, rfl, haddress⟩ := asDict_eq_ok_iff.mp hitems
    obtain ⟨items', hitems', hlookup'⟩ := progressItem_eq_ok_iff.mp hstep'
    obtain ⟨_, ⟨⟩, haddress'⟩ := asDict_eq_ok_iff.mp hitems'
    cases ((hbase.trans hafter).read haddress).symm.trans haddress'
    exact Option.some_inj.mp (hlookup'.symm.trans hlookup)
  obtain ⟨n, m, hn, hnonneg, hm, hpos, rfl⟩ := OPDAlgorithm.rolloutMaxTurns_eq_ok_iff.mp hmax
  have hlt : toolsAt < after.next := (Heap.lt_next_of_read hread).trans_le hafter.next_le
  have hagentNe : toolsAt ≠ after.next := hlt.ne
  have htaskNe : toolsAt ≠ after.next + 1 := (hlt.trans (Nat.lt_succ_self _)).ne
  set agentItems := agent.setItem "max_steps" (.int (algorithm.horizon n m))
  set taskItems := resolved.setItem "agent" (.dict after.next)
  have hnext : (after.alloc agentItems).next = after.next + 1 := Heap.next_alloc _ _
  refine ⟨((hbase.trans hafter).alloc _ |>.alloc _).write hfresh _, task, taskItems, after.next,
    after.next + 1, key_eq_ok.mp htask, ?_, ?_, ?_, hagentNe, htaskNe⟩
  · rw [Heap.read_write_self, hnext]
    rw [Heap.next_alloc, hnext]
    exact hlt.trans (Nat.lt_succ_of_lt (Nat.lt_succ_self _))
  · rw [Heap.read_write_of_ne _ htaskNe, ← hnext]
    exact Heap.read_alloc_next _ _
  · refine .limit hbase hresolved hagent (hsame ▸ hn) hnonneg hm hpos (hturns n m) ?_
    rw [Heap.read_write_of_ne _ hagentNe]
    exact ((Heap.Keeps.refl _).alloc _).read (Heap.read_alloc_next _ _)

/-- What `setEvaluation` writes. -/
theorem setEvaluation_spec {evaluate : Bool} (hbase : base.Keeps h) (hfresh : base.next ≤ toolsAt)
    (hread : h.read toolsAt = some tools) (hok : setEvaluation evaluate toolsAt h = .ok h') :
    base.Keeps h' ∧ ∃ task items taskAt, tools.lookup "task" = some task ∧
      task.asDict h = .ok items ∧ h'.read toolsAt = some (tools.setItem "task" (.dict taskAt)) ∧
      h'.read taskAt = some (items.setItem "run_evaluation" (.bool evaluate)) ∧
      ∀ address, address ≠ toolsAt → ∀ cell, h.read address = some cell →
        h'.read address = some cell := by
  obtain ⟨tools', htools, hok⟩ := reading_bind_eq_ok.mp hok
  obtain ⟨_, ⟨⟩, hread'⟩ := asDict_eq_ok_iff.mp htools
  cases hread.symm.trans hread'
  obtain ⟨task, htask, hok⟩ := reading_bind_eq_ok.mp hok
  obtain ⟨items, hitems, hok⟩ := reading_bind_eq_ok.mp hok
  cases hok
  have hlt := Heap.lt_next_of_read hread
  refine ⟨(hbase.alloc _).write hfresh _, task, items, h.next, key_eq_ok.mp htask, hitems, ?_, ?_,
    fun address hne cell hcell => ?_⟩
  · rw [Heap.read_write_self]
    rw [Heap.next_alloc]
    exact Nat.lt_succ_of_lt hlt
  · rw [Heap.read_write_of_ne _ hlt.ne]
    exact Heap.read_alloc_next _ _
  · rw [Heap.read_write_of_ne _ hne.symm]
    exact ((Heap.Keeps.refl _).alloc _).read hcell

theorem limitTurns_spares
    (hresolve : ∀ h value items h', resolve h value = .ok (items, h') → h.Keeps h')
    (hraises : ∀ h value, Spares h (resolve h value)) (hbase : base.Keeps h) {progress : Value} :
    Spares base (limitTurns resolve algorithm progress toolsAt h) := by
  refine spares_reading hbase fun tools _ => spares_reading hbase fun task _ => ?_
  refine ((hraises h task).mono hbase).bind fun ⟨resolved, after⟩ hresolved => ?_
  have hafter : base.Keeps after := hbase.trans (hresolve _ _ _ _ hresolved)
  exact spares_reading hafter fun agent _ => spares_reading hafter fun step _ =>
    spares_reading hafter fun turns _ => spares_ok _

theorem setEvaluation_spares {evaluate : Bool} (hbase : base.Keeps h) :
    Spares base (setEvaluation evaluate toolsAt h) :=
  spares_reading hbase fun _ _ => spares_reading hbase fun _ _ =>
    spares_reading hbase fun _ _ => spares_ok _

/-- The progress of the framework, in memory. -/
structure Reports (h : Objects) (progress step : Value) (training : Bool) : Prop where
  step : ∀ h', h.Keeps h' → progressItem h' progress "step" = .ok step
  training : ∀ h', h.Keeps h' → progressItem h' progress "training" = .ok (.bool training)

theorem reports_of_read {progressAt : ℕ} {step : Value} {training : Bool}
    (hread : h.read progressAt = some [("step", step), ("training", .bool training)]) :
    Reports h (.dict progressAt) step training := by
  have hdict : ∀ h', h.Keeps h' → (Value.dict progressAt).asDict h' =
      .ok [("step", step), ("training", .bool training)] := fun h' hkeeps =>
    asDict_eq_ok_iff.mpr ⟨progressAt, rfl, hkeeps.read hread⟩
  exact ⟨fun h' hkeeps => progressItem_eq_ok_iff.mpr ⟨_, hdict h' hkeeps, rfl⟩,
    fun h' hkeeps => progressItem_eq_ok_iff.mpr ⟨_, hdict h' hkeeps, rfl⟩⟩

variable {runner : Runner K} {progress step : Value} {training : Bool}

theorem applyAlgorithm_spec
    (halgorithm : OPDAlgorithm.getAlgorithm runner = .ok algorithm)
    (hresolve : ∀ h value items h', resolve h value = .ok (items, h') → h.Keeps h')
    (hbase : base.Keeps h) (hfresh : base.next ≤ toolsAt) (hread : h.read toolsAt = some tools)
    (hreports : Reports base progress step training) {toolsKwargs kwargs : Value}
    (hok : applyAlgorithm resolve runner algorithm (some progress) toolsKwargs toolsAt h =
      .ok (kwargs, h')) :
    ¬ Limits runner training ∧ kwargs = toolsKwargs ∧ h' = h ∨
      Limits runner training ∧ kwargs = .dict toolsAt ∧ base.Keeps h' ∧
        ∃ task items agentAt taskAt, tools.lookup "task" = some task ∧
          h'.read toolsAt = some (tools.setItem "task" (.dict taskAt)) ∧
          h'.read taskAt = some items ∧
          Limited resolve runner step task base h' agentAt items ∧
          toolsAt ≠ agentAt ∧ toolsAt ≠ taskAt := by
  unfold applyAlgorithm at hok
  split_ifs at hok with hvanilla
  · cases hok
    exact .inl ⟨fun hlimits => hlimits.1 hvanilla, rfl, rfl⟩
  · dsimp only at hok
    rw [hreports.training h hbase, reading_ok, ok_bind] at hok
    cases training with
    | false =>
      cases hok
      exact .inl ⟨fun hlimits => Bool.false_ne_true hlimits.2, rfl, rfl⟩
    | true =>
      obtain ⟨h'', hlimit, hok⟩ := bind_eq_ok.mp hok
      cases hok
      have hturns := turns_of_getAlgorithm hvanilla halgorithm
      have hspec := limitTurns_spec hturns hresolve hbase hfresh hread
        (hreports.step base (Heap.Keeps.refl base)) hlimit
      exact .inr ⟨⟨hvanilla, rfl⟩, rfl, hspec⟩

theorem applyAlgorithm_spares
    (hresolve : ∀ h value items h', resolve h value = .ok (items, h') → h.Keeps h')
    (hraises : ∀ h value, Spares h (resolve h value)) (hbase : base.Keeps h)
    {progress : Option Value} {toolsKwargs : Value} :
    Spares base (applyAlgorithm resolve runner algorithm progress toolsKwargs toolsAt h) := by
  unfold applyAlgorithm
  split_ifs
  · exact spares_ok _
  · cases progress with
    | none => exact spares_error hbase
    | some progress =>
      refine spares_reading hbase fun training _ => ?_
      split_ifs
      · exact (limitTurns_spares hresolve hraises hbase).bind fun _ _ => spares_ok _
      · exact spares_ok _

omit [LinearOrder K] in
theorem applyEvaluation_spares (hbase : base.Keeps h) {progress : Option Value}
    {toolsKwargs : Value} :
    Spares base (applyEvaluation runner progress toolsKwargs toolsAt h) := by
  unfold applyEvaluation
  cases runner.runEvaluation with
  | none => exact spares_ok _
  | some runEvaluation =>
    have hset : ∀ evaluate, Spares base (setEvaluation evaluate toolsAt h >>= fun h =>
        (.ok (Value.dict toolsAt, h) : Outcome (Value × Objects))) := fun evaluate =>
      (setEvaluation_spares hbase).bind fun _ _ => spares_ok _
    cases progress with
    | none => exact hset runEvaluation
    | some progress => exact spares_reading hbase fun training _ => hset _

omit [LinearOrder K] in
theorem applyEvaluation_spec (hbase : base.Keeps h) (hfresh : base.next ≤ toolsAt)
    (hread : h.read toolsAt = some tools) (hreports : Reports base progress step training)
    {toolsKwargs kwargs : Value}
    (hok : applyEvaluation runner (some progress) toolsKwargs toolsAt h = .ok (kwargs, h')) :
    runner.runEvaluation = none ∧ kwargs = toolsKwargs ∧ h' = h ∨
      kwargs = .dict toolsAt ∧ base.Keeps h' ∧
        ∃ task items taskAt, tools.lookup "task" = some task ∧ task.asDict h = .ok items ∧
          h'.read toolsAt = some (tools.setItem "task" (.dict taskAt)) ∧
          h'.read taskAt = some (evaluated runner training items) ∧
          ∀ address, address ≠ toolsAt → ∀ cell, h.read address = some cell →
            h'.read address = some cell := by
  unfold applyEvaluation at hok
  cases heval : runner.runEvaluation with
  | none =>
    rw [heval] at hok
    cases hok
    exact .inl ⟨rfl, rfl, rfl⟩
  | some runEvaluation =>
    rw [heval] at hok
    dsimp only at hok
    rw [hreports.training h hbase, reading_ok, ok_bind, ok_bind] at hok
    obtain ⟨h'', hset, hok⟩ := bind_eq_ok.mp hok
    cases hok
    obtain ⟨hkeeps, task, items, taskAt, htask, hitems, htools, hcell, hframe⟩ :=
      setEvaluation_spec hbase hfresh hread hset
    refine .inr ⟨rfl, hkeeps, task, items, taskAt, htask, hitems, htools, ?_, hframe⟩
    rw [hcell, evaluated, heval]
    rfl

omit [LinearOrder K] in
/-- An object that a write leaves as it is. -/
theorem Limited.frame {task : Value} {items : Dict Value} {agentAt : ℕ}
    (h₀ : Limited resolve runner step task base h agentAt items)
    (hframe : ∀ cell, h.read agentAt = some cell → h'.read agentAt = some cell) :
    Limited resolve runner step task base h' agentAt items := by
  cases h₀ with
  | limit hbase hresolved hagent hn hnonneg hm hpos hturns hread =>
    exact .limit hbase hresolved hagent hn hnonneg hm hpos hturns (hframe _ hread)

/-- **One episode** writes to no object of its caller, and takes the limits of the progress that it
is given. -/
theorem runR2eTask_configures
    (hresolve : ∀ h value items h', resolve h value = .ok (items, h') → h.Keeps h')
    {address : ℕ} {kwargs : Value} (hread : h.read address = some tools)
    (hprogress : givenProgress tools = some progress) (hreports : Reports h progress step training)
    (hok : runR2eTask resolve runner (.dict address) h = .ok (kwargs, h')) :
    h.Keeps h' ∧ ∃ tools', kwargs.asDict h' = .ok tools' ∧
      Configured resolve runner h h' tools step training tools' := by
  obtain ⟨algorithm, halgorithm, hok⟩ := reading_bind_eq_ok.mp hok
  rw [dictOr_dict hread, reading_ok, ok_bind] at hok
  dsimp only at hok
  rw [hprogress] at hok
  obtain ⟨⟨kwargs₁, h₁⟩, happly, hok⟩ := bind_eq_ok.mp hok
  have hkept : h.Keeps (h.alloc tools) := (Heap.Keeps.refl h).alloc _
  have hcopy : (h.alloc tools).read h.next = some tools := Heap.read_alloc_next _ _
  rcases applyAlgorithm_spec halgorithm hresolve hkept le_rfl hcopy hreports happly with
    ⟨hlimits, rfl, rfl⟩ |
    ⟨hlimits, rfl, hkept₁, task, items, agentAt, taskAt, htask, htools, hitems, hlimited,
      hagentNe, htaskNe⟩
  · rcases applyEvaluation_spec hkept le_rfl hcopy hreports hok with
      ⟨hnone, rfl, rfl⟩ | ⟨rfl, hkept', task, items, taskAt, htask, hitems, htools, hcell, -⟩
    · exact ⟨hkept, tools, asDict_eq_ok_iff.mpr ⟨address, rfl, hkept.read hread⟩,
        .unchanged hlimits hnone⟩
    · exact ⟨hkept', _, asDict_eq_ok_iff.mpr ⟨_, rfl, htools⟩,
        .evaluated hlimits htask hkept hitems hcell⟩
  · rcases applyEvaluation_spec hkept₁ le_rfl htools hreports hok with
      ⟨hnone, rfl, rfl⟩ |
      ⟨rfl, hkept', task', items', taskAt', htask', hitems', htools', hcell, hframe⟩
    · refine ⟨hkept₁, _, asDict_eq_ok_iff.mpr ⟨_, rfl, htools⟩,
        .limited hlimits htask hlimited ?_⟩
      rw [hitems, evaluated, hnone]
    · -- the evaluation is set in the copy that has the limit
      rw [Dict.lookup_setItem, if_pos rfl] at htask'
      cases htask'
      obtain ⟨_, ⟨⟩, hread'⟩ := asDict_eq_ok_iff.mp hitems'
      cases hitems.symm.trans hread'
      rw [Dict.setItem_setItem] at htools'
      exact ⟨hkept', _, asDict_eq_ok_iff.mpr ⟨_, rfl, htools'⟩,
        .limited hlimits htask
          (hlimited.frame fun cell => hframe agentAt hagentNe.symm cell) hcell⟩

/-- An episode that raises has written to no object of its caller either. -/
theorem runR2eTask_spares
    (hresolve : ∀ h value items h', resolve h value = .ok (items, h') → h.Keeps h')
    (hraises : ∀ h value, Spares h (resolve h value)) {address : ℕ}
    (hread : h.read address = some tools) (hprogress : givenProgress tools = some progress)
    (hreports : Reports h progress step training) :
    Spares h (runR2eTask resolve runner (.dict address) h) := by
  refine spares_reading (Heap.Keeps.refl h) fun algorithm halgorithm =>
    spares_reading (Heap.Keeps.refl h) fun tools' htools => ?_
  cases (dictOr_dict hread).symm.trans htools
  dsimp only
  rw [hprogress]
  have hkept : h.Keeps (h.alloc tools) := (Heap.Keeps.refl h).alloc _
  refine (applyAlgorithm_spares hresolve hraises hkept).bind fun ⟨kwargs, h₁⟩ happly =>
    applyEvaluation_spares ?_
  rcases applyAlgorithm_spec halgorithm hresolve hkept le_rfl (Heap.read_alloc_next _ _) hreports
    happly with ⟨-, -, rfl⟩ | ⟨-, -, hkept₁, -⟩
  · exact hkept
  · exact hkept₁

omit [LinearOrder K] in
theorem Configured.mono {tools' : Dict Value}
    (hconfigured : Configured resolve runner base h tools step training tools')
    (hkeeps : h.Keeps h') : Configured resolve runner base h' tools step training tools' := by
  cases hconfigured with
  | unchanged hlimits hnone => exact .unchanged hlimits hnone
  | limited hlimits htask hlimited hread =>
    exact .limited hlimits htask (hlimited.frame fun _ => hkeeps.read)
      (hkeeps.read hread)
  | evaluated hlimits htask hbase hitems hread =>
    exact .evaluated hlimits htask hbase hitems (hkeeps.read hread)

end

/-! ## Many prompts -/

/-- What the agent library makes. -/
structure Upstream where
  /-- `TaskConfigResolver.resolve` -/
  resolve : Objects → Value → Outcome (Dict Value × Objects)
  /-- The `tools_kwargs` of an episode, of the fields of its prompt. -/
  handOver : Objects → ℕ → Outcome (ℕ × Objects)

/-- The library writes to no object that it has not made, raises or not, and hands the task and the
progress over. -/
structure Upstream.Sound (upstream : Upstream) : Prop where
  resolve_keeps : ∀ h value items h', upstream.resolve h value = .ok (items, h') → h.Keeps h'
  resolve_spares : ∀ h value, Spares h (upstream.resolve h value)
  handOver_keeps : ∀ h fieldsAt toolsAt h', upstream.handOver h fieldsAt = .ok (toolsAt, h') →
    h.Keeps h'
  handOver_spares : ∀ h fieldsAt, Spares h (upstream.handOver h fieldsAt)
  handOver_tools : ∀ h fieldsAt handedAt h' fields toolsAt tools,
    upstream.handOver h fieldsAt = .ok (handedAt, h') → h.read fieldsAt = some fields →
    fields.lookup "tools_kwargs" = some (.dict toolsAt) → h.read toolsAt = some tools →
    ∃ handed, h'.read handedAt = some handed ∧ handed.lookup "task" = tools.lookup "task" ∧
      handed.lookup "_opd_progress" = tools.lookup "_opd_progress"

/-- A call of `_run_task`. -/
structure TaskCall where
  prompt : ℕ
  toolsKwargs : Value

/-- The prompts of a worker, between two awaits. -/
structure Rollouts where
  objects : Objects
  /-- The fields of the prompts that have begun. -/
  prompts : ℕ → Option ℕ
  tasks : List TaskCall
  /-- The exceptions, each with the prompt that it is of. -/
  raised : List (ℕ × PyError)

namespace Rollouts

inductive Event where
  /-- `_run_prompt_rollouts` is called. -/
  | prompt (number sampleFields : ℕ) (globalSteps : Value) (partitionId : String)
  /-- The runner is called, for a session of a prompt. -/
  | episode (number : ℕ)
  /-- Other code makes an object. -/
  | make (cell : Dict Value)

def start (objects : Objects) : Rollouts := ⟨objects, fun _ => none, [], []⟩

/-- A prompt or an episode raises, and leaves some objects. -/
def fail (s : Rollouts) (number : ℕ) (left : PyError × Objects) : Rollouts :=
  { s with objects := left.2, raised := s.raised ++ [(number, left.1)] }

/-- The state after an event; `none` where it cannot happen. -/
def step (upstream : Upstream) (runner : Runner K) (s : Rollouts) : Event → Option Rollouts
  | .prompt number sampleFields globalSteps partitionId =>
    match s.prompts number with
    | some _ => none
    | none =>
      match runPromptRollouts s.objects sampleFields globalSteps partitionId with
      | .error left => some (s.fail number left)
      | .ok (fieldsAt, objects) =>
        some { s with objects, prompts := Function.update s.prompts number (some fieldsAt) }
  | .episode number =>
    match s.prompts number with
    | none => none
    | some fieldsAt =>
      match upstream.handOver s.objects fieldsAt with
      | .error left => some (s.fail number left)
      | .ok (toolsAt, objects) =>
        match runR2eTask upstream.resolve runner (.dict toolsAt) objects with
        | .error left => some (s.fail number left)
        | .ok (toolsKwargs, objects) =>
          some { s with objects, tasks := s.tasks ++ [⟨number, toolsKwargs⟩] }
  | .make cell => some { s with objects := s.objects.alloc cell }

/-- What a prompt was called with: the progress, and the fields and `tools_kwargs` of its sample,
which `sample` and all that keeps its objects have. -/
inductive Called (initial : Objects) (events : List Event) (number : ℕ) (sample : Objects) :
    (fields tools : Dict Value) → (step : Value) → (training : Bool) → Prop
  | call {sampleFields : ℕ} {globalSteps : Value} {partitionId : String}
      {fields tools : Dict Value} {before : Objects} :
    .prompt number sampleFields globalSteps partitionId ∈ events → initial.Keeps sample →
    sample.read sampleFields = some fields → sample.Keeps before →
    dictOr before (fields.lookup "tools_kwargs") = .ok tools →
    Called initial events number sample fields tools globalSteps.asPythonScalar
      (partitionId == "train")

/-- A prompt that has begun, with its copy of the fields. -/
inductive Begun (initial : Objects) (events : List Event) (h : Objects) (number fieldsAt : ℕ) : Prop
  | begin {toolsAt progressAt : ℕ} {sample : Objects} {fields tools : Dict Value} {step : Value}
      {training : Bool} :
    Called initial events number sample fields tools step training → sample.Keeps h →
    h.read fieldsAt = some (fields.setItem "tools_kwargs" (.dict toolsAt)) →
    h.read toolsAt = some (tools.setItem "_opd_progress" (.dict progressAt)) →
    h.read progressAt = some [("step", step), ("training", .bool training)] →
    Begun initial events h number fieldsAt

/-- A task that was called with the limits of its own prompt. -/
inductive Configures (upstream : Upstream) (runner : Runner K) (initial : Objects)
    (events : List Event) (h : Objects) (call : TaskCall) : Prop
  | of {sample base : Objects} {fields tools handed tools' : Dict Value} {step : Value}
      {training : Bool} :
    Called initial events call.prompt sample fields tools step training → sample.Keeps base →
    handed.lookup "task" = tools.lookup "task" → call.toolsKwargs.asDict h = .ok tools' →
    Configured upstream.resolve runner base h handed step training tools' →
    Configures upstream runner initial events h call

/-- **The invariant** of the events so far and the state. -/
structure Isolated (upstream : Upstream) (runner : Runner K) (initial : Objects)
    (events : List Event) (s : Rollouts) : Prop where
  kept : initial.Keeps s.objects
  begun : ∀ number fieldsAt, s.prompts number = some fieldsAt →
    Begun initial events s.objects number fieldsAt
  configured : ∀ call ∈ s.tasks, Configures upstream runner initial events s.objects call

section

variable {upstream : Upstream} {runner : Runner K} {initial h h' : Objects} {events : List Event}
  {number fieldsAt : ℕ}

theorem Called.snoc {sample : Objects} {fields tools : Dict Value} {step : Value} {training : Bool}
    (hcalled : Called initial events number sample fields tools step training) (event : Event) :
    Called initial (events ++ [event]) number sample fields tools step training := by
  cases hcalled with
  | call hmem hinitial hfields hsample htools =>
    exact .call (List.mem_append_left _ hmem) hinitial hfields hsample htools

theorem Begun.mono (hbegun : Begun initial events h number fieldsAt) (hkeeps : h.Keeps h')
    (event : Event) : Begun initial (events ++ [event]) h' number fieldsAt := by
  cases hbegun with
  | begin hcalled hsample hfields htools hprogress =>
    exact .begin (hcalled.snoc event) (hsample.trans hkeeps) (hkeeps.read hfields)
      (hkeeps.read htools) (hkeeps.read hprogress)

omit [LinearOrder K] in
theorem Configures.mono {call : TaskCall}
    (hcall : Configures upstream runner initial events h call) (hkeeps : h.Keeps h')
    (event : Event) : Configures upstream runner initial (events ++ [event]) h' call := by
  cases hcall with
  | of hcalled hsample htask htools hconfigured =>
    obtain ⟨address, hvalue, hread⟩ := asDict_eq_ok_iff.mp htools
    exact .of (hcalled.snoc event) hsample htask
      (asDict_eq_ok_iff.mpr ⟨address, hvalue, hkeeps.read hread⟩) (hconfigured.mono hkeeps)

/-- `_run_prompt_rollouts` writes to its own copies. -/
theorem runPromptRollouts_begins {sampleFields : ℕ} {globalSteps : Value} {partitionId : String}
    (hinitial : initial.Keeps h)
    (hmem : .prompt number sampleFields globalSteps partitionId ∈ events)
    (hok : runPromptRollouts h sampleFields globalSteps partitionId = .ok (fieldsAt, h')) :
    h.Keeps h' ∧ Begun initial events h' number fieldsAt := by
  obtain ⟨fields, hfields, hok⟩ := reading_bind_eq_ok.mp hok
  obtain ⟨_, ⟨⟩, hread⟩ := asDict_eq_ok_iff.mp hfields
  obtain ⟨tools, htools, hok⟩ := reading_bind_eq_ok.mp hok
  cases hok
  have hcopy : h.Keeps (h.alloc fields) := (Heap.Keeps.refl h).alloc _
  have hle : h.next ≤ (h.alloc fields).next := hcopy.next_le
  have hkeeps := (((hcopy.alloc tools).alloc [("step", globalSteps.asPythonScalar),
    ("training", .bool (partitionId == "train"))]).write hle (tools.setItem "_opd_progress"
      (.dict ((h.alloc fields).alloc tools).next))).write le_rfl
    (fields.setItem "tools_kwargs" (.dict (h.alloc fields).next))
  have hnext : (h.alloc fields).next = h.next + 1 := Heap.next_alloc _ _
  have hnext' : ((h.alloc fields).alloc tools).next = h.next + 1 + 1 := by
    rw [Heap.next_alloc, hnext]
  refine ⟨hkeeps, .begin (.call hmem hinitial hread hcopy htools) hkeeps
    (?_ : Heap.read _ _ = some (fields.setItem "tools_kwargs" (.dict (h.alloc fields).next)))
    (?_ : Heap.read _ _ =
      some (tools.setItem "_opd_progress" (.dict ((h.alloc fields).alloc tools).next))) ?_⟩
  · refine Heap.read_write_self ?_ _
    simp only [Heap.next_write, Heap.next_alloc]
    omega
  · rw [Heap.read_write_of_ne _ (by omega)]
    refine Heap.read_write_self ?_ _
    simp only [Heap.next_alloc]
    omega
  · rw [Heap.read_write_of_ne _ (by omega), Heap.read_write_of_ne _ (by omega)]
    exact Heap.read_alloc_next _ _

theorem runPromptRollouts_spares {sampleFields : ℕ} {globalSteps : Value} {partitionId : String} :
    Spares h (runPromptRollouts h sampleFields globalSteps partitionId) :=
  spares_reading (Heap.Keeps.refl h) fun _ _ =>
    spares_reading ((Heap.Keeps.refl h).alloc _) fun _ _ => spares_ok _

/-- What the library hands over of a prompt that has begun. -/
theorem Begun.handed (hsound : upstream.Sound) (hbegun : Begun initial events h number fieldsAt)
    {toolsAt : ℕ} {objects : Objects}
    (hhandOver : upstream.handOver h fieldsAt = .ok (toolsAt, objects)) :
    h.Keeps objects ∧ ∃ sample fields tools handed progress step training,
      Called initial events number sample fields tools step training ∧ sample.Keeps objects ∧
      objects.read toolsAt = some handed ∧ handed.lookup "task" = tools.lookup "task" ∧
      givenProgress handed = some progress ∧ Reports objects progress step training := by
  cases hbegun with
  | begin hcalled hsample hfields htools hprogress =>
    have hkeeps := hsound.handOver_keeps _ _ _ _ hhandOver
    obtain ⟨handed, hhanded, htask, hgiven⟩ := hsound.handOver_tools _ _ _ _ _ _ _ hhandOver
      hfields (by rw [Dict.lookup_setItem, if_pos rfl]) htools
    rw [Dict.lookup_setItem, if_neg (by decide)] at htask
    rw [Dict.lookup_setItem, if_pos rfl] at hgiven
    exact ⟨hkeeps, _, _, _, handed, _, _, _, hcalled, hsample.trans hkeeps, hhanded, htask,
      by rw [givenProgress, hgiven], reports_of_read (hkeeps.read hprogress)⟩

/-- A runner that is called for a session of a prompt. -/
theorem episode_configures (hsound : upstream.Sound)
    (hbegun : Begun initial events h number fieldsAt) {toolsAt : ℕ} {objects : Objects}
    {kwargs : Value} (hhandOver : upstream.handOver h fieldsAt = .ok (toolsAt, objects))
    (hok : runR2eTask upstream.resolve runner (.dict toolsAt) objects = .ok (kwargs, h')) :
    h.Keeps h' ∧ Configures upstream runner initial events h' ⟨number, kwargs⟩ := by
  obtain ⟨hkeeps, sample, fields, tools, handed, progress, step, training, hcalled, hsample,
    hhanded, htask, hprogress, hreports⟩ := hbegun.handed hsound hhandOver
  obtain ⟨hkeeps', tools', htools', hconfigured⟩ :=
    runR2eTask_configures hsound.resolve_keeps hhanded hprogress hreports hok
  exact ⟨hkeeps.trans hkeeps', .of hcalled hsample htask htools' hconfigured⟩

theorem episode_spares (hsound : upstream.Sound) (hbegun : Begun initial events h number fieldsAt)
    {toolsAt : ℕ} {objects : Objects}
    (hhandOver : upstream.handOver h fieldsAt = .ok (toolsAt, objects)) :
    Spares h (runR2eTask upstream.resolve runner (.dict toolsAt) objects) := by
  obtain ⟨hkeeps, sample, fields, tools, handed, progress, step, training, hcalled, hsample,
    hhanded, htask, hprogress, hreports⟩ := hbegun.handed hsound hhandOver
  exact (runR2eTask_spares hsound.resolve_keeps hsound.resolve_spares hhanded hprogress
    hreports).mono hkeeps

theorem Isolated.step (hsound : upstream.Sound) {s t : Rollouts} {event : Event}
    (hs : Isolated upstream runner initial events s)
    (hstep : s.step upstream runner event = some t) :
    Isolated upstream runner initial (events ++ [event]) t := by
  -- the objects of the state are kept, so that only what is new has to be looked at
  have hmono : ∀ {objects : Objects}, s.objects.Keeps objects →
      (∀ other fieldsAt, s.prompts other = some fieldsAt →
        Begun initial (events ++ [event]) objects other fieldsAt) ∧
      ∀ call ∈ s.tasks, Configures upstream runner initial (events ++ [event]) objects call :=
    fun hkeeps => ⟨fun other fieldsAt hother => (hs.begun other fieldsAt hother).mono hkeeps event,
      fun call hmem => (hs.configured call hmem).mono hkeeps event⟩
  have hfail : ∀ number left, s.objects.Keeps left.2 →
      Isolated upstream runner initial (events ++ [event]) (s.fail number left) :=
    fun number left hkeeps => by
      obtain ⟨hothers, hcalls⟩ := hmono hkeeps
      exact ⟨hs.kept.trans hkeeps, hothers, hcalls⟩
  cases event with
  | prompt number sampleFields globalSteps partitionId =>
    rw [Rollouts.step] at hstep
    split at hstep
    · cases hstep
    split at hstep
    · rename_i left hraised
      cases hstep
      exact hfail number left (runPromptRollouts_spares _ _ hraised)
    · rename_i fieldsAt objects hok
      cases hstep
      have hmem : .prompt number sampleFields globalSteps partitionId ∈
          events ++ [.prompt number sampleFields globalSteps partitionId] :=
        List.mem_append_right _ List.mem_cons_self
      obtain ⟨hkeeps, hbegun⟩ := runPromptRollouts_begins hs.kept hmem hok
      obtain ⟨hothers, hcalls⟩ := hmono hkeeps
      refine ⟨hs.kept.trans hkeeps, fun other fieldsAt' hother => ?_, hcalls⟩
      have hupdate : Function.update s.prompts number (some fieldsAt) other = some fieldsAt' :=
        hother
      rcases eq_or_ne other number with rfl | hne
      · rw [Function.update_self] at hupdate
        cases hupdate
        exact hbegun
      · rw [Function.update_of_ne hne] at hupdate
        exact hothers other fieldsAt' hupdate
  | episode number =>
    rw [Rollouts.step] at hstep
    split at hstep
    · cases hstep
    · rename_i fieldsAt hprompt
      split at hstep
      · rename_i left hraised
        cases hstep
        exact hfail number left (hsound.handOver_spares _ _ _ _ hraised)
      · rename_i toolsAt objects hhandOver
        split at hstep
        · rename_i left hraised
          cases hstep
          exact hfail number left
            (episode_spares hsound (hs.begun number fieldsAt hprompt) hhandOver _ _ hraised)
        · rename_i toolsKwargs objects' hok
          cases hstep
          obtain ⟨hkeeps, hcall⟩ :=
            episode_configures hsound (hs.begun number fieldsAt hprompt) hhandOver hok
          obtain ⟨hothers, hcalls⟩ := hmono hkeeps
          refine ⟨hs.kept.trans hkeeps, hothers, fun call hmem => ?_⟩
          rcases List.mem_append.mp hmem with hmem | hmem
          · exact hcalls call hmem
          · cases List.mem_singleton.mp hmem
            exact hcall.mono (Heap.Keeps.refl _) (.episode number)
  | make cell =>
    cases hstep
    have hkeeps : s.objects.Keeps (s.objects.alloc cell) := (Heap.Keeps.refl _).alloc _
    obtain ⟨hothers, hcalls⟩ := hmono hkeeps
    exact ⟨hs.kept.trans hkeeps, hothers, hcalls⟩

end

/-- A library that hands copies over. -/
def copying : Upstream where
  resolve h value := do
    let items ← reading h (value.asDict h)
    return (items, h)
  handOver h fieldsAt := do
    let fields ← reading h ((Value.dict fieldsAt).asDict h)
    let value ← reading h (key "tools_kwargs" (fields.lookup "tools_kwargs"))
    let tools ← reading h (value.asDict h)
    return (h.next, h.alloc (tools.setItem "_trace_identity" .none))

end Rollouts

end OpdFramework
