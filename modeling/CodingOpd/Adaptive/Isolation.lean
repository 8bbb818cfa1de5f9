import CodingOpd.Adaptive.Gateway

/-!
# Isolation of sessions

Sessions share the actor's dictionary, its session objects and the inherited gateway. They do not
interfere, since no two of them reach the same object: the one that the backend holds for a session,
and those that its calls in flight have looked up, are its own, whatever has been removed or made
anew in between.

## Main definitions

* `Actor.Refers`: a session can reach a session object
* `Actor.Separate`: the invariant, no object is reached by two sessions
* `Actor.Sees`: the actor, as one of its sessions sees it
* `IsAdaptive`: the session is adaptive after the events so far

## Main results

* `Actor.sees_of_run`: what a session sees is the run of its own events
* `Actor.isolated_of_run`: sessions do not interfere, and leave nothing behind
-/

open Python Transition

namespace Adaptive

/-! ## Which sessions are adaptive -/

theorem Event.CreatesAdaptive.not_ends {K P : Type} {event : Event K P} {id id' : String}
    (h : event.CreatesAdaptive id) : ¬ event.Ends id' := by
  obtain ⟨metadata, params, adaptive, address, brought, rfl⟩ := h
  simp [Event.Ends]

variable {K E P G ν : Type} [Field K] [LinearOrder K]

section

variable {servers : Servers K E P} {inherited : InheritedGateway K E P G} {gateway : G}
  {id : String} {event : Event K P} {events : List (Event K P)} {call : Call}

/-- The event is an adaptive `create_session`, which returns behind the events before it. -/
def ReturnsAdaptive (servers : Servers K E P) (inherited : InheritedGateway K E P G) (gateway : G)
    (id : String) (before : List (Event K P)) (event : Event K P) : Prop :=
  event.CreatesAdaptive id ∧ ∃ s t : Actor K E P G, ∃ handle,
    run (Actor.step servers inherited) (.start gateway) before = some s ∧
      s.step servers inherited event = some t ∧ t.log = s.log ++ [(id, .created (.ok handle))]

/-- The session is adaptive after the events: it has been created so, and not ended since. -/
def IsAdaptive (servers : Servers K E P) (inherited : InheritedGateway K E P G) (gateway : G)
    (id : String) (events : List (Event K P)) : Prop :=
  ∃ before create after, events = before ++ create :: after ∧
    ReturnsAdaptive servers inherited gateway id before create ∧ ∀ event ∈ after, ¬ event.Ends id

/-- The call was begun while its session was adaptive. -/
def BegunAdaptive (servers : Servers K E P) (inherited : InheritedGateway K E P G) (gateway : G)
    (call : Call) (events : List (Event K P)) : Prop :=
  ∃ before brought after, events = before ++ .generate call brought :: after ∧
    IsAdaptive servers inherited gateway call.sessionId before

theorem IsAdaptive.snoc (h : IsAdaptive servers inherited gateway id events)
    (hends : ¬ event.Ends id) : IsAdaptive servers inherited gateway id (events ++ [event]) := by
  obtain ⟨before, create, after, rfl, hreturns, hafter⟩ := h
  refine ⟨before, create, after ++ [event], by simp, hreturns, ?_⟩
  intro later hmem
  rcases List.mem_append.mp hmem with hmem | hmem
  · exact hafter later hmem
  · cases List.mem_singleton.mp hmem
    exact hends

theorem BegunAdaptive.snoc (h : BegunAdaptive servers inherited gateway call events)
    (event : Event K P) : BegunAdaptive servers inherited gateway call (events ++ [event]) := by
  obtain ⟨before, brought, after, rfl, hadaptive⟩ := h
  exact ⟨before, brought, after ++ [event], by simp, hadaptive⟩

/-- A session that has been ended, and not created again, is not adaptive. -/
theorem not_isAdaptive {before after : List (Event K P)} {last : Event K P} (hends : last.Ends id)
    (hafter : ∀ earlier create later, after = earlier ++ create :: later →
      ¬ ReturnsAdaptive servers inherited gateway id (before ++ last :: earlier) create) :
    ¬ IsAdaptive servers inherited gateway id (before ++ last :: after) := by
  rintro ⟨earlier, create, later, hsplit, hreturns, hlater⟩
  rcases List.append_eq_append_iff.mp hsplit with ⟨between, rfl, hrest⟩ | ⟨between, rfl, hrest⟩
  · cases between with
    | nil =>
      cases hrest
      exact hreturns.1.not_ends hends
    | cons first between =>
      cases hrest
      exact hafter between create later rfl hreturns
  · cases between with
    | nil =>
      cases hrest
      exact hreturns.1.not_ends hends
    | cons first between =>
      cases hrest
      exact hlater last (List.mem_append_right _ (List.mem_cons_self ..)) hends

end

section

variable {α β : Type} [DecidableEq α] {f g : Finmap fun _ : α => β} {k k' : α}

theorem lookup_insert_congr (b : β) (h : k' ≠ k → f.lookup k' = g.lookup k') :
    (f.insert k b).lookup k' = (g.insert k b).lookup k' := by
  by_cases hk : k' = k
  · subst hk
    rw [Finmap.lookup_insert, Finmap.lookup_insert]
  · rw [Finmap.lookup_insert_of_ne _ hk, Finmap.lookup_insert_of_ne _ hk, h hk]

theorem lookup_erase_congr (h : f.lookup k' = g.lookup k') :
    (f.erase k).lookup k' = (g.erase k).lookup k' := by
  by_cases hk : k' = k
  · subst hk
    rw [Finmap.lookup_erase, Finmap.lookup_erase]
  · rw [Finmap.lookup_erase_ne hk, Finmap.lookup_erase_ne hk, h]

end

namespace Actor

/-! ## Whose object is whose -/

/-- A session can reach a session object: the backend holds it, or a call has looked it up. -/
def Refers (s : Actor K E P G) (id : String) (address : ℕ) : Prop :=
  s.sessions.lookup id = some address ∨
    ∃ call flight, s.calls.lookup call = some flight ∧ call.sessionId = id ∧
      flight.state = some address

/-- No object is reached by two sessions. -/
structure Separate (s : Actor K E P G) : Prop where
  live : ∀ id address, s.Refers id address → address ∈ s.objects
  apart : ∀ id id' address, s.Refers id address → s.Refers id' address → id = id'

section

variable {s t : Actor K E P G} {id : String} {address : ℕ} {session : AdaptiveSession K}
  {call : Call} {flight : InFlight K E P}

theorem of_refers_pop {id' : String} (h : (s.pop id).Refers id' address) :
    s.Refers id' address := by
  rcases h with h | h
  · left
    by_cases hid : id' = id
    · subst hid
      rw [pop, Finmap.lookup_erase] at h
      cases h
    · rwa [pop, Finmap.lookup_erase_ne hid] at h
  · exact Or.inr h

theorem of_refers_forget (h : (s.forget call).Refers id address) : s.Refers id address := by
  rcases h with h | ⟨other, flight, hlookup, hid, hstate⟩
  · exact Or.inl h
  · by_cases hcall : other = call
    · subst hcall
      rw [forget, Finmap.lookup_erase] at hlookup
      cases hlookup
    · rw [forget, Finmap.lookup_erase_ne hcall] at hlookup
      exact Or.inr ⟨other, flight, hlookup, hid, hstate⟩

theorem of_refers_await
    (hflight : ∀ address, flight.state = some address → s.Refers call.sessionId address)
    (h : (s.await call flight).Refers id address) : s.Refers id address := by
  rcases h with h | ⟨other, found, hlookup, rfl, hstate⟩
  · exact Or.inl h
  · by_cases hcall : other = call
    · subst hcall
      rw [await, Finmap.lookup_insert] at hlookup
      cases hlookup
      exact hflight address hstate
    · rw [await, Finmap.lookup_insert_of_ne _ hcall] at hlookup
      exact Or.inr ⟨other, found, hlookup, rfl, hstate⟩

theorem of_refers_store {id' : String} {address' : ℕ}
    (h : (s.store id address session).Refers id' address') :
    s.Refers id' address' ∨ id' = id ∧ address' = address := by
  rcases h with h | h
  · by_cases hid : id' = id
    · subst hid
      rw [store, Finmap.lookup_insert] at h
      cases h
      exact Or.inr ⟨rfl, rfl⟩
    · rw [store, Finmap.lookup_insert_of_ne _ hid] at h
      exact Or.inl (Or.inl h)
  · exact Or.inl (Or.inr h)

namespace Separate

theorem mono (h : s.Separate) (hrefers : ∀ id address, t.Refers id address → s.Refers id address)
    (hobjects : ∀ address ∈ s.objects, address ∈ t.objects) : t.Separate where
  live id address ht := hobjects address (h.live id address (hrefers id address ht))
  apart id id' address ht ht' := h.apart id id' address (hrefers _ _ ht) (hrefers _ _ ht')

/-- A new object is reached by its own session alone. -/
theorem store (h : s.Separate) (hfresh : address ∉ s.objects) :
    (s.store id address session).Separate := by
  refine ⟨fun id' address' hrefers => ?_, fun id₁ id₂ address' h₁ h₂ => ?_⟩
  · rcases of_refers_store hrefers with hold | ⟨-, rfl⟩
    · exact Finmap.mem_insert.mpr (Or.inr (h.live _ _ hold))
    · exact Finmap.mem_insert.mpr (Or.inl rfl)
  · rcases of_refers_store h₁ with hold₁ | ⟨rfl, rfl⟩
    · rcases of_refers_store h₂ with hold₂ | ⟨rfl, rfl⟩
      · exact h.apart _ _ _ hold₁ hold₂
      · exact absurd (h.live _ _ hold₁) hfresh
    · -- what was reached before is not new
      rcases of_refers_store h₂ with hold₂ | ⟨rfl, -⟩
      · exact absurd (h.live _ _ hold₂) hfresh
      · rfl

theorem onGateway (h : s.Separate) (gateway : G) : (s.onGateway gateway).Separate :=
  ⟨h.live, h.apart⟩

theorem observe (h : s.Separate) (id : String) (observation : Observation K E P) :
    (s.observe id observation).Separate :=
  ⟨h.live, h.apart⟩

theorem pop (h : s.Separate) : (s.pop id).Separate := by
  apply h.mono
  · exact fun _ _ => of_refers_pop
  · exact fun _ hmem => hmem

theorem forget (h : s.Separate) : (s.forget call).Separate := by
  apply h.mono
  · exact fun _ _ => of_refers_forget
  · exact fun _ hmem => hmem

theorem await (h : s.Separate)
    (hflight : ∀ address, flight.state = some address → s.Refers call.sessionId address) :
    (s.await call flight).Separate := by
  apply h.mono
  · exact fun _ _ => of_refers_await hflight
  · exact fun _ hmem => hmem

theorem mutate (h : s.Separate) : (s.mutate address session).Separate := by
  apply h.mono
  · exact fun _ _ hrefers => hrefers
  · exact fun _ hmem => Finmap.mem_insert.mpr (Or.inr hmem)

theorem finish (h : s.Separate) (inherited : InheritedGateway K E P G) (answer : Answer K E) :
    (s.finish inherited call answer).Separate :=
  (h.forget.onGateway _).observe _ _

/-- Every step keeps the sessions' objects apart. -/
theorem step {servers : Servers K E P} {inherited : InheritedGateway K E P G} {event : Event K P}
    (h : s.Separate) (hstep : s.step servers inherited event = some t) : t.Separate := by
  cases move_of_step hstep with
  | created => exact (h.onGateway _).observe _ _
  | rejected => exact (h.onGateway _).observe _ _
  | stored _ _ hfresh =>
    apply observe
    exact (h.onGateway _).store hfresh
  | called =>
    apply observe
    apply (h.onGateway _).await
    exact fun _ hstate => Or.inl hstate
  | answered => exact h.finish _ _
  | scoring hcall =>
    -- the call keeps the address, whatever the backend holds by now
    apply observe
    apply h.await
    exact fun _ hstate => Or.inr ⟨_, _, hcall, rfl, hstate⟩
  | turn => exact (h.mutate.observe _ _).finish _ _
  | finalized => exact ((h.onGateway _).pop).observe _ _
  | aborted => exact ((h.onGateway _).pop).observe _ _
  | other => exact h.onGateway _

end Separate

end

/-! ## What a session sees -/

/-- The actor `s`, as the session sees it, is the actor `u` that serves the session alone. -/
structure Sees (view : String → G → ν) (id : String) (s u : Actor K E P G) : Prop where
  gateway : view id s.gateway = view id u.gateway
  sessions : s.sessions.lookup id = u.sessions.lookup id
  calls : ∀ call, call.sessionId = id → s.calls.lookup call = u.calls.lookup call
  objects : ∀ address, s.Refers id address → s.objects.lookup address = u.objects.lookup address
  fresh : ∀ address ∈ u.objects, address ∈ s.objects
  log : s.log.filter (·.1 = id) = u.log

section

variable {view : String → G → ν} {id : String} {s u : Actor K E P G} {address : ℕ}
  {session : AdaptiveSession K} {call : Call} {flight : InFlight K E P}

namespace Sees

/-! ### Another session's part of a step -/

theorem onGateway_other (h : Sees view id s u) {α : Type} {other : String} {op : G → α × G}
    (hop : Confined view other op) (hne : other ≠ id) :
    Sees view id (s.onGateway (op s.gateway).2) u :=
  { h with gateway := (hop.frame s.gateway id hne.symm).trans h.gateway }

theorem observe_other (h : Sees view id s u) {other : String} (hne : other ≠ id)
    (observation : Observation K E P) : Sees view id (s.observe other observation) u := by
  refine { h with log := ?_ }
  show (s.log ++ [(other, observation)]).filter (·.1 = id) = u.log
  rw [List.filter_append, List.filter_cons_of_neg (by simpa using hne), List.filter_nil,
    List.append_nil]
  exact h.log

theorem store_other (h : Sees view id s u) (hseparate : s.Separate) {other : String}
    (hne : other ≠ id) (hfresh : address ∉ s.objects) :
    Sees view id (s.store other address session) u := by
  refine ⟨h.gateway, ?_, h.calls, fun address' hrefers => ?_, fun address' hmem => ?_, h.log⟩
  · exact (Finmap.lookup_insert_of_ne _ hne.symm).trans h.sessions
  · rcases of_refers_store hrefers with hold | ⟨hid, -⟩
    · have haddress : address' ≠ address := by
        rintro rfl
        exact hfresh (hseparate.live _ _ hold)
      exact (Finmap.lookup_insert_of_ne _ haddress).trans (h.objects _ hold)
    · exact absurd hid.symm hne
  · exact Finmap.mem_insert.mpr (Or.inr (h.fresh _ hmem))

theorem pop_other (h : Sees view id s u) {other : String} (hne : other ≠ id) :
    Sees view id (s.pop other) u := by
  refine { h with sessions := ?_, objects := fun address hrefers => ?_ }
  · exact (Finmap.lookup_erase_ne hne.symm).trans h.sessions
  · exact h.objects address (of_refers_pop hrefers)

theorem await_other (h : Sees view id s u) (hne : call.sessionId ≠ id) :
    Sees view id (s.await call flight) u := by
  have hcalls : ∀ other : Call, other.sessionId = id →
      (s.await call flight).calls.lookup other = s.calls.lookup other := by
    rintro other rfl
    apply Finmap.lookup_insert_of_ne
    rintro rfl
    exact hne rfl
  refine { h with calls := fun other hid => ?_, objects := fun address hrefers => ?_ }
  · exact (hcalls other hid).trans (h.calls other hid)
  · rcases hrefers with hsession | ⟨other, found, hlookup, hid, hstate⟩
    · exact h.objects address (Or.inl hsession)
    · rw [hcalls other hid] at hlookup
      exact h.objects address (Or.inr ⟨other, found, hlookup, hid, hstate⟩)

theorem forget_other (h : Sees view id s u) (hne : call.sessionId ≠ id) :
    Sees view id (s.forget call) u := by
  refine { h with calls := fun other hid => ?_, objects := fun address hrefers => ?_ }
  · have hcall : other ≠ call := by
      rintro rfl
      exact hne hid
    exact (Finmap.lookup_erase_ne hcall).trans (h.calls other hid)
  · exact h.objects address (of_refers_forget hrefers)

/-- An object that another session changes is out of reach. -/
theorem mutate_other (h : Sees view id s u) (hseparate : s.Separate) {other : String}
    (hne : other ≠ id) (hrefers : s.Refers other address) :
    Sees view id (s.mutate address session) u := by
  refine { h with objects := fun address' hid => ?_, fresh := fun address' hmem => ?_ }
  · have haddress : address' ≠ address := by
      rintro rfl
      exact hne (hseparate.apart _ _ _ hrefers hid)
    exact (Finmap.lookup_insert_of_ne _ haddress).trans (h.objects _ hid)
  · exact Finmap.mem_insert.mpr (Or.inr (h.fresh _ hmem))

/-! ### The session's own part -/

theorem onGateway (h : Sees view id s u) {gateway gateway' : G}
    (heq : view id gateway = view id gateway') :
    Sees view id (s.onGateway gateway) (u.onGateway gateway') :=
  { h with gateway := heq }

theorem observe (h : Sees view id s u) (observation : Observation K E P) :
    Sees view id (s.observe id observation) (u.observe id observation) := by
  refine { h with log := ?_ }
  show (s.log ++ [(id, observation)]).filter (·.1 = id) = u.log ++ [(id, observation)]
  rw [List.filter_append, List.filter_cons_of_pos (by simp), List.filter_nil, h.log]

theorem store (h : Sees view id s u) : Sees view id (s.store id address session)
    (u.store id address session) := by
  refine ⟨h.gateway, ?_, h.calls, fun address' hrefers => ?_, fun address' hmem => ?_, h.log⟩
  · exact lookup_insert_congr _ fun _ => h.sessions
  · apply lookup_insert_congr
    intro haddress
    rcases of_refers_store hrefers with hold | ⟨-, heq⟩
    · exact h.objects _ hold
    · exact absurd heq haddress
  · rcases Finmap.mem_insert.mp hmem with rfl | hmem
    · exact Finmap.mem_insert.mpr (Or.inl rfl)
    · exact Finmap.mem_insert.mpr (Or.inr (h.fresh _ hmem))

theorem pop (h : Sees view id s u) : Sees view id (s.pop id) (u.pop id) := by
  refine { h with sessions := ?_, objects := fun address hrefers => ?_ }
  · exact lookup_erase_congr h.sessions
  · exact h.objects address (of_refers_pop hrefers)

theorem await (h : Sees view id s u) (hid : call.sessionId = id)
    (hflight : ∀ address, flight.state = some address → s.Refers id address) :
    Sees view id (s.await call flight) (u.await call flight) := by
  subst hid
  refine { h with calls := fun other hid => ?_, objects := fun address hrefers => ?_ }
  · exact lookup_insert_congr _ fun _ => h.calls other hid
  · exact h.objects address (of_refers_await hflight hrefers)

theorem forget (h : Sees view id s u) : Sees view id (s.forget call) (u.forget call) := by
  refine { h with calls := fun other hid => ?_, objects := fun address hrefers => ?_ }
  · exact lookup_erase_congr (h.calls other hid)
  · exact h.objects address (of_refers_forget hrefers)

theorem mutate (h : Sees view id s u) :
    Sees view id (s.mutate address session) (u.mutate address session) := by
  refine { h with objects := fun address' hrefers => ?_, fresh := fun address' hmem => ?_ }
  · exact lookup_insert_congr _ fun _ => h.objects _ hrefers
  · rcases Finmap.mem_insert.mp hmem with rfl | hmem
    · exact Finmap.mem_insert.mpr (Or.inl rfl)
    · exact Finmap.mem_insert.mpr (Or.inr (h.fresh _ hmem))

/-! ### Whole steps -/

variable {servers : Servers K E P} {inherited : InheritedGateway K E P G} {event : Event K P}
  {t : Actor K E P G}

theorem finish_other (h : Sees view id s u) (hapart : inherited.KeepsApart view)
    (hne : call.sessionId ≠ id) (answer : Answer K E) :
    Sees view id (s.finish inherited call answer) u := by
  apply observe_other _ hne
  exact (h.forget_other hne).onGateway_other (hapart.answer call.sessionId answer) hne

/-- An event of another session is not seen. -/
theorem step_other (h : Sees view id s u) (hseparate : s.Separate)
    (hapart : inherited.KeepsApart view) (hne : event.sessionId ≠ id)
    (hstep : s.step servers inherited event = some t) : Sees view id t u := by
  cases move_of_step hstep with
  | created =>
    apply observe_other _ hne
    exact h.onGateway_other (hapart.createSession ..) hne
  | rejected =>
    apply observe_other _ hne
    exact h.onGateway_other (hapart.createSession ..) hne
  | @stored other metadata params address brought handle algorithm adaptive _ _ hfresh =>
    apply observe_other _ hne
    have hview := h.onGateway_other (hapart.createSession other metadata params brought) hne
    exact hview.store_other (hseparate.onGateway _) hne hfresh
  | called =>
    apply observe_other _ hne
    apply await_other _ hne
    exact h.onGateway_other (hapart.request ..) hne
  | answered hanswers =>
    rw [hanswers.sessionId_eq] at hne
    exact h.finish_other hapart hne _
  | scoring =>
    apply observe_other _ hne
    exact h.await_other hne
  | turn hcall =>
    -- the call has looked the object up, so this session cannot reach it
    apply finish_other _ hapart hne
    apply observe_other _ hne
    exact h.mutate_other hseparate hne (Or.inr ⟨_, _, hcall, rfl, rfl⟩)
  | finalized =>
    apply observe_other _ hne
    apply pop_other _ hne
    exact h.onGateway_other (hapart.finalizeSession ..) hne
  | aborted =>
    apply observe_other _ hne
    apply pop_other _ hne
    exact h.onGateway_other (hapart.abortSession ..) hne
  | other => exact h.onGateway_other (hapart.other ..) hne

theorem finish (h : Sees view id s u) (hapart : inherited.KeepsApart view)
    (hid : call.sessionId = id) (answer : Answer K E) :
    Sees view id (s.finish inherited call answer) (u.finish inherited call answer) := by
  subst hid
  apply observe
  apply h.forget.onGateway
  exact ((hapart.answer call.sessionId answer).reads _ _ h.gateway).2

/-- A call ends for the session alone as it ends for all. -/
theorem answers (h : Sees view id s u) (hid : event.sessionId = id) {answer : Answer K E}
    (hanswers : Answers servers s event call answer) : Answers servers u event call answer := by
  have hcall : s.calls.lookup call = u.calls.lookup call :=
    h.calls call (hanswers.sessionId_eq.symm.trans hid)
  cases hanswers with
  | studentRaises hlookup herror => exact .studentRaises (hcall ▸ hlookup) herror
  | ordinary hlookup houtput => exact .ordinary (hcall ▸ hlookup) houtput
  | empty hlookup houtput hempty => exact .empty (hcall ▸ hlookup) houtput hempty
  | keyRaises hlookup houtput hnonempty hsession herror =>
    have hobject := h.objects _ (Or.inr ⟨_, _, hlookup, hid, rfl⟩)
    exact .keyRaises (hcall ▸ hlookup) houtput hnonempty (hobject ▸ hsession) herror
  | teacherRaises hlookup herror => exact .teacherRaises (hcall ▸ hlookup) herror
  | cancelled hlookup => exact .cancelled (hcall ▸ hlookup)

theorem state_eq (h : Sees view id s u) : s.state id = u.state id := by
  unfold state
  rw [← h.sessions]
  cases hsession : s.sessions.lookup id with
  | none => rfl
  | some address => exact h.objects address (Or.inl hsession)

/-- An event of the session's own is possible for it alone, with the same effect. -/
theorem step_own (h : Sees view id s u)
    (hapart : inherited.KeepsApart view) (hid : event.sessionId = id)
    (hstep : s.step servers inherited event = some t) :
    ∃ v, u.step servers inherited event = some v ∧ Sees view id t v := by
  subst hid
  cases move_of_step hstep with
  | created hresult hordinary =>
    obtain ⟨hsame, hview⟩ := (hapart.createSession ..).reads _ _ h.gateway
    refine ⟨_, Move.step (.created (hsame ▸ hresult) hordinary), ?_⟩
    exact (h.onGateway hview).observe _
  | rejected hresult herror =>
    obtain ⟨hsame, hview⟩ := (hapart.createSession ..).reads _ _ h.gateway
    refine ⟨_, Move.step (.rejected (hsame ▸ hresult) herror), ?_⟩
    exact (h.onGateway hview).observe _
  | stored hresult halgorithm hfresh =>
    obtain ⟨hsame, hview⟩ := (hapart.createSession ..).reads _ _ h.gateway
    -- an address that is new to all sessions is new to this one
    refine ⟨_, Move.step (.stored (hsame ▸ hresult) halgorithm fun hmem => ?_), ?_⟩
    · exact hfresh (h.fresh _ hmem)
    · exact (h.onGateway hview).store.observe _
  | @called call brought promptIds params kwargs hnew hrequest =>
    obtain ⟨hsame, hview⟩ := (hapart.request ..).reads _ _ h.gateway
    have hnew' : call ∉ u.calls := by
      rwa [← Finmap.lookup_eq_none, ← h.calls call rfl, Finmap.lookup_eq_none]
    refine ⟨_, Move.step (.called hnew' (hsame ▸ hrequest)), ?_⟩
    have hsessions : s.sessions.lookup call.sessionId = u.sessions.lookup call.sessionId :=
      h.sessions
    rw [hsessions]
    apply observe
    apply (h.onGateway hview).await rfl
    exact fun address hstate => Or.inl (hsessions.trans hstate)
  | answered hanswers =>
    refine ⟨_, Move.step (.answered (h.answers rfl hanswers)), ?_⟩
    exact h.finish hapart hanswers.sessionId_eq.symm _
  | @scoring call address request output session key hlookup houtput hnonempty hsession hkey =>
    have hcall := h.calls _ rfl
    have hrefers : s.Refers call.sessionId address := Or.inr ⟨_, _, hlookup, rfl, rfl⟩
    have hobject := h.objects _ hrefers
    refine ⟨_, Move.step (.scoring (hcall ▸ hlookup) houtput hnonempty (hobject ▸ hsession) hkey),
      ?_⟩
    apply observe
    apply h.await rfl
    rintro address ⟨rfl⟩
    exact hrefers
  | turn hlookup hextra hsession haccept =>
    have hcall := h.calls _ rfl
    have hobject := h.objects _ (Or.inr ⟨_, _, hlookup, rfl, rfl⟩)
    refine ⟨_, Move.step (.turn (hcall ▸ hlookup) hextra (hobject ▸ hsession) haccept), ?_⟩
    exact (h.mutate.observe _).finish hapart rfl _
  | @finalized id brought result hresult =>
    obtain ⟨hsame, hview⟩ := (hapart.finalizeSession id brought).reads _ _ h.gateway
    have hstate : s.state id = u.state id := h.state_eq
    rw [hsame, hstate] at hresult
    refine ⟨_, Move.step (.finalized hresult), ?_⟩
    exact (h.onGateway hview).pop.observe _
  | @aborted id brought =>
    obtain ⟨hsame, hview⟩ := (hapart.abortSession id brought).reads _ _ h.gateway
    refine ⟨_, Move.step .aborted, ?_⟩
    rw [hsame]
    exact (h.onGateway hview).pop.observe _
  | other =>
    obtain ⟨-, hview⟩ := (hapart.other ..).reads _ _ h.gateway
    exact ⟨_, Move.step .other, h.onGateway hview⟩

end Sees

/-- The unwinding conditions of a session. -/
theorem unwinds (hapart : inherited.KeepsApart view) (id : String) :
    Unwinds (step servers inherited) Event.sessionId (fun s : Actor K E P G => s.Separate) id
      (Sees view id) where
  inv _ _ _ hseparate hstep := hseparate.step hstep
  other _ _ _ _ hseparate h hne hstep := h.step_other hseparate hapart hne hstep
  own _ _ _ _ _ h hid hstep := h.step_own hapart hid hstep

theorem separate_start (gateway : G) : (start gateway : Actor K E P G).Separate := by
  have hnone : ∀ id address, ¬ (start gateway : Actor K E P G).Refers id address := by
    rintro id address (h | ⟨call, flight, h, -⟩)
    · simp [start] at h
    · simp [start] at h
  exact ⟨fun id address h => absurd h (hnone id address),
    fun id _ address h => absurd h (hnone id address)⟩

theorem sees_start (id : String) (gateway : G) :
    Sees view id (start gateway : Actor K E P G) (start gateway) :=
  ⟨rfl, rfl, fun _ _ => rfl, fun _ _ => rfl, fun _ h => h, rfl⟩

/-- **What a session sees** of a run is the run of its own events. -/
theorem sees_of_run (hapart : inherited.KeepsApart view) {gateway : G}
    {events : List (Event K P)}
    (hrun : run (step servers inherited) (start gateway) events = some s) (id : String) :
    ∃ t, run (step servers inherited) (start gateway) (events.filter (·.sessionId = id)) = some t ∧
      Sees view id s t :=
  (unwinds hapart id).run_filter (separate_start gateway) (sees_start id gateway) hrun

end

/-! ## What is left of a session -/

section

variable {servers : Servers K E P} {inherited : InheritedGateway K E P G} {id : String}
  {s t : Actor K E P G} {event : Event K P} {events : List (Event K P)} {call : Call}

/-- What the actor holds, has looked up or has asked of the Teacher is of adaptive sessions. -/
structure Remembers (servers : Servers K E P) (inherited : InheritedGateway K E P G) (gateway : G)
    (events : List (Event K P)) (s : Actor K E P G) : Prop where
  held : ∀ id address, s.sessions.lookup id = some address →
    IsAdaptive servers inherited gateway id events
  looked : ∀ call flight, s.calls.lookup call = some flight → flight.state ≠ none →
    BegunAdaptive servers inherited gateway call events
  asked : ∀ id number key request, (id, .teacherCall number key request) ∈ s.log →
    BegunAdaptive servers inherited gateway ⟨id, number⟩ events

/-- A session that the backend holds was just created, or held before and is not ended. -/
theorem held_of_step (hstep : s.step servers inherited event = some t) {address : ℕ}
    (hheld : t.sessions.lookup id = some address) :
    (event.CreatesAdaptive id ∧ ∃ handle, t.log = s.log ++ [(id, .created (.ok handle))]) ∨
      s.sessions.lookup id = some address ∧ ¬ event.Ends id := by
  cases move_of_step hstep with
  | created => exact Or.inr ⟨hheld, by simp [Event.Ends]⟩
  | rejected => exact Or.inr ⟨hheld, by simp [Event.Ends]⟩
  | @stored other =>
    by_cases hid : id = other
    · subst hid
      exact Or.inl ⟨⟨_, _, _, _, _, rfl⟩, _, rfl⟩
    · have hsame := (Finmap.lookup_insert_of_ne _ hid).symm.trans hheld
      exact Or.inr ⟨hsame, by simp [Event.Ends]⟩
  | called => exact Or.inr ⟨hheld, by simp [Event.Ends]⟩
  | answered hanswers => exact Or.inr ⟨hheld, by cases hanswers <;> simp [Event.Ends]⟩
  | scoring => exact Or.inr ⟨hheld, by simp [Event.Ends]⟩
  | turn => exact Or.inr ⟨hheld, by simp [Event.Ends]⟩
  | @finalized other | @aborted other =>
    by_cases hid : id = other
    · subst hid
      exact absurd ((Finmap.lookup_erase ..).symm.trans hheld) (by simp)
    · have hsame := (Finmap.lookup_erase_ne hid).symm.trans hheld
      exact Or.inr ⟨hsame, by simp [Event.Ends, Ne.symm hid]⟩
  | other => exact Or.inr ⟨hheld, by simp [Event.Ends]⟩

/-- A call that has looked up a session object was just begun, with the object that the backend
holds, or had looked it up before. -/
theorem looked_of_step (hstep : s.step servers inherited event = some t) {flight : InFlight K E P}
    (hlookup : t.calls.lookup call = some flight) (hstate : flight.state ≠ none) :
    (∃ brought address, event = .generate call brought ∧
      s.sessions.lookup call.sessionId = some address) ∨
    ∃ before, s.calls.lookup call = some before ∧ before.state ≠ none := by
  have hforget : ∀ {other}, (s.calls.erase other).lookup call = some flight →
      ∃ before, s.calls.lookup call = some before ∧ before.state ≠ none := by
    intro other hlookup
    by_cases hcall : call = other
    · subst hcall
      rw [Finmap.lookup_erase] at hlookup
      cases hlookup
    · rw [Finmap.lookup_erase_ne hcall] at hlookup
      exact ⟨flight, hlookup, hstate⟩
  cases move_of_step hstep with
  | created => exact Or.inr ⟨flight, hlookup, hstate⟩
  | rejected => exact Or.inr ⟨flight, hlookup, hstate⟩
  | stored => exact Or.inr ⟨flight, hlookup, hstate⟩
  | @called other brought =>
    by_cases hcall : call = other
    · subst hcall
      have hflight := (Finmap.lookup_insert _).symm.trans hlookup
      cases hflight
      obtain ⟨address, haddress⟩ := Option.ne_none_iff_exists'.mp hstate
      exact Or.inl ⟨brought, address, rfl, haddress⟩
    · have hsame := (Finmap.lookup_insert_of_ne _ hcall).symm.trans hlookup
      exact Or.inr ⟨flight, hsame, hstate⟩
  | answered => exact Or.inr (hforget hlookup)
  | @scoring other address request output session key hother =>
    by_cases hcall : call = other
    · subst hcall
      exact Or.inr ⟨_, hother, by simp [InFlight.state]⟩
    · have hsame := (Finmap.lookup_insert_of_ne _ hcall).symm.trans hlookup
      exact Or.inr ⟨flight, hsame, hstate⟩
  | turn => exact Or.inr (hforget hlookup)
  | finalized => exact Or.inr ⟨flight, hlookup, hstate⟩
  | aborted => exact Or.inr ⟨flight, hlookup, hstate⟩
  | other => exact Or.inr ⟨flight, hlookup, hstate⟩

/-- A call of the Teacher is one of a call that has looked up a session object. -/
theorem asked_of_step (hstep : s.step servers inherited event = some t) {number : ℕ} {key : String}
    {request : TeacherRequest P} (hmem : (id, .teacherCall number key request) ∈ t.log) :
    (id, .teacherCall number key request) ∈ s.log ∨
      ∃ flight, s.calls.lookup ⟨id, number⟩ = some flight ∧ flight.state ≠ none := by
  have hlast : ∀ {log : List (String × Observation K E P)} {last},
      (id, .teacherCall number key request) ∈ log ++ [last] →
      (id, .teacherCall number key request) ≠ last →
      (id, .teacherCall number key request) ∈ log := by
    intro log last hmem hne
    rcases List.mem_append.mp hmem with hmem | hmem
    · exact hmem
    · exact absurd (List.mem_singleton.mp hmem) hne
  cases move_of_step hstep with
  | created => exact Or.inl (hlast hmem (by simp))
  | rejected => exact Or.inl (hlast hmem (by simp))
  | stored => exact Or.inl (hlast hmem (by simp))
  | called => exact Or.inl (hlast hmem (by simp))
  | answered => exact Or.inl (hlast hmem (by simp))
  | scoring hcall =>
    rcases List.mem_append.mp hmem with hmem | hmem
    · exact Or.inl hmem
    · cases List.mem_singleton.mp hmem
      exact Or.inr ⟨_, hcall, by simp [InFlight.state]⟩
  | turn => exact Or.inl (hlast (hlast hmem (by simp)) (by simp))
  | finalized => exact Or.inl (hlast hmem (by simp))
  | aborted => exact Or.inl (hlast hmem (by simp))
  | other => exact Or.inl hmem

theorem Remembers.step {gateway : G} (h : Remembers servers inherited gateway events s)
    (hrun : run (Actor.step servers inherited) (start gateway) events = some s)
    (hstep : s.step servers inherited event = some t) :
    Remembers servers inherited gateway (events ++ [event]) t := by
  refine ⟨fun id address hheld => ?_, fun call flight hlookup hstate => ?_,
    fun id number key request hmem => ?_⟩
  · rcases held_of_step hstep hheld with ⟨hcreates, handle, hlog⟩ | ⟨hbefore, hends⟩
    · exact ⟨events, event, [], rfl, ⟨hcreates, s, t, handle, hrun, hstep, hlog⟩, by simp⟩
    · exact (h.held id address hbefore).snoc hends
  · rcases looked_of_step hstep hlookup hstate with ⟨brought, address, rfl, hheld⟩ | hbefore
    · exact ⟨events, brought, [], rfl, h.held _ _ hheld⟩
    · obtain ⟨flight, hbefore, hstate⟩ := hbefore
      exact (h.looked call flight hbefore hstate).snoc event
  · rcases asked_of_step hstep hmem with hbefore | ⟨flight, hlookup, hstate⟩
    · exact (h.asked id number key request hbefore).snoc event
    · exact (h.looked _ flight hlookup hstate).snoc event

theorem remembers_of_run {gateway : G}
    (hrun : run (Actor.step servers inherited) (start gateway) events = some s) :
    Remembers servers inherited gateway events s := by
  have hboth := run_invariant (P := fun events s =>
    run (Actor.step servers inherited) (start gateway) events = some s ∧
      Remembers servers inherited gateway events s) hrun
    ⟨rfl, by simp [start], by simp [start], by simp [start]⟩
    fun events s event t ⟨hrun, h⟩ hstep => ⟨by simp [run_append, hrun, run, hstep],
      h.step hrun hstep⟩
  exact hboth.2

/-- **Adaptive sessions do not interfere and leave nothing behind.** In every interleaving, what a
session is answered, what its turns score, the trajectories it gets and the state the backend holds
for it are those of the run of its own events; the Teacher is asked only for calls that began while
their session was adaptive, by a `create_session` that returned; and a session that has been
finalized or aborted has no state until such a call returns anew, whatever call of its own ends
later. -/
theorem isolated_of_run {view : String → G → ν} (hapart : inherited.KeepsApart view) {gateway : G}
    (hrun : run (Actor.step servers inherited) (start gateway) events = some s) :
    (∀ id, ∃ t, run (Actor.step servers inherited) (start gateway)
        (events.filter (·.sessionId = id)) = some t ∧
      s.log.filter (·.1 = id) = t.log ∧ s.state id = t.state id) ∧
    (∀ id number key request, (id, .teacherCall number key request) ∈ s.log →
      BegunAdaptive servers inherited gateway ⟨id, number⟩ events) ∧
    ∀ id before last after, events = before ++ last :: after → last.Ends id →
      (∀ earlier create later, after = earlier ++ create :: later →
        ¬ ReturnsAdaptive servers inherited gateway id (before ++ last :: earlier) create) →
      s.sessions.lookup id = none := by
  have hremembers := remembers_of_run hrun
  refine ⟨fun id => ?_, hremembers.asked, ?_⟩
  · obtain ⟨t, ht, hsees⟩ := sees_of_run hapart hrun id
    exact ⟨t, ht, hsees.log, hsees.state_eq⟩
  · rintro id before last after rfl hends hafter
    by_contra hheld
    obtain ⟨address, haddress⟩ := Option.ne_none_iff_exists'.mp hheld
    exact not_isAdaptive hends hafter (hremembers.held id address haddress)

end

/-! ### Two sessions -/

/-- What the drill's gateway has of a session: its prompt and its response. -/
abbrev Chat := Option (List Token × List Token)

theorem length_responseMask (response : List Token) :
    (response.map fun _ => 1).length = response.length := List.length_map _

/-- The trajectory of a chat. -/
def chatTrajectory (prompt response : List Token) : Trajectory ℚ Unit where
  promptIds := prompt
  responseIds := response
  responseMask := response.map fun _ => 1
  mask_length := length_responseMask response

/-- The first message of a chat is its prompt. -/
def chatRequest (brought : List Token) : Chat → (List Token × List Token × List Token) × Chat
  | none => (([], [], []), none)
  | some ([], response) => ((brought, [], []), some (brought, response))
  | some (prompt, response) => ((prompt ++ response, [], []), some (prompt, response))

/-- A chat goes on with what `generate` returns. -/
def chatAnswer (answer : Answer ℚ Unit) (chat : Chat) : Unit × Chat :=
  match answer, chat with
  | .returned output, some (prompt, response) =>
    ((), some (prompt, response ++ output.tokenIds))
  | _, chat => ((), chat)

/-- A gateway that has a chat for each session. -/
def drillGateway : InheritedGateway ℚ Unit (List Token) (String → Chat) where
  createSession id _ _ _ := onPart id fun
    | none => (.ok [], some ([], []))
    | some chat => (.error (.valueError "session exists"), some chat)
  finalizeSession id _ := onPart id fun
    | none => (.error (.keyError "session"), none)
    | some (prompt, response) => (.ok [chatTrajectory prompt response], none)
  abortSession id _ := onPart id fun _ => (.ok [], none)
  request id brought := onPart id (chatRequest brought)
  answer id answer := onPart id (chatAnswer answer)
  other id _ := onPart id fun chat => ((), chat)

theorem drillGateway_keepsApart : drillGateway.KeepsApart fun id chats => chats id := by
  constructor <;> intros <;> dsimp only [drillGateway] <;> apply confined_onPart

/-- The Student answers with one token, and the Teacher is as sure of all of them. -/
def drillServers : Servers ℚ Unit (List Token) where
  student _ := .ok { tokenIds := [7] }
  resolveTeacherKey _ := .ok "teacher"
  teacher _ request := .ok
    { promptIds := request.promptIds.map fun token => [token]
      promptLogprobs := request.promptIds.map fun _ => [.finite 0]
      opdEntropy := .finite 1
      opdTop16Mass := .finite 1 }

/-- An adaptive and an ordinary session in turns; the adaptive one is finalized while a call of it
is at the Teacher. -/
def drillEvents : List (Event ℚ (List Token)) :=
  [.create "train" [] [] (some ⟨.finite 1, none⟩) 0 [], .create "val" [] [] none 1 [],
    .generate ⟨"train", 0⟩ [1], .generate ⟨"val", 0⟩ [2], .studentAnswers ⟨"train", 0⟩,
    .studentAnswers ⟨"val", 0⟩, .teacherAnswers ⟨"train", 0⟩, .generate ⟨"train", 1⟩ [3],
    .studentAnswers ⟨"train", 1⟩, .finalize "train" [], .finalize "val" [],
    .teacherAnswers ⟨"train", 1⟩]

theorem drill_isolated : ∃ s,
    run (step drillServers drillGateway) (start fun _ => none) drillEvents = some s ∧
    (∃ t, run (step drillServers drillGateway) (start fun _ => none)
        (drillEvents.filter (·.sessionId = "train")) = some t ∧
      s.log.filter (·.1 = "train") = t.log) ∧
    s.sessions.lookup "train" = none := by
  obtain ⟨s, hrun⟩ : ∃ s,
      run (step drillServers drillGateway) (start fun _ => none) drillEvents = some s := ⟨_, rfl⟩
  obtain ⟨hviews, -, hnothing⟩ := isolated_of_run drillGateway_keepsApart hrun
  obtain ⟨t, ht, hlog, -⟩ := hviews "train"
  refine ⟨s, hrun, ⟨t, ht, hlog⟩, ?_⟩
  refine hnothing "train" (drillEvents.take 9) (.finalize "train" []) (drillEvents.drop 10) rfl
    ⟨[], Or.inl rfl⟩ fun earlier create later hsplit hreturns => ?_
  have hmem : create ∈ drillEvents.drop 10 := hsplit ▸ List.mem_append_right _ List.mem_cons_self
  obtain ⟨metadata, params, adaptive, address, brought, rfl⟩ := hreturns.1
  simp [drillEvents] at hmem

end Actor

end Adaptive
