import CodingOpd.OssDownload.Watch

/-!
# The archive is complete or absent

A consumer that finds the archive in its place finds as much of it as was uploaded, however often
watchers, shells and connections break and whatever a download leaves; where downloads copy the
object, it finds the object. A watcher that succeeds has seen it there, and no state keeps a later
call from succeeding, but for one with an archive of another size, which only the start can have.

## Main definitions

* `Sound`: the invariant of the system
* `Complete`: what a consumer and the watchers rely on

## Main results

* `Sound.step`, `sound_found_run`: every step keeps the invariant, and so does every run
* `complete_of_run`: the archive is complete or absent after every run
* `recovers_of_run`: from which states that a run reaches a call can still succeed
-/

open Python Transition

namespace OssDownload

/-- A session that has found no archive, and has not put one there. -/
def Remote.downloads : Remote → Bool
  | .copying | .orphaned | .sizing | .moving _ => true
  | .locking | .checking | .reporting _ | .ended _ | .killed => false

/-- A session whose download has exited with 0. -/
def Remote.complete : Remote → Bool
  | .sizing | .moving _ => true
  | .locking | .checking | .copying | .orphaned | .reporting _ | .ended _ | .killed => false

/-- A watcher that has seen the object, and is not done. -/
def Local.calls : Local → Bool
  | .retrying _ | .calling _ _ => true
  | .polling | .exited _ | .refused | .orphaned | .killed => false

/-- The object is there, and has a size. -/
def System.Uploaded (s : System) (size : ℕ) : Prop :=
  ∃ bytes, s.object = some bytes ∧ bytes.length = size

/-- An archive of a size is in its place. -/
def System.Placed (s : System) (size : ℕ) : Prop :=
  ∃ bytes, s.final = some bytes ∧ bytes.length = size

/-- What a session relies on; its download has left the object where downloads do. -/
structure Session.Sound (copies : Prop) (s : System) (session : Session) : Prop where
  uploaded : s.Uploaded session.expected
  absent : session.remote.downloads → s.final = none
  part : copies → session.remote.complete → s.part = s.object
  moving : ∀ size, session.remote = .moving size →
    ∃ bytes, s.part = some bytes ∧ bytes.length = session.expected
  reporting : ∀ size, session.remote = .reporting size → s.Placed session.expected
  ready : session.output.any Line.isReady → s.Placed session.expected

structure Watcher.Sound (s : System) (watcher : Watcher) : Prop where
  uploaded : watcher.now.calls → s.Uploaded watcher.expected
  ready : watcher.now = .exited 0 → s.Uploaded watcher.expected ∧ s.Placed watcher.expected

/-- An archive that was not found at the start has the size of the object, and is the object where
downloads leave it. -/
def System.Moved (copies : Prop) (s : System) (bytes : Bytes) : Prop :=
  s.Uploaded bytes.length ∧ (copies → s.object = some bytes)

/-- **The invariant.** The remote lock belongs to the session that holds it, and each lock file to
one watcher. -/
structure System.Sound (found : Option Bytes) (copies : Prop) (s : System) : Prop where
  lock : ∀ i session, s.sessions.read i = some session →
    (s.lock = some i ↔ session.remote.holds = true)
  owner : ∀ i, s.lock = some i → i < s.sessions.next
  final : ∀ bytes, s.final = some bytes → found = some bytes ∨ s.Moved copies bytes
  sessions : ∀ i session, s.sessions.read i = some session → session.Sound copies s
  watchers : ∀ i watcher, s.watchers.read i = some watcher → watcher.Sound s
  single : ∀ i j one other, s.watchers.read i = some one → s.watchers.read j = some other →
    one.now.live → other.now.live → one.lockFile = other.lockFile → i = j

section

variable {found : Option Bytes} {copies : Prop}

/-- There is one object. -/
theorem System.Uploaded.unique {s : System} {size size' : ℕ} (h : s.Uploaded size)
    (h' : s.Uploaded size') : size = size' := by
  obtain ⟨bytes, hbytes, rfl⟩ := h
  obtain ⟨bytes', hbytes', rfl⟩ := h'
  rw [Option.some_inj.mp (hbytes.symm.trans hbytes')]

theorem sound_found (part : Option Bytes) :
    (System.found part found).Sound found copies where
  lock _ _ hread := by cases hread
  owner _ hlock := by cases hlock
  final _ hfinal := .inl hfinal
  sessions _ _ hread := by cases hread
  watchers _ _ hread := by cases hread
  single _ _ _ _ hread := by cases hread

/-- An archive is moved only to where there is none. -/
theorem System.Placed.mono {s t : System} {size : ℕ} (h : s.Placed size)
    (hfinal : t.final = s.final ∨ s.final = none) : t.Placed size := by
  obtain ⟨bytes, hbytes, hsize⟩ := h
  rcases hfinal with hsame | hnone
  · exact ⟨bytes, hsame.trans hbytes, hsize⟩
  · cases hnone.symm.trans hbytes

theorem Remote.holds_of_downloads {remote : Remote} (h : remote.downloads) : remote.holds := by
  cases remote <;> simp_all [Remote.downloads, Remote.holds]

theorem Remote.downloads_of_complete {remote : Remote} (h : remote.complete) :
    remote.downloads := by
  cases remote <;> simp_all [Remote.downloads, Remote.complete]

/-- What a session that holds no lock depends on. -/
theorem Session.Sound.mono {s t : System} {session : Session} (h : session.Sound copies s)
    (hobject : t.object = s.object) (hfinal : t.final = s.final ∨ s.final = none)
    (hholds : session.remote.holds = false ∨ t.part = s.part ∧ t.final = s.final) :
    session.Sound copies t := by
  have hdownloads : session.remote.downloads → t.part = s.part ∧ t.final = s.final :=
    fun hremote => hholds.resolve_left (by simp [Remote.holds_of_downloads hremote])
  refine ⟨?_, fun hremote => ?_, fun hcopies hremote => ?_, fun size hremote => ?_,
    fun size hremote => (h.reporting size hremote).mono hfinal,
    fun houtput => (h.ready houtput).mono hfinal⟩
  · rw [System.Uploaded, hobject]
    exact h.uploaded
  · rw [(hdownloads hremote).2]
    exact h.absent hremote
  · rw [(hdownloads (Remote.downloads_of_complete hremote)).1, hobject]
    exact h.part hcopies hremote
  · rw [(hdownloads (by rw [hremote]; rfl)).1]
    exact h.moving size hremote

/-- Steps of others that leave the files. -/
theorem Session.Sound.same {s t : System} {session : Session} (h : session.Sound copies s)
    (hobject : t.object = s.object) (hpart : t.part = s.part) (hfinal : t.final = s.final) :
    session.Sound copies t :=
  h.mono hobject (.inl hfinal) (.inr ⟨hpart, hfinal⟩)

theorem Watcher.Sound.mono {s t : System} {watcher : Watcher} (h : watcher.Sound s)
    (hobject : t.object = s.object) (hfinal : t.final = s.final ∨ s.final = none) :
    watcher.Sound t := by
  have huploaded : ∀ size, s.Uploaded size → t.Uploaded size := by
    intro size hsize
    rwa [System.Uploaded, hobject]
  refine ⟨fun hnow => huploaded _ (h.uploaded hnow), fun hnow => ?_⟩
  obtain ⟨hsize, hplaced⟩ := h.ready hnow
  exact ⟨huploaded _ hsize, hplaced.mono hfinal⟩

namespace System.Sound

variable {s t : System} {i : ℕ} {session session' : Session}

/-! ## The remote lock -/

/-- The lock behind a step of a session. -/
def Locks (s : System) (i : ℕ) (holds : Bool) (lock : Option ℕ) : Prop :=
  (lock = some i ↔ holds = true) ∧ ∀ j, j ≠ i → (lock = some j ↔ s.lock = some j)

theorem locks_keep (h : s.Sound found copies) (hread : s.sessions.read i = some session)
    (hsame : session'.remote.holds = session.remote.holds) :
    Locks s i session'.remote.holds s.lock :=
  ⟨hsame ▸ h.lock i session hread, fun _ _ => Iff.rfl⟩

theorem locks_release (h : s.Sound found copies) (hread : s.sessions.read i = some session)
    (hholds : session.remote.holds = true) (hexit : session'.remote.holds = false) :
    Locks s i session'.remote.holds none := by
  have hlock : s.lock = some i := (h.lock i session hread).mpr hholds
  refine ⟨by simp [hexit], fun j hne => ?_⟩
  rw [hlock, Option.some_inj]
  exact ⟨nofun, fun heq => absurd heq.symm hne⟩

/-- **A session goes on.** Where it changes the files, it holds the lock, so that no other session
depends on them. -/
theorem set (h : s.Sound found copies) (hread : s.sessions.read i = some session)
    {lock : Option ℕ} {part final : Option Bytes}
    (hlock : Locks s i session'.remote.holds lock)
    (hfinal : final = s.final ∨
      s.final = none ∧ ∀ bytes, final = some bytes → s.Moved copies bytes)
    (hholds : session.remote.holds = true ∨ part = s.part ∧ final = s.final)
    (hnext : session'.Sound copies { s.setSession i session' lock with part, final }) :
    System.Sound found copies { s.setSession i session' lock with part, final } where
  lock j other hother := by
    rcases Heap.read_write_cases hother with ⟨rfl, rfl⟩ | ⟨hne, hother⟩
    · exact hlock.1
    · exact (hlock.2 j hne).trans (h.lock j other hother)
  owner j hj := by
    show j < (s.sessions.write i session').next
    rw [Heap.next_write]
    rcases eq_or_ne j i with rfl | hne
    · exact Heap.lt_next_of_read hread
    · exact h.owner j ((hlock.2 j hne).mp hj)
  final bytes hbytes := by
    rcases hfinal with hsame | ⟨-, hmoved⟩
    · exact h.final bytes (hsame ▸ hbytes)
    · exact .inr (hmoved bytes hbytes)
  sessions j other hother := by
    rcases Heap.read_write_cases hother with ⟨rfl, rfl⟩ | ⟨hne, hother⟩
    · exact hnext
    · refine (h.sessions j other hother).mono rfl (hfinal.imp_right And.left)
        (hholds.imp_left fun hown => ?_)
      have hlocked : s.lock = some i := (h.lock i session hread).mpr hown
      rw [← Bool.not_eq_true, ← h.lock j other hother, hlocked, Option.some_inj]
      exact hne.symm
  watchers j watcher hwatcher :=
    (h.watchers j watcher hwatcher).mono rfl (hfinal.imp_right And.left)
  single := h.single

/-- A step of a session that leaves the files. -/
theorem set_session (h : s.Sound found copies)
    (hread : s.sessions.read i = some session) {lock : Option ℕ}
    (hlock : Locks s i session'.remote.holds lock)
    (hnext : session'.Sound copies s) : (s.setSession i session' lock).Sound found copies :=
  h.set hread hlock (.inl rfl) (.inr ⟨rfl, rfl⟩)
    (hnext.mono rfl (.inl rfl) (.inr ⟨rfl, rfl⟩))

/-! ## Sessions -/

theorem exit_sound (h : session.Sound copies s) {code : ℕ} {lines : List Line}
    (hlines : lines.any Line.isReady → s.Placed session.expected) :
    (session.exit code lines).Sound copies s := by
  refine ⟨h.uploaded, nofun, nofun, nofun, nofun, fun houtput => ?_⟩
  simp only [Session.exit, List.any_append, Bool.or_eq_true] at houtput
  exact houtput.elim h.ready hlines

/-- A session that holds the lock exits. -/
theorem exit (h : s.Sound found copies) (hread : s.sessions.read i = some session)
    (hholds : session.remote.holds = true) {code : ℕ} {lines : List Line}
    (hlines : lines.any Line.isReady → s.Placed session.expected) :
    (s.setSession i (session.exit code lines) none).Sound found copies :=
  h.set_session hread (h.locks_release hread hholds rfl)
    (exit_sound (h.sessions i session hread) hlines)

/-- A session that is killed gives the lock back. -/
theorem killed (h : s.Sound found copies) (hread : s.sessions.read i = some session)
    (hholds : session.remote.holds = true) :
    (s.setSession i { session with remote := .killed } none).Sound found copies := by
  have hsession := h.sessions i session hread
  exact h.set_session hread (h.locks_release hread hholds rfl)
    ⟨hsession.uploaded, nofun, nofun, nofun, nofun, hsession.ready⟩

theorem lock_step (h : s.Sound found copies)
    (hstep : step s (.lock i) = some t) : t.Sound found copies := by
  obtain ⟨session, hread, hstep⟩ := Option.bind_eq_some_iff.mp hstep
  have hsession := h.sessions i session hread
  obtain ⟨hremote, hstep⟩ := Option.ite_none_right_eq_some.mp hstep
  have hfree : s.lock ≠ some i := by
    rw [ne_eq, h.lock i session hread, hremote]
    exact Bool.false_ne_true
  cases hlock : s.lock with
  | none =>
    rw [hlock] at hstep
    cases hstep
    refine h.set_session hread ⟨by simp [Remote.holds], fun j hne => ?_⟩
      ⟨hsession.uploaded, nofun, nofun, nofun, nofun, hsession.ready⟩
    simp [hlock, hne.symm]
  | some owner =>
    rw [hlock] at hstep
    cases hstep
    refine h.set_session hread ⟨?_, fun j _ => by rw [hlock]⟩ (exit_sound hsession nofun)
    rw [← hlock]
    exact iff_of_false hfree Bool.false_ne_true

theorem check_step (h : s.Sound found copies)
    (hstep : step s (.check i) = some t) : t.Sound found copies := by
  obtain ⟨session, hread, hstep⟩ := Option.bind_eq_some_iff.mp hstep
  have hsession := h.sessions i session hread
  obtain ⟨hremote, hstep⟩ := Option.ite_none_right_eq_some.mp hstep
  have hholds : session.remote.holds = true := by rw [hremote]; rfl
  cases hfinal : s.final with
  | none =>
    rw [hfinal] at hstep
    cases hstep
    refine h.set_session hread (h.locks_keep hread (by rw [hremote]; rfl)) ?_
    exact ⟨hsession.uploaded, fun _ => hfinal, nofun, nofun, nofun, hsession.ready⟩
  | some bytes =>
    rw [hfinal] at hstep
    simp only at hstep
    split_ifs at hstep with hsize
    · cases hstep
      exact h.exit hread hholds fun _ => ⟨bytes, hfinal, hsize⟩
    · cases hstep
      exact h.exit hread hholds nofun

/-- The file of a download that is not complete belongs to the session that downloads it. -/
theorem download_step (h : s.Sound found copies) {bytes : Bytes}
    (hstep : step s (.download i bytes) = some t) : t.Sound found copies := by
  obtain ⟨session, hread, hstep⟩ := Option.bind_eq_some_iff.mp hstep
  have hsession := h.sessions i session hread
  obtain ⟨hremote, ⟨⟩⟩ := Option.ite_none_right_eq_some.mp hstep
  have hholds : session.remote.holds = true := by
    rcases hremote with hremote | hremote <;> simp [hremote, Remote.holds]
  have hincomplete : session.remote.complete → False := by
    rcases hremote with hremote | hremote <;> simp [hremote, Remote.complete]
  have hnext : System.Sound found copies
      { s.setSession i session s.lock with part := some bytes } :=
    h.set hread (h.locks_keep hread rfl) (.inl rfl) (.inl hholds)
      ⟨hsession.uploaded, hsession.absent, fun _ hcomplete => (hincomplete hcomplete).elim,
        fun size hmoving => (hincomplete (by rw [hmoving]; rfl)).elim, hsession.reporting,
        hsession.ready⟩
  rwa [System.setSession, Heap.write_of_read hread] at hnext

/-- What a download leaves is the object where downloads copy it. -/
theorem downloaded_step (h : s.Sound found copies) {bytes : Bytes}
    (hcopies : copies → s.object = some bytes)
    (hstep : step s (.downloaded i bytes) = some t) : t.Sound found copies := by
  obtain ⟨session, hread, hstep⟩ := Option.bind_eq_some_iff.mp hstep
  have hsession := h.sessions i session hread
  split_ifs at hstep with hcopying horphaned
  · cases hstep
    have habsent := hsession.absent (by rw [hcopying]; rfl)
    exact h.set hread (h.locks_keep hread (by rw [hcopying]; rfl)) (.inl rfl)
      (.inl (by rw [hcopying]; rfl))
      ⟨hsession.uploaded, fun _ => habsent, fun hexact _ => (hcopies hexact).symm, nofun, nofun,
        hsession.ready⟩
  · cases hstep
    exact h.set hread (h.locks_release hread (by rw [horphaned]; rfl) rfl) (.inl rfl)
      (.inl (by rw [horphaned]; rfl))
      ⟨hsession.uploaded, nofun, nofun, nofun, nofun, hsession.ready⟩

theorem downloadFails_step (h : s.Sound found copies) {code : ℕ}
    (hstep : step s (.downloadFails i code) = some t) : t.Sound found copies := by
  obtain ⟨session, hread, hstep⟩ := Option.bind_eq_some_iff.mp hstep
  split_ifs at hstep with hcopying horphaned
  · cases hstep
    exact h.exit hread (by rw [hcopying]; rfl) nofun
  · cases hstep
    exact h.killed hread (by rw [horphaned]; rfl)

theorem stat_step (h : s.Sound found copies)
    (hstep : step s (.stat i) = some t) : t.Sound found copies := by
  obtain ⟨session, hread, hstep⟩ := Option.bind_eq_some_iff.mp hstep
  have hsession := h.sessions i session hread
  obtain ⟨hremote, hstep⟩ := Option.ite_none_right_eq_some.mp hstep
  have hholds : session.remote.holds = true := by rw [hremote]; rfl
  cases hpart : s.part with
  | none =>
    rw [hpart] at hstep
    cases hstep
    exact h.exit hread hholds nofun
  | some bytes =>
    rw [hpart] at hstep
    simp only at hstep
    split_ifs at hstep with hsize
    · cases hstep
      refine h.set_session hread (h.locks_keep hread (by rw [hremote]; rfl)) ?_
      exact ⟨hsession.uploaded, fun _ => hsession.absent (by rw [hremote]; rfl),
        fun hexact _ => hsession.part hexact (by rw [hremote]; rfl),
        fun _ _ => ⟨bytes, hpart, hsize⟩, nofun, hsession.ready⟩
    · cases hstep
      exact h.exit hread hholds nofun

/-- What is moved has the size that the session expects. -/
theorem move_step (h : s.Sound found copies)
    (hstep : step s (.move i) = some t) : t.Sound found copies := by
  obtain ⟨session, hread, hstep⟩ := Option.bind_eq_some_iff.mp hstep
  have hsession := h.sessions i session hread
  cases hremote : session.remote with
  | moving size =>
    have hholds : session.remote.holds = true := by rw [hremote]; rfl
    simp only [hremote] at hstep
    cases hpart : s.part with
    | none =>
      rw [hpart] at hstep
      cases hstep
      exact h.exit hread hholds nofun
    | some bytes =>
      rw [hpart] at hstep
      cases hstep
      obtain ⟨other, hother, hsize⟩ := hsession.moving size hremote
      obtain rfl : bytes = other := Option.some_inj.mp (hpart.symm.trans hother)
      have hplaced : System.Placed
          { s.setSession i { session with remote := .reporting size } s.lock with
            part := none
            final := some bytes } session.expected := ⟨bytes, rfl, hsize⟩
      have hmoved : s.Moved copies bytes :=
        ⟨hsize ▸ hsession.uploaded, fun hexact =>
          (hsession.part hexact (by rw [hremote]; rfl)).symm.trans hpart⟩
      refine h.set hread (h.locks_keep hread (by rw [hremote]; rfl))
        (.inr ⟨hsession.absent (by rw [hremote]; rfl), fun other heq => ?_⟩) (.inl hholds)
        ⟨hsession.uploaded, nofun, nofun, nofun, fun _ _ => hplaced, fun _ => hplaced⟩
      cases heq
      exact hmoved
  | _ =>
    simp only [hremote] at hstep
    cases hstep

theorem report_step (h : s.Sound found copies)
    (hstep : step s (.report i) = some t) : t.Sound found copies := by
  obtain ⟨session, hread, hstep⟩ := Option.bind_eq_some_iff.mp hstep
  cases hremote : session.remote with
  | reporting size =>
    simp only [hremote] at hstep
    cases hstep
    exact h.exit hread (by rw [hremote]; rfl) fun _ =>
      (h.sessions i session hread).reporting size hremote
  | _ =>
    simp only [hremote] at hstep
    cases hstep

theorem kill_step (h : s.Sound found copies) {child : Bool}
    (hstep : step s (.kill i child) = some t) : t.Sound found copies := by
  obtain ⟨session, hread, hstep⟩ := Option.bind_eq_some_iff.mp hstep
  have hsession := h.sessions i session hread
  cases hremote : session.remote with
  | locking =>
    simp only [hremote] at hstep
    cases hstep
    exact h.set_session hread (h.locks_keep hread (by rw [hremote]; rfl))
      ⟨hsession.uploaded, nofun, nofun, nofun, nofun, hsession.ready⟩
  | copying =>
    simp only [hremote] at hstep
    cases child with
    | true =>
      cases hstep
      exact h.killed hread (by rw [hremote]; rfl)
    | false =>
      cases hstep
      exact h.set_session hread (h.locks_keep hread (by rw [hremote]; rfl))
        ⟨hsession.uploaded, fun _ => hsession.absent (by rw [hremote]; rfl), nofun, nofun, nofun,
          hsession.ready⟩
  | ended | killed =>
    simp only [hremote] at hstep
    cases hstep
  | checking | orphaned | sizing | moving | reporting =>
    simp only [hremote] at hstep
    cases hstep
    exact h.killed hread (by rw [hremote]; rfl)

/-! ## Watchers -/

/-- A watcher goes on. -/
theorem set_watcher (h : s.Sound found copies) {watcher : Watcher} {now : Local}
    (hread : s.watchers.read i = some watcher) (hlive : now.live → watcher.now.live)
    (hnext : Watcher.Sound s { watcher with now }) :
    (s.setWatcher i watcher now).Sound found copies where
  lock := h.lock
  owner := h.owner
  final := h.final
  sessions j session hsession := (h.sessions j session hsession).same rfl rfl rfl
  watchers j other hother := by
    rcases Heap.read_write_cases hother with ⟨rfl, rfl⟩ | ⟨-, hother⟩
    · exact hnext.mono rfl (.inl rfl)
    · exact (h.watchers j other hother).mono rfl (.inl rfl)
  single j k one other hone hother hlive₁ hlive₂ hfile := by
    rcases Heap.read_write_cases hone with ⟨rfl, rfl⟩ | ⟨-, hone'⟩
    · rcases Heap.read_write_cases hother with ⟨rfl, rfl⟩ | ⟨-, hother'⟩
      · rfl
      · exact h.single _ k watcher other hread hother' (hlive hlive₁) hlive₂ hfile
    · rcases Heap.read_write_cases hother with ⟨rfl, rfl⟩ | ⟨-, hother'⟩
      · exact h.single j _ one watcher hone' hread hlive₁ (hlive hlive₂) hfile
      · exact h.single j k one other hone' hother' hlive₁ hlive₂ hfile

/-- The upload is complete before there is a session or a watcher that calls. -/
theorem upload_step (h : s.Sound found copies) {bytes : Bytes}
    (hstep : step s (.upload bytes) = some t) : t.Sound found copies := by
  obtain ⟨hnone, ⟨⟩⟩ := Option.ite_none_right_eq_some.mp hstep
  have hobject : s.object = none := Option.isNone_iff_eq_none.mp hnone
  have hmissing : ∀ size, ¬ s.Uploaded size := by
    rintro size ⟨bytes, hbytes, -⟩
    simp [hobject] at hbytes
  refine ⟨h.lock, h.owner, fun other hfinal => ?_, fun i session hread => ?_,
    fun i watcher hread => ⟨fun hcalls => ?_, fun hnow => ?_⟩, h.single⟩
  · exact (h.final other hfinal).imp_right fun hmoved => absurd hmoved.1 (hmissing _)
  · exact absurd (h.sessions i session hread).uploaded (hmissing _)
  · exact absurd ((h.watchers i watcher hread).uploaded hcalls) (hmissing _)
  · exact absurd ((h.watchers i watcher hread).ready hnow).1 (hmissing _)

theorem launch_step (h : s.Sound found copies) {lockFile expected maxAttempts : ℕ}
    (hstep : step s (.launch lockFile expected maxAttempts) = some t) : t.Sound found copies := by
  cases hstep
  refine ⟨h.lock, h.owner, h.final,
    fun i session hsession => (h.sessions i session hsession).same rfl rfl rfl,
    fun i watcher hread => ?_, fun i j one other hone hother hlive₁ hlive₂ hfile => ?_⟩
  · rcases Heap.read_alloc_cases hread with hread | ⟨-, rfl⟩
    · exact (h.watchers i watcher hread).mono rfl (.inl rfl)
    · refine ⟨fun hcalls => ?_, fun hnow => ?_⟩
      · simp only at hcalls
        split_ifs at hcalls <;> cases hcalls
      · simp only at hnow
        split_ifs at hnow
  · -- a watcher with the lock file has seen no other that holds it
    have hnew : ∀ {k : ℕ} {old : Watcher}, s.watchers.read k = some old → old.now.live →
        old.lockFile = lockFile → (s.watchers.cells.any fun other =>
          other.lockFile = lockFile ∧ other.now.live) = true := fun hread hlive hfile =>
      List.any_eq_true.mpr ⟨_, List.mem_of_getElem? hread, by simp [hlive, hfile]⟩
    rcases Heap.read_alloc_cases hone with hone | ⟨rfl, rfl⟩ <;>
      rcases Heap.read_alloc_cases hother with hother | ⟨rfl, rfl⟩
    · exact h.single i j one other hone hother hlive₁ hlive₂ hfile
    · simp only at hlive₂ hfile
      rw [if_pos (hnew hone hlive₁ hfile)] at hlive₂
      cases hlive₂
    · simp only at hlive₁ hfile
      rw [if_pos (hnew hother hlive₂ hfile.symm)] at hlive₁
      cases hlive₁
    · rfl

theorem poll_step (h : s.Sound found copies) {reachable : Bool}
    (hstep : step s (.poll i reachable) = some t) : t.Sound found copies := by
  obtain ⟨watcher, hread, hstep⟩ := Option.bind_eq_some_iff.mp hstep
  obtain ⟨hnow, hstep⟩ := Option.ite_none_right_eq_some.mp hstep
  have hlive : watcher.now.live := by rw [hnow]; rfl
  cases hobject : (if reachable then s.object else none) with
  | none =>
    simp only [hobject] at hstep
    cases hstep
    exact h
  | some bytes =>
    have huploaded : s.object = some bytes := by
      split at hobject
      · exact hobject
      · cases hobject
    simp only [hobject] at hstep
    cases hstep
    refine h.set_watcher hread (fun _ => hlive) ⟨fun hcalls => ?_, fun hexit => ?_⟩
    · simp only at hcalls
      split_ifs at hcalls with hsize
      · exact ⟨bytes, huploaded, hsize⟩
      · cases hcalls
    · simp only at hexit
      split_ifs at hexit
      cases hexit

/-- A call starts a shell that expects what the watcher has seen. -/
theorem call_step (h : s.Sound found copies)
    (hstep : step s (.call i) = some t) : t.Sound found copies := by
  obtain ⟨watcher, hread, hstep⟩ := Option.bind_eq_some_iff.mp hstep
  cases hnow : watcher.now with
  | retrying attempt =>
    simp only [hnow] at hstep
    have huploaded := (h.watchers i watcher hread).uploaded (by rw [hnow]; rfl)
    have hlive : watcher.now.live := by rw [hnow]; rfl
    split_ifs at hstep
    · cases hstep
      have hset : (s.setWatcher i watcher (.calling (attempt + 1) s.sessions.next)).Sound
          found copies :=
        h.set_watcher hread (fun _ => hlive) ⟨fun _ => huploaded, nofun⟩
      refine ⟨fun j session hsession => ?_, fun j hj => ?_, hset.final,
        fun j session hsession => ?_,
        fun j other hother => (hset.watchers j other hother).mono rfl (.inl rfl), hset.single⟩
      · rcases Heap.read_alloc_cases hsession with hsession | ⟨rfl, rfl⟩
        · exact h.lock j session hsession
        · exact iff_of_false (fun hj => (h.owner _ hj).ne rfl) Bool.false_ne_true
      · show j < (s.sessions.alloc _).next
        rw [Heap.next_alloc]
        exact Nat.lt_succ_of_lt (h.owner j hj)
      · rcases Heap.read_alloc_cases hsession with hsession | ⟨-, rfl⟩
        · exact (h.sessions j session hsession).same rfl rfl rfl
        · exact ⟨huploaded, nofun, nofun, nofun, nofun, nofun⟩
    · cases hstep
      exact h.set_watcher hread nofun ⟨nofun, nofun⟩
  | _ =>
    simp only [hnow] at hstep
    cases hstep

/-- A line that says that the archive is ready comes from a session that has seen it. -/
theorem answer_step (h : s.Sound found copies) {code : ℕ} {lines : List Line}
    (hstep : step s (.answer i code lines) = some t) : t.Sound found copies := by
  obtain ⟨watcher, hread, hstep⟩ := Option.bind_eq_some_iff.mp hstep
  cases hnow : watcher.now with
  | calling attempt j =>
    simp only [hnow] at hstep
    have huploaded := (h.watchers i watcher hread).uploaded (by rw [hnow]; rfl)
    have hlive : watcher.now.live := by rw [hnow]; rfl
    obtain ⟨session, hsession, hstep⟩ := Option.bind_eq_some_iff.mp hstep
    obtain ⟨hlines, hstep⟩ := Option.ite_none_right_eq_some.mp hstep
    split_ifs at hstep with hready
    · cases hstep
      refine h.set_watcher hread nofun ⟨nofun, fun _ => ⟨huploaded, ?_⟩⟩
      have hsound := h.sessions j session hsession
      rw [huploaded.unique hsound.uploaded]
      obtain ⟨line, hmem, hline⟩ := List.any_eq_true.mp hready.2
      apply hsound.ready
      refine List.any_eq_true.mpr ⟨line, (hlines line hmem).resolve_left ?_, hline⟩
      rintro rfl
      cases hline
    · cases hstep
      exact h.set_watcher hread (fun _ => hlive) ⟨fun _ => huploaded, nofun⟩
    · cases hstep
      exact h.set_watcher hread (fun _ => hlive) ⟨fun _ => huploaded, nofun⟩
  | _ =>
    simp only [hnow] at hstep
    cases hstep

theorem killWatcher_step (h : s.Sound found copies) {child : Bool}
    (hstep : step s (.killWatcher i child) = some t) : t.Sound found copies := by
  obtain ⟨watcher, hread, hstep⟩ := Option.bind_eq_some_iff.mp hstep
  obtain ⟨hlive, ⟨⟩⟩ := Option.ite_none_right_eq_some.mp hstep
  refine h.set_watcher hread (fun _ => hlive) ⟨fun hcalls => ?_, fun hnow => ?_⟩
  · simp only at hcalls
    split_ifs at hcalls <;> cases hcalls
  · simp only at hnow
    split_ifs at hnow

/-- **Every step keeps the invariant.** -/
theorem step (h : s.Sound found copies) (e : Event)
    (hcopies : copies → ∀ i bytes, e = .downloaded i bytes → s.object = some bytes)
    (hstep : OssDownload.step s e = some t) : t.Sound found copies := by
  cases e with
  | upload => exact h.upload_step hstep
  | launch => exact h.launch_step hstep
  | poll => exact h.poll_step hstep
  | call => exact h.call_step hstep
  | answer => exact h.answer_step hstep
  | killWatcher => exact h.killWatcher_step hstep
  | lock => exact h.lock_step hstep
  | check => exact h.check_step hstep
  | download => exact h.download_step hstep
  | downloaded j bytes => exact h.downloaded_step (fun hexact => hcopies hexact j bytes rfl) hstep
  | downloadFails => exact h.downloadFails_step hstep
  | stat => exact h.stat_step hstep
  | move => exact h.move_step hstep
  | report => exact h.report_step hstep
  | kill => exact h.kill_step hstep

/-- **The archive stays** once it is in its place. -/
theorem final_step (h : s.Sound found copies) {e : Event} {bytes : Bytes}
    (hfinal : s.final = some bytes) (hstep : OssDownload.step s e = some t) :
    t.final = some bytes := by
  cases e with
  | upload other =>
    obtain ⟨-, ⟨⟩⟩ := Option.ite_none_right_eq_some.mp hstep
    exact hfinal
  | launch =>
    cases hstep
    exact hfinal
  | answer =>
    obtain ⟨watcher, -, hstep⟩ := Option.bind_eq_some_iff.mp hstep
    cases hnow : watcher.now with
    | calling attempt j =>
      simp only [hnow] at hstep
      obtain ⟨session, -, hstep⟩ := Option.bind_eq_some_iff.mp hstep
      grind [System.setWatcher]
    | _ =>
      simp only [hnow] at hstep
      cases hstep
  | move i =>
    obtain ⟨session, hread, hstep⟩ := Option.bind_eq_some_iff.mp hstep
    cases hremote : session.remote with
    | moving size =>
      have habsent := (h.sessions i session hread).absent (by rw [hremote]; rfl)
      simp [habsent] at hfinal
    | _ =>
      simp only [hremote] at hstep
      cases hstep
  | _ =>
    obtain ⟨_, -, hstep⟩ := Option.bind_eq_some_iff.mp hstep
    grind [System.setWatcher, System.setSession]

/-- Every step keeps the invariant but for what downloads leave. -/
theorem run (h : s.Sound found False) {events : List Event}
    (hrun : Transition.run OssDownload.step s events = some t) : t.Sound found False :=
  run_invariant (P := fun _ t => t.Sound found False) hrun h
    fun _ _ e _ ht hstep => ht.step e False.elim hstep

theorem final_run (h : s.Sound found False) {events : List Event} {bytes : Bytes}
    (hfinal : s.final = some bytes)
    (hrun : Transition.run OssDownload.step s events = some t) : t.final = some bytes := by
  have hinvariant : t.Sound found False ∧ t.final = some bytes :=
    run_invariant (P := fun _ t => t.Sound found False ∧ t.final = some bytes) hrun ⟨h, hfinal⟩
      fun _ _ e _ ht hstep => ⟨ht.1.step e False.elim hstep, ht.1.final_step ht.2 hstep⟩
  exact hinvariant.2

end System.Sound

/-! ## What a step leaves -/

variable {s t : System} {events : List Event}

/-- Only the upload makes an object. -/
theorem object_of_step {e : Event} (hstep : step s e = some t) :
    t.object = s.object ∨ ∃ bytes, e = .upload bytes ∧ t.object = some bytes := by
  cases e with
  | upload bytes =>
    obtain ⟨-, ⟨⟩⟩ := Option.ite_none_right_eq_some.mp hstep
    exact .inr ⟨bytes, rfl, rfl⟩
  | launch =>
    cases hstep
    exact .inl rfl
  | answer =>
    obtain ⟨watcher, -, hstep⟩ := Option.bind_eq_some_iff.mp hstep
    cases hnow : watcher.now with
    | calling attempt j =>
      simp only [hnow] at hstep
      obtain ⟨session, -, hstep⟩ := Option.bind_eq_some_iff.mp hstep
      grind [System.setWatcher]
    | _ =>
      simp only [hnow] at hstep
      cases hstep
  | _ =>
    obtain ⟨_, -, hstep⟩ := Option.bind_eq_some_iff.mp hstep
    grind [System.setWatcher, System.setSession]

/-- A watcher keeps what it was called with. -/
theorem watcher_of_step {e : Event} (hstep : step s e = some t) {i : ℕ} {watcher : Watcher}
    (hread : s.watchers.read i = some watcher) :
    ∃ now, t.watchers.read i = some { watcher with now } := by
  have hset : ∀ {j : ℕ} {other : Watcher} {now : Local}, s.watchers.read j = some other →
      t.watchers = s.watchers.write j { other with now } →
      ∃ now, t.watchers.read i = some { watcher with now } := by
    intro j other now hother heq
    rw [heq]
    rcases eq_or_ne i j with rfl | hne
    · cases hother.symm.trans hread
      exact ⟨now, Heap.read_write_self (Heap.lt_next_of_read hread) _⟩
    · exact ⟨watcher.now, (Heap.read_write_of_ne s.watchers hne.symm _).trans hread⟩
  have hsame : t.watchers = s.watchers → ∃ now, t.watchers.read i = some { watcher with now } :=
    fun heq => ⟨watcher.now, heq ▸ hread⟩
  cases e with
  | upload bytes =>
    obtain ⟨-, ⟨⟩⟩ := Option.ite_none_right_eq_some.mp hstep
    exact hsame rfl
  | launch =>
    cases hstep
    exact ⟨watcher.now, ((Heap.Keeps.refl s.watchers).alloc _).read hread⟩
  | poll | call | killWatcher =>
    obtain ⟨other, hother, hstep⟩ := Option.bind_eq_some_iff.mp hstep
    grind [System.setWatcher]
  | answer =>
    obtain ⟨other, hother, hstep⟩ := Option.bind_eq_some_iff.mp hstep
    cases hnow : other.now with
    | calling attempt j =>
      simp only [hnow] at hstep
      obtain ⟨session, -, hstep⟩ := Option.bind_eq_some_iff.mp hstep
      grind [System.setWatcher]
    | _ =>
      simp only [hnow] at hstep
      cases hstep
  | _ =>
    obtain ⟨_, -, hstep⟩ := Option.bind_eq_some_iff.mp hstep
    exact hsame (by grind [System.setSession])

theorem watcher_of_run {i : ℕ} {watcher : Watcher} (hrun : run step s events = some t)
    (hread : s.watchers.read i = some watcher) :
    ∃ now, t.watchers.read i = some { watcher with now } := by
  refine run_invariant (P := fun _ t => ∃ now, t.watchers.read i = some { watcher with now }) hrun
    ⟨watcher.now, hread⟩ fun es u e v ⟨now, hu⟩ hstep => ?_
  obtain ⟨next, hnext⟩ := watcher_of_step hstep hu
  exact ⟨next, hnext⟩

/-- **The invariant** of a run, in which downloads may copy the object. -/
theorem sound_found_run {part : Option Bytes} (hrun : run step (.found part found) events = some s)
    (hcopies : copies → Copies events) : s.Sound found copies := by
  have hinvariant : ∀ copies : Prop, (copies → Copies events) →
      (∀ object, s.object = some object → .upload object ∈ events) ∧ s.Sound found copies := by
    refine run_invariant (P := fun es t => ∀ copies : Prop, (copies → Copies es) →
      (∀ object, t.object = some object → .upload object ∈ es) ∧ t.Sound found copies) hrun
      (fun _ _ => ⟨nofun, sound_found part⟩) fun es t e u ht hstep copies hcopies => ?_
    obtain ⟨hobject, hsound⟩ := ht copies fun hexact j bytes object hmem hupload =>
      hcopies hexact j bytes object (List.mem_append_left _ hmem) (List.mem_append_left _ hupload)
    refine ⟨fun object hu => ?_, hsound.step e (fun hexact j bytes he => ?_) hstep⟩
    · rcases object_of_step hstep with hsame | ⟨bytes, rfl, hbytes⟩
      · exact List.mem_append_left _ (hobject object (hsame.symm.trans hu))
      · obtain rfl : bytes = object := Option.some_inj.mp (hbytes.symm.trans hu)
        exact List.mem_append_right _ List.mem_cons_self
    · subst he
      obtain ⟨session, hread, -⟩ := Option.bind_eq_some_iff.mp hstep
      obtain ⟨object, hsome, -⟩ := (hsound.sessions j session hread).uploaded
      rw [hsome, hcopies hexact j bytes object (List.mem_append_right _ List.mem_cons_self)
        (List.mem_append_left _ (hobject object hsome))]
  exact (hinvariant copies hcopies).2

/-! ## Recovery -/

/-- The shell of a session can still say that the archive is ready, with downloads that copy the
object. -/
def CanReport (s : System) (i size : ℕ) : Prop :=
  ∃ events t session, (∀ j bytes, .downloaded j bytes ∈ events → s.object = some bytes) ∧
    run step s events = some t ∧ t.watchers = s.watchers ∧
    t.sessions.read i = some session ∧ .ready size ∈ session.output

namespace CanReport

variable {i size : ℕ} {session : Session} {bytes : Bytes}

theorem cons {e : Event} (hstep : step s e = some t) (hwatchers : t.watchers = s.watchers)
    (hobject : t.object = s.object)
    (hcopies : ∀ j bytes, e = .downloaded j bytes → s.object = some bytes)
    (h : CanReport t i size) : CanReport s i size := by
  obtain ⟨events, u, done, hexact, hrun, hsame, hread, hready⟩ := h
  refine ⟨e :: events, u, done, fun j bytes hmem => ?_, ?_, hsame.trans hwatchers, hread, hready⟩
  · rcases List.mem_cons.mp hmem with heq | hmem
    · exact hcopies j bytes heq.symm
    · exact hobject ▸ hexact j bytes hmem
  · rw [run, hstep]
    exact hrun

/-- A step of the session, which is found behind it. -/
theorem of_set {session' : Session} {lock : Option ℕ} {part final : Option Bytes} {e : Event}
    (hread : s.sessions.read i = some session)
    (hstep : step s e = some { s.setSession i session' lock with part, final })
    (hcopies : ∀ j bytes, e = .downloaded j bytes → s.object = some bytes)
    (h : ∀ t : System, t.sessions.read i = some session' → t.object = s.object → t.part = part →
      t.final = final → CanReport t i size) : CanReport s i size :=
  cons hstep rfl rfl hcopies
    (h _ (Heap.read_write_self (Heap.lt_next_of_read hread) session') rfl rfl rfl)

theorem of_exit {e : Event} {lines : List Line} {part final : Option Bytes}
    (hread : s.sessions.read i = some session)
    (hstep : step s e = some { s.setSession i (session.exit 0 lines) none with part, final })
    (hcopies : ∀ j bytes, e = .downloaded j bytes → s.object = some bytes)
    (hready : .ready size ∈ lines) : CanReport s i size :=
  of_set hread hstep hcopies fun t hnext _ _ _ =>
    ⟨[], t, _, nofun, rfl, rfl, hnext, List.mem_append_right _ hready⟩

theorem reporting (hread : s.sessions.read i = some session)
    (hremote : session.remote = .reporting size) : CanReport s i size := by
  have hstep : step s (.report i) =
      some (s.setSession i (session.exit 0 [.other, .ready size]) none) := by
    simp [step, hread, hremote]
  exact of_exit hread hstep nofun (by simp)

theorem moving (hread : s.sessions.read i = some session)
    (hremote : session.remote = .moving size) (hpart : s.part = some bytes) :
    CanReport s i size := by
  have hstep : step s (.move i) =
      some { s.setSession i { session with remote := .reporting size } s.lock with
        part := none, final := some bytes } := by
    simp [step, hread, hremote, hpart]
  exact of_set hread hstep nofun fun t hnext _ _ _ => reporting hnext rfl

theorem sizing (hread : s.sessions.read i = some session) (hremote : session.remote = .sizing)
    (hpart : s.part = some bytes)
    (hsize : bytes.length = size) (hexpected : session.expected = size) :
    CanReport s i size := by
  have hstep : step s (.stat i) =
      some (s.setSession i { session with remote := .moving size } s.lock) := by
    simp [step, hread, hremote, hpart, hsize, hexpected]
  exact of_set hread hstep nofun fun t hnext _ hsame _ => moving hnext rfl (hsame.trans hpart)

/-- A download that copies the object. -/
theorem copying (hread : s.sessions.read i = some session) (hremote : session.remote = .copying)
    (hobject : s.object = some bytes) (hsize : bytes.length = size)
    (hexpected : session.expected = size) : CanReport s i size := by
  have hstep : step s (.downloaded i bytes) =
      some { s.setSession i { session with remote := .sizing } s.lock with
        part := some bytes } := by
    simp [step, hread, hremote]
  refine of_set hread hstep (fun j other heq => ?_) fun t hnext _ hsame _ =>
    sizing hnext rfl hsame hsize hexpected
  cases heq
  exact hobject

/-- A session that has the lock finds the archive, or downloads it. -/
theorem checking (hread : s.sessions.read i = some session) (hremote : session.remote = .checking)
    (hobject : s.object = some bytes) (hsize : bytes.length = size)
    (hexpected : session.expected = size)
    (hfinal : ∀ other, s.final = some other → other.length = size) : CanReport s i size := by
  cases hcase : s.final with
  | none =>
    have hstep : step s (.check i) =
        some (s.setSession i { session with remote := .copying } s.lock) := by
      simp [step, hread, hremote, hcase]
    exact of_set hread hstep nofun fun t hnext hsame _ _ =>
      copying hnext rfl (hsame.trans hobject) hsize hexpected
  | some other =>
    have hother := hfinal other hcase
    have hstep : step s (.check i) =
        some (s.setSession i (session.exit 0 [.other, .ready size]) none) := by
      simp [step, hread, hremote, hcase, hother, hexpected]
    exact of_exit hread hstep nofun (by simp)

theorem locking (hread : s.sessions.read i = some session) (hremote : session.remote = .locking)
    (hlock : s.lock = none) (hobject : s.object = some bytes) (hsize : bytes.length = size)
    (hexpected : session.expected = size)
    (hfinal : ∀ other, s.final = some other → other.length = size) : CanReport s i size := by
  have hstep : step s (.lock i) =
      some (s.setSession i { session with remote := .checking } (some i)) := by
    simp [step, hread, hremote, hlock]
  refine of_set hread hstep nofun fun t hnext hsame _ hfinal' =>
    checking hnext rfl (hsame.trans hobject) hsize hexpected fun other hother => ?_
  exact hfinal other (hfinal'.symm.trans hother)

end CanReport

/-- The shell that holds the lock may be killed, with its download. -/
theorem exists_free (h : s.Sound found copies) : ∃ events t,
    (∀ j bytes, .downloaded j bytes ∉ events) ∧ run step s events = some t ∧ t.lock = none ∧
      t.watchers = s.watchers ∧ t.object = s.object ∧ t.final = s.final := by
  cases hlock : s.lock with
  | none => exact ⟨[], s, nofun, rfl, hlock, rfl, rfl, rfl⟩
  | some i =>
    obtain ⟨session, hread⟩ : ∃ session, s.sessions.read i = some session :=
      ⟨_, List.getElem?_eq_getElem (h.owner i hlock)⟩
    have hholds := (h.lock i session hread).mp hlock
    have hkill : step s (.kill i true) =
        some (s.setSession i { session with remote := .killed } none) := by
      cases hremote : session.remote <;> simp_all [step, Remote.holds]
    exact ⟨[.kill i true], s.setSession i { session with remote := .killed } none, by simp,
      by rw [run, hkill]; rfl, rfl, rfl, rfl, rfl⟩

/-- A watcher can still find the archive in its place, with downloads that copy the object. -/
def System.Recovers (s : System) (i : ℕ) : Prop :=
  ∃ more t done, (∀ j bytes, .downloaded j bytes ∈ more → s.object = some bytes) ∧
    run step s more = some t ∧ t.watchers.read i = some done ∧ done.now = .exited 0

/-- A watcher that may call again calls a shell that finds the lock free. -/
theorem recovers_of_sound (h : s.Sound found copies) {i attempt : ℕ} {watcher : Watcher}
    (hread : s.watchers.read i = some watcher) (hnow : watcher.now = .retrying attempt)
    (hbudget : attempt < watcher.maxAttempts)
    (hfinal : ∀ bytes, s.final = some bytes → bytes.length = watcher.expected) :
    s.Recovers i := by
  obtain ⟨killing, free, hkept, hkilling, hlock, hwatchers, hsame, hplace⟩ := exists_free h
  have hreadFree : free.watchers.read i = some watcher := hwatchers ▸ hread
  obtain ⟨bytes, hobject, hsize⟩ := (h.watchers i watcher hread).uploaded (by rw [hnow]; rfl)
  let session : Session := { expected := watcher.expected, remote := .locking, output := [] }
  let called : System :=
    { free.setWatcher i watcher (.calling (attempt + 1) free.sessions.next) with
      sessions := free.sessions.alloc session }
  have hcall : step free (.call i) = some called := by
    simp only [step, hreadFree, hnow, Option.bind_eq_bind, Option.bind_some, if_pos hbudget]
    rfl
  have hsession : called.sessions.read free.sessions.next = some session :=
    Heap.read_alloc_next _ _
  obtain ⟨reporting, reported, done, hexact, hreporting, hsame', hdone, hready⟩ :=
    CanReport.locking hsession rfl hlock (hsame.trans hobject) hsize rfl
      fun other hother => hfinal other (hplace.symm.trans hother)
  let calling : Watcher := { watcher with now := .calling (attempt + 1) free.sessions.next }
  have hcalling : reported.watchers.read i = some calling := by
    rw [hsame']
    exact Heap.read_write_self (Heap.lt_next_of_read hreadFree) _
  have hanswer : step reported (.answer i 0 [.ready watcher.expected]) =
      some (reported.setWatcher i calling (.exited 0)) := by
    simp [step, hcalling, calling, hdone, hready, Line.isReady]
  refine ⟨killing ++ .call i :: (reporting ++ [.answer i 0 [.ready watcher.expected]]),
    reported.setWatcher i calling (.exited 0), { calling with now := .exited 0 },
    fun j other hmem => ?_, ?_, Heap.read_write_self (Heap.lt_next_of_read hcalling) _, rfl⟩
  · simp only [List.mem_append, List.mem_cons, reduceCtorEq, List.not_mem_nil, or_false,
      false_or] at hmem
    rcases hmem with hmem | hmem
    · exact absurd hmem (hkept j other)
    · exact hsame ▸ hexact j other hmem
  · rw [run_append, hkilling, Option.bind_some, run, hcall, Option.bind_some, run_append,
      hreporting, Option.bind_some, run, hanswer]
    rfl

/-- **No state keeps a call from succeeding**: a watcher that may call again can still find the
archive in its place, whatever broke before, unless one of another size was there at the start. -/
theorem recovers_of_run {part : Option Bytes} {i attempt : ℕ} {watcher : Watcher}
    (hrun : run step (.found part found) events = some s)
    (hread : s.watchers.read i = some watcher) (hnow : watcher.now = .retrying attempt)
    (hbudget : attempt < watcher.maxAttempts) :
    s.Recovers i ↔ ∀ bytes, found = some bytes → bytes.length = watcher.expected := by
  have hsound : s.Sound found False := sound_found_run hrun False.elim
  constructor
  · rintro ⟨more, t, done, -, hmore, hdone, hexit⟩ bytes hfound
    have hstays : s.final = some bytes := (sound_found part).final_run hfound hrun
    obtain ⟨now, hsame⟩ := watcher_of_run hmore hread
    cases hdone.symm.trans hsame
    obtain ⟨-, other, hother, hsize⟩ := ((hsound.run hmore).watchers i _ hsame).ready hexit
    rwa [Option.some_inj.mp ((hsound.final_run hstays hmore).symm.trans hother)]
  · intro hfound
    refine recovers_of_sound hsound hread hnow hbudget fun bytes hbytes => ?_
    have huploaded := (hsound.watchers i watcher hread).uploaded (by rw [hnow]; rfl)
    exact (hsound.final bytes hbytes).elim (hfound bytes) fun hmoved => hmoved.1.unique huploaded

/-- What every run keeps: the archive is absent, was found at the start, or has the size of the
object, and is the object where downloads copy it; it stays; one session at a time works on it; a
watcher that succeeds has seen it, and watchers with one lock file exclude each other. -/
structure System.Complete (found : Option Bytes) (events : List Event) (s : System) : Prop where
  sized : ∀ bytes, s.final = some bytes → found = some bytes ∨
    ∃ object, s.object = some object ∧ object.length = bytes.length
  whole : Copies events → ∀ bytes, s.final = some bytes →
    found = some bytes ∨ s.object = some bytes
  stays : ∀ more t bytes, run step s more = some t → s.final = some bytes → t.final = some bytes
  exclusive : ∀ i j one other, s.sessions.read i = some one → s.sessions.read j = some other →
    one.remote.holds → other.remote.holds → i = j
  succeeded : ∀ i watcher, s.watchers.read i = some watcher → watcher.now = .exited 0 →
    ∃ bytes, s.final = some bytes ∧ bytes.length = watcher.expected
  single : ∀ i j one other, s.watchers.read i = some one → s.watchers.read j = some other →
    one.now.live → other.now.live → one.lockFile = other.lockFile → i = j

/-- **The archive is complete or absent** after every run. -/
theorem complete_of_run {part : Option Bytes}
    (hrun : run step (.found part found) events = some s) : s.Complete found events := by
  have hsound : s.Sound found False := sound_found_run hrun False.elim
  refine ⟨fun bytes hbytes => (hsound.final bytes hbytes).imp_right And.left,
    fun hcopies bytes hbytes => ?_, fun more t bytes hmore hfinal => hsound.final_run hfinal hmore,
    fun i j one other hone hother hholds hholds' => ?_,
    fun i watcher hread hnow => ((hsound.watchers i watcher hread).ready hnow).2, hsound.single⟩
  · have hexact : s.Sound found (Copies events) := sound_found_run hrun id
    exact (hexact.final bytes hbytes).imp_right fun hmoved => hmoved.2 hcopies
  · have hlock := (hsound.lock i one hone).mpr hholds
    rw [(hsound.lock j other hother).mpr hholds', Option.some_inj] at hlock
    exact hlock.symm

end

/-- A connection that is lost while the download goes on, and a call that finds it going on; the
download is cut short. -/
def lostConnection : List Event :=
  [.launch 0 2 10, .poll 0 true, .upload [1, 2], .poll 0 true, .call 0, .lock 0, .check 0,
    .answer 0 0 [.other], .kill 0 false, .call 0, .lock 1, .answer 0 7 [.owned], .downloaded 0 [1]]

/-- The calls behind it, the first with a download that is cut short as well. -/
def foundAgain : List Event :=
  lostConnection ++ [.call 0, .lock 2, .check 2, .downloaded 2 [1], .stat 2, .answer 0 5 [.other],
    .call 0, .lock 3, .check 3, .downloaded 3 [1, 2], .stat 3, .move 3, .report 3,
    .answer 0 0 [.ready 2]]

/-- A watcher recovers from a lost connection, and not from an archive of another size. -/
theorem recovers_lostConnection :
    (∃ s, run step (.found (some [3]) none) lostConnection = some s ∧ s.Recovers 0) ∧
      ∃ s, run step (.found none (some [3])) [.launch 0 2 10, .upload [1, 2], .poll 0 true] =
        some s ∧ ¬ s.Recovers 0 := by
  refine ⟨⟨_, rfl, ?_⟩, _, rfl, fun hrecovers => ?_⟩
  · have hrun : run step (.found (some [3]) none) lostConnection = some _ := rfl
    exact (recovers_of_run hrun rfl rfl (by decide)).mpr nofun
  · have hrun : run step (.found none (some [3])) [.launch 0 2 10, .upload [1, 2], .poll 0 true] =
        some _ := rfl
    exact absurd ((recovers_of_run hrun rfl rfl (by decide)).mp hrecovers [3] rfl) (by decide)

theorem complete_foundAgain :
    ∃ s, run step (.found (some [3]) none) foundAgain = some s ∧ s.final = some [1, 2] ∧
      s.Complete none foundAgain :=
  ⟨_, rfl, rfl, complete_of_run
    (show run step (.found (some [3]) none) foundAgain = some _ from rfl)⟩

end OssDownload
