import Mathlib.Algebra.BigOperators.Ring.List
import Mathlib.Algebra.Ring.Nat
import CodingOpd.UnixSocketProxy.Forward

/-!
# What the proxy delivers

The bytes of a direction stand, in their order, in the socket, the reader, the transport and with
the other peer, whatever is read, written and sent in between; a connection that is lost drops the
end of them. Where nothing fails, the end of a stream is passed on behind its last byte, and a
connection that has come to rest has delivered all that was sent.

## Main definitions

* `Pipe.Intact`: the invariant of a direction in every run
* `Forward.Sound`: the invariant of runs in which nothing fails
* `Forward.Relayed`: what the proxy promises

## Main results

* `Forward.intact_of_run`, `Forward.sound_of_unfailing`: the invariants after every run
* `Forward.relayed_of_run`: bytes are neither lost nor repeated nor reordered
-/

open Python Transition

namespace UnixSocketProxy

variable {limits : Limits}

/-! ## Every run -/

namespace Pipe

/-- The bytes that were sent, from those that were delivered to those in the socket. -/
def bytes (pipe : Pipe) : Bytes :=
  pipe.delivered ++ (pipe.outgoing ++ (pipe.incoming ++ pipe.socket))

/-- What holds of a direction, whatever happens. -/
structure Intact (limits : Limits) (sink : Transport) (pipe : Pipe) : Prop where
  conserved : (∀ fault, sink ≠ .gone fault) → pipe.bytes = pipe.sent
  isPrefix : pipe.delivered <+: pipe.sent
  empty : ∀ fault, sink = .gone fault → pipe.outgoing = []
  room : pipe.paused = false → pipe.outgoing.length ≤ limits.high
  full : pipe.paused = true → limits.low < pipe.outgoing.length
  reads : pipe.task = .idle ∨ pipe.task = .reading → pipe.outgoing.length ≤ limits.high
  bounded : pipe.outgoing.length ≤ limits.high + CHUNK

namespace Intact

variable {sink : Transport} {pipe : Pipe}

theorem start (limits : Limits) (sink : Transport) : Pipe.start.Intact limits sink where
  conserved _ := rfl
  isPrefix := List.prefix_rfl
  empty _ _ := rfl
  room _ := Nat.zero_le _
  full h := absurd h Bool.false_ne_true
  reads _ := Nat.zero_le _
  bounded := Nat.zero_le _

/-- The bytes that move within a direction. -/
theorem of_bytes_eq {next : Pipe} (h : pipe.Intact limits sink) (hbytes : next.bytes = pipe.bytes)
    (hsent : next.sent = pipe.sent) (hdelivered : next.delivered = pipe.delivered)
    (houtgoing : next.outgoing = pipe.outgoing) (hpaused : next.paused = pipe.paused)
    (hreads : next.task = .idle ∨ next.task = .reading → pipe.outgoing.length ≤ limits.high) :
    next.Intact limits sink where
  conserved hsink := by rw [hbytes, hsent, h.conserved hsink]
  isPrefix := by
    rw [hdelivered, hsent]
    exact h.isPrefix
  empty fault hsink := by rw [houtgoing, h.empty fault hsink]
  room hpause := by
    rw [houtgoing]
    exact h.room (hpaused ▸ hpause)
  full hpause := by
    rw [houtgoing]
    exact h.full (hpaused ▸ hpause)
  reads htask := by
    rw [houtgoing]
    exact hreads htask
  bounded := by
    rw [houtgoing]
    exact h.bounded

theorem send (h : pipe.Intact limits sink) (more : Bytes) :
    { pipe with sent := pipe.sent ++ more, socket := pipe.socket ++ more }.Intact limits sink where
  conserved hsink := by
    have hbytes := h.conserved hsink
    simp only [bytes] at hbytes ⊢
    rw [← hbytes]
    simp only [List.append_assoc]
  isPrefix := h.isPrefix.trans (List.prefix_append _ _)
  empty := h.empty
  room := h.room
  full := h.full
  reads := h.reads
  bounded := h.bounded

/-- A chunk is written when there is room for it. -/
theorem copyChunk (h : pipe.Intact limits sink) (htask : pipe.task = .reading) :
    (pipe.copyChunk limits sink).Intact limits sink := by
  have hroom := h.reads (.inr htask)
  have hchunk : (pipe.incoming.take CHUNK).length ≤ CHUNK := List.length_take_le _ _
  by_cases hgone : ∃ fault, sink = .gone fault
  · -- what is written to a transport that is gone is dropped
    obtain ⟨fault, rfl⟩ := hgone
    exact
      { conserved := fun hsink => absurd rfl (hsink fault)
        isPrefix := h.isPrefix
        empty := h.empty
        room := h.room
        full := h.full
        reads := fun htask => htask.elim nofun nofun
        bounded := h.bounded }
  · have heq : pipe.copyChunk limits sink =
        { pipe with
          outgoing := pipe.outgoing ++ pipe.incoming.take CHUNK
          paused := limits.high < (pipe.outgoing ++ pipe.incoming.take CHUNK).length
          incoming := pipe.incoming.drop CHUNK
          task := .draining } := by
      cases sink with
      | absent | running | closing => rfl
      | gone fault => exact absurd ⟨fault, rfl⟩ hgone
    rw [heq]
    exact
      { conserved := fun hsink => by
          rw [← h.conserved hsink]
          simp only [bytes, List.append_assoc]
          rw [← List.append_assoc (pipe.incoming.take CHUNK), List.take_append_drop]
        isPrefix := h.isPrefix
        empty := fun fault hsink => absurd ⟨fault, hsink⟩ hgone
        room := fun hpaused => not_lt.mp (of_decide_eq_false hpaused)
        full := fun hpaused => limits.low_le.trans_lt (of_decide_eq_true hpaused)
        reads := fun htask => htask.elim nofun nofun
        bounded := by
          rw [List.length_append]
          exact Nat.add_le_add hroom hchunk }

theorem finish (h : pipe.Intact limits sink) (raised : Bool) :
    (pipe.finish raised).Intact limits sink :=
  h.of_bytes_eq rfl rfl rfl rfl rfl fun htask => htask.elim nofun nofun

theorem deliver (h : pipe.Intact limits sink) (hsink : ∀ fault, sink ≠ .gone fault) (count : ℕ) :
    (pipe.deliver limits count).Intact limits sink := by
  have hbytes : (pipe.deliver limits count).bytes = pipe.bytes := by
    simp only [bytes, Pipe.deliver, List.append_assoc]
    rw [← List.append_assoc (pipe.outgoing.take count), List.take_append_drop]
  have hlength : (pipe.outgoing.drop count).length ≤ pipe.outgoing.length := by
    rw [List.length_drop]
    exact Nat.sub_le _ _
  have hconserved : (pipe.deliver limits count).bytes = pipe.sent := by
    rw [hbytes, h.conserved hsink]
  exact
    { conserved := fun _ => hconserved
      isPrefix := ⟨_, hconserved⟩
      empty := fun fault hgone => absurd hgone (hsink fault)
      room := fun hpaused => by
        rcases Bool.and_eq_false_iff.mp hpaused with hpaused | hlow
        · exact hlength.trans (h.room hpaused)
        · exact (not_lt.mp (of_decide_eq_false hlow)).trans limits.low_le
      full := fun hpaused => of_decide_eq_true (Bool.and_eq_true_iff.mp hpaused).2
      reads := fun htask => hlength.trans (h.reads htask)
      bounded := hlength.trans h.bounded }

/-- A transport is gone once its buffer is empty. -/
theorem gone (h : pipe.Intact limits sink) (hempty : pipe.outgoing = []) (fault : Option Fault) :
    pipe.Intact limits (.gone fault) :=
  { h with
    conserved := fun hsink => absurd rfl (hsink fault)
    empty := fun _ _ => hempty }

theorem discard (h : pipe.Intact limits sink) (fault : Option Fault) :
    pipe.discard.Intact limits (.gone fault) where
  conserved hsink := absurd rfl (hsink fault)
  isPrefix := h.isPrefix
  empty _ _ := rfl
  room _ := Nat.zero_le _
  full hpaused := absurd hpaused Bool.false_ne_true
  reads _ := Nat.zero_le _
  bounded := Nat.zero_le _

/-- The transport changes, and none of the two is gone. -/
theorem of_sink {next : Transport} (h : pipe.Intact limits sink)
    (hnext : ∀ fault, next ≠ .gone fault) (hsink : ∀ fault, sink ≠ .gone fault) :
    pipe.Intact limits next :=
  { h with
    conserved := fun _ => h.conserved hsink
    empty := fun fault hgone => absurd hgone (hnext fault) }

end Intact

end Pipe

namespace Forward

variable {s t : Forward}

/-- The invariant of both directions. The tasks are started once the connection is made. -/
structure Intact (limits : Limits) (s : Forward) : Prop where
  pipes : ∀ d, (s.pipe d).Intact limits (s.transport d.sink)
  idle : s.transport .upstream = .absent → ∀ d, (s.pipe d).task = .idle

theorem into_sink (d : Direction) : into d.sink = d := by cases d <;> rfl

theorem sink_into (peer : Peer) : (into peer).sink = peer := by cases peer <;> rfl

theorem sink_injective : Function.Injective Direction.sink :=
  Function.LeftInverse.injective into_sink

namespace Intact

theorem start (limits : Limits) : Forward.start.Intact limits :=
  ⟨fun _ => .start limits _, fun _ _ => rfl⟩

theorem setPipe (h : s.Intact limits) {d : Direction} {pipe : Pipe}
    (hpipe : pipe.Intact limits (s.transport d.sink))
    (hidle : (s.pipe d).task = .idle → pipe.task = .idle) : (s.setPipe d pipe).Intact limits := by
  refine ⟨fun other => ?_, fun habsent other => ?_⟩
  · show (Function.update s.pipe d pipe other).Intact limits (s.transport other.sink)
    rcases eq_or_ne other d with rfl | hne
    · rwa [Function.update_self]
    · rw [Function.update_of_ne hne]
      exact h.pipes other
  · show (Function.update s.pipe d pipe other).task = .idle
    rcases eq_or_ne other d with rfl | hne
    · rw [Function.update_self]
      exact hidle (h.idle habsent other)
    · rw [Function.update_of_ne hne]
      exact h.idle habsent other

/-- A transport, with the direction that is written to it. -/
theorem setTransport (h : s.Intact limits) {d : Direction} {pipe : Pipe} {transport : Transport}
    (hpipe : pipe.Intact limits transport) (hpresent : transport ≠ .absent)
    (hidle : (s.pipe d).task = .idle → pipe.task = .idle) :
    ((s.setPipe d pipe).setTransport d.sink transport).Intact limits := by
  refine ⟨fun other => ?_, fun habsent other => ?_⟩
  · show (Function.update s.pipe d pipe other).Intact limits
      (Function.update s.transport d.sink transport other.sink)
    rcases eq_or_ne other d with rfl | hne
    · rw [Function.update_self, Function.update_self]
      exact hpipe
    · rw [Function.update_of_ne hne, Function.update_of_ne (sink_injective.ne hne)]
      exact h.pipes other
  · have hupstream : s.transport .upstream = .absent := by
      have habsent : Function.update s.transport d.sink transport .upstream = .absent := habsent
      rcases eq_or_ne Peer.upstream d.sink with heq | hne
      · rw [heq, Function.update_self] at habsent
        exact absurd habsent hpresent
      · rwa [Function.update_of_ne hne] at habsent
    show (Function.update s.pipe d pipe other).task = .idle
    rcases eq_or_ne other d with rfl | hne
    · rw [Function.update_self]
      exact hidle (h.idle hupstream _)
    · rw [Function.update_of_ne hne]
      exact h.idle hupstream other

theorem closeBoth (h : s.Intact limits) : s.closeBoth.Intact limits := by
  refine ⟨fun d => ?_, fun habsent => h.idle ?_⟩
  · have hd := h.pipes d
    show (s.pipe d).Intact limits (s.closed d.sink)
    unfold closed
    split
    · rename_i hrunning
      rw [into_sink]
      split_ifs with hempty
      · exact hd.gone hempty none
      · rw [hrunning] at hd
        exact hd.of_sink nofun nofun
    · exact hd
  · have hclosed : s.closed .upstream = .absent := habsent
    unfold closed at hclosed
    split at hclosed
    · split_ifs at hclosed
    · exact hclosed

/-- The tasks start with empty buffers. -/
theorem opened (h : s.Intact limits) (habsent : s.transport .upstream = .absent) :
    s.opened.Intact limits := by
  refine ⟨fun d => ?_, fun hpresent => ?_⟩
  · have hreading : ({ s.pipe d with task := .reading } : Pipe).Intact limits
        (s.transport d.sink) :=
      (h.pipes d).of_bytes_eq rfl rfl rfl rfl rfl
        fun _ => (h.pipes d).reads (.inl (h.idle habsent d))
    show Pipe.Intact limits (Function.update s.transport .upstream .running d.sink) _
    rcases eq_or_ne d.sink .upstream with hsink | hne
    · rw [hsink, Function.update_self]
      rw [hsink, habsent] at hreading
      exact hreading.of_sink nofun nofun
    · rwa [Function.update_of_ne hne]
  · have hpresent : Function.update s.transport .upstream .running .upstream = .absent := hpresent
    rw [Function.update_self] at hpresent
    cases hpresent

/-- **A step keeps the bytes in their order**, whatever it does. -/
theorem step (h : s.Intact limits) {event : Event} (hstep : s.step limits event = some t) :
    t.Intact limits := by
  cases move_of_step hstep with
  | @send d bytes => exact h.setPipe ((h.pipes d).send bytes) id
  | @shut d => exact h.setPipe ((h.pipes d).of_bytes_eq rfl rfl rfl rfl rfl (h.pipes d).reads) id
  | connect habsent => exact h.opened habsent
  | refuse => exact h.closeBoth
  | @receive d count =>
    refine h.setPipe ((h.pipes d).of_bytes_eq ?_ rfl rfl rfl rfl (h.pipes d).reads) id
    simp only [Pipe.bytes, List.append_assoc, List.take_append_drop]
  | @receiveEof d =>
    exact h.setPipe ((h.pipes d).of_bytes_eq rfl rfl rfl rfl rfl (h.pipes d).reads) id
  | @copy d eofRaises hreading =>
    refine h.setPipe ((h.pipes d).copyChunk hreading) fun hidle => ?_
    cases hreading.symm.trans hidle
  | @finish d eofRaises hreading =>
    refine h.setPipe ((h.pipes d).finish eofRaises) fun hidle => ?_
    cases hreading.symm.trans hidle
  | @drain d hdraining hpaused =>
    refine h.setPipe ((h.pipes d).of_bytes_eq rfl rfl rfl rfl rfl
      fun _ => (h.pipes d).room hpaused) fun hidle => ?_
    cases hdraining.symm.trans hidle
  | @fail _ d raised _ hwaits =>
    refine h.setPipe ((h.pipes d).finish raised) fun hidle => ?_
    rcases hwaits with hwaits | hwaits <;> cases hwaits.symm.trans hidle
  | @deliver d count _ _ hsink =>
    refine h.setPipe ((h.pipes d).deliver ?_ count) id
    intro fault hgone
    rcases hsink with hsink | ⟨hsink, -⟩ <;> cases hsink.symm.trans hgone
  | @drained d count _ _ hsink hempty =>
    have hdelivered : ((s.pipe d).deliver limits count).Intact limits (s.transport d.sink) :=
      (h.pipes d).deliver (fun fault hgone => nomatch hsink.symm.trans hgone) count
    exact h.setTransport (hdelivered.gone hempty none) nofun id
  | @lose peer fault =>
    have hlost := h.setTransport ((h.pipes (into peer)).discard (some fault)) nofun id
    rwa [sink_into] at hlost
  | close => exact h.closeBoth

end Intact

theorem intact_of_run {events : List Event} (h : run (step limits) start events = some s) :
    s.Intact limits :=
  (reaches_iff_run.mpr ⟨events, h⟩).invariant (.start limits) fun _ _ _ ht hstep => ht.step hstep

end Forward

/-! ## Runs without a failure -/

/-- What holds of a direction where nothing fails. -/
structure Pipe.Sound (pipe : Pipe) : Prop where
  conserved : pipe.bytes = pipe.sent
  eof : pipe.eof = true → pipe.closed = true ∧ pipe.socket = []
  done : ∀ raised, pipe.task = .done raised →
    raised = false ∧ pipe.eof = true ∧ pipe.incoming = [] ∧ pipe.wroteEof = true
  wrote : pipe.wroteEof = true → ∃ raised, pipe.task = .done raised

namespace Forward

variable {s t : Forward}

/-- The connection to the socket is not made yet. -/
structure Connecting (s : Forward) : Prop where
  finished : s.finished = false
  client : s.transport .client = .running
  upstream : s.transport .upstream = .absent
  idle : ∀ d, (s.pipe d).task = .idle

/-- `gather` is awaited. -/
structure Forwarding (s : Forward) : Prop where
  finished : s.finished = false
  running : ∀ peer, s.transport peer = .running
  started : ∀ d, (s.pipe d).task ≠ .idle

/-- A transport that was closed. -/
def Closes (transport : Transport) (pipe : Pipe) : Prop :=
  transport = .closing ∧ pipe.outgoing ≠ [] ∨ transport = .gone none ∧ pipe.outgoing = []

/-- Both tasks have returned. -/
structure Finished (s : Forward) : Prop where
  finished : s.finished = true
  done : ∀ d, (s.pipe d).task = .done false
  closes : ∀ d, Closes (s.transport d.sink) (s.pipe d)

/-- **The invariant where nothing fails.** -/
structure Sound (s : Forward) : Prop where
  pipes : ∀ d, (s.pipe d).Sound
  phase : s.Connecting ∨ s.Forwarding ∨ s.Finished

theorem forall_setPipe {P : Direction → Pipe → Prop} {d : Direction} {pipe : Pipe}
    (h : ∀ other, P other (s.pipe other)) (hd : P d pipe) (other : Direction) :
    P other ((s.setPipe d pipe).pipe other) := by
  show P other (Function.update s.pipe d pipe other)
  rcases eq_or_ne other d with rfl | hne
  · rwa [Function.update_self]
  · rw [Function.update_of_ne hne]
    exact h other

namespace Sound

theorem start : Forward.start.Sound where
  pipes _ :=
    ⟨rfl, fun h => absurd h Bool.false_ne_true, nofun, fun h => absurd h Bool.false_ne_true⟩
  phase := .inl ⟨rfl, rfl, rfl, fun _ => rfl⟩

/-- A task that is at an await is one of a connection. -/
theorem forwarding (h : s.Sound) {d : Direction} (hwaits : (s.pipe d).Waits) : s.Forwarding := by
  rcases h.phase with hphase | hphase | hphase
  · rcases hwaits with hwaits | hwaits <;> cases hwaits.symm.trans (hphase.idle d)
  · exact hphase
  · rcases hwaits with hwaits | hwaits <;> cases hwaits.symm.trans (hphase.done d)

/-- What a peer and the sockets do to a direction. -/
theorem setPipe (h : s.Sound) {d : Direction} {pipe : Pipe} (hpipe : pipe.Sound)
    (htask : pipe.task = (s.pipe d).task) (hout : pipe.outgoing = (s.pipe d).outgoing) :
    (s.setPipe d pipe).Sound := by
  refine ⟨forall_setPipe (P := fun _ pipe => pipe.Sound) h.pipes hpipe, ?_⟩
  rcases h.phase with hphase | hphase | hphase
  · refine .inl ⟨hphase.finished, hphase.client, hphase.upstream, ?_⟩
    exact forall_setPipe (P := fun _ pipe => pipe.task = .idle) hphase.idle
      (htask.trans (hphase.idle d))
  · refine .inr (.inl ⟨hphase.finished, hphase.running, ?_⟩)
    exact forall_setPipe (P := fun _ pipe => pipe.task ≠ .idle) hphase.started
      (htask ▸ hphase.started d)
  · refine .inr (.inr ⟨hphase.finished, ?_, ?_⟩)
    · exact forall_setPipe (P := fun _ pipe => pipe.task = .done false) hphase.done
        (htask.trans (hphase.done d))
    · refine forall_setPipe (P := fun other pipe => Closes (s.transport other.sink) pipe)
        hphase.closes ?_
      have hcloses := hphase.closes d
      rwa [Closes, ← hout] at hcloses

/-- What a task does to its direction. -/
theorem setTask (h : s.Sound) (hforwarding : s.Forwarding) {d : Direction} {pipe : Pipe}
    (hpipe : pipe.Sound) (hstarted : pipe.task ≠ .idle) : (s.setPipe d pipe).Sound := by
  refine ⟨forall_setPipe (P := fun _ pipe => pipe.Sound) h.pipes hpipe, ?_⟩
  refine .inr (.inl ⟨hforwarding.finished, hforwarding.running, ?_⟩)
  exact forall_setPipe (P := fun _ pipe => pipe.task ≠ .idle) hforwarding.started hstarted

theorem opened (h : s.Sound) (habsent : s.transport .upstream = .absent)
    (hfinished : s.finished = false) : s.opened.Sound := by
  have hconnecting : s.Connecting := by
    rcases h.phase with hphase | hphase | hphase
    · exact hphase
    · cases habsent.symm.trans (hphase.running _)
    · cases hfinished.symm.trans hphase.finished
  refine ⟨fun d => ?_, .inr (.inl ⟨hfinished, fun peer => ?_, fun d => nofun⟩)⟩
  · have hd := h.pipes d
    refine ⟨hd.conserved, hd.eof, nofun, fun hwrote => ?_⟩
    obtain ⟨raised, hraised⟩ := hd.wrote hwrote
    cases hraised.symm.trans (hconnecting.idle d)
  · show Function.update s.transport .upstream .running peer = .running
    cases peer with
    | client =>
      have hne : Peer.client ≠ .upstream := nofun
      rw [Function.update_of_ne hne]
      exact hconnecting.client
    | upstream => exact Function.update_self _ _ _

theorem copyChunk (h : s.Sound) {d : Direction} (hreading : (s.pipe d).task = .reading) :
    (s.setPipe d ((s.pipe d).copyChunk limits (s.transport d.sink))).Sound := by
  have hforwarding := h.forwarding (.inl hreading)
  have hd := h.pipes d
  refine h.setTask hforwarding ?_ nofun
  rw [hforwarding.running]
  refine ⟨?_, hd.eof, nofun, fun hwrote => ?_⟩
  · refine Eq.trans ?_ hd.conserved
    simp only [Pipe.bytes, Pipe.copyChunk, Pipe.write, List.append_assoc]
    rw [← List.append_assoc ((s.pipe d).incoming.take CHUNK), List.take_append_drop]
  · obtain ⟨raised, hraised⟩ := hd.wrote hwrote
    cases hreading.symm.trans hraised

theorem finish (h : s.Sound) {d : Direction} (hreading : (s.pipe d).task = .reading)
    (hincoming : (s.pipe d).incoming = [])
    (heof : (s.pipe d).eof = true ∨ s.transport d.source = .gone none) :
    (s.setPipe d ((s.pipe d).finish false)).Sound := by
  have hforwarding := h.forwarding (.inl hreading)
  have hd := h.pipes d
  have heof : (s.pipe d).eof = true :=
    heof.resolve_right fun hgone => nomatch hgone.symm.trans (hforwarding.running _)
  refine h.setTask hforwarding ⟨hd.conserved, hd.eof, ?_, fun _ => ⟨false, rfl⟩⟩ nofun
  rintro raised ⟨⟩
  exact ⟨rfl, heof, hincoming, rfl⟩

theorem deliver_pipe {pipe : Pipe} (h : pipe.Sound) (count : ℕ) :
    (pipe.deliver limits count).Sound := by
  refine ⟨?_, h.eof, h.done, h.wrote⟩
  refine Eq.trans ?_ h.conserved
  simp only [Pipe.bytes, Pipe.deliver, List.append_assoc]
  rw [← List.append_assoc (pipe.outgoing.take count), List.take_append_drop]

theorem deliver (h : s.Sound) {d : Direction} {count : ℕ}
    (hsink : s.transport d.sink = .running ∨
      s.transport d.sink = .closing ∧ (s.pipe d).outgoing.drop count ≠ []) :
    (s.setPipe d ((s.pipe d).deliver limits count)).Sound := by
  have hd : ((s.pipe d).deliver limits count).Sound := deliver_pipe (h.pipes d) count
  refine ⟨forall_setPipe (P := fun _ pipe => pipe.Sound) h.pipes hd, ?_⟩
  rcases h.phase with hphase | hphase | hphase
  · refine .inl ⟨hphase.finished, hphase.client, hphase.upstream, ?_⟩
    exact forall_setPipe (P := fun _ pipe => pipe.task = .idle) hphase.idle (hphase.idle d)
  · refine .inr (.inl ⟨hphase.finished, hphase.running, ?_⟩)
    exact forall_setPipe (P := fun _ pipe => pipe.task ≠ .idle) hphase.started (hphase.started d)
  · refine .inr (.inr ⟨hphase.finished, ?_, ?_⟩)
    · exact forall_setPipe (P := fun _ pipe => pipe.task = .done false) hphase.done
        (hphase.done d)
    · refine forall_setPipe (P := fun other pipe => Closes (s.transport other.sink) pipe)
        hphase.closes ?_
      rcases hsink with hsink | ⟨hsink, hleft⟩
      · rcases hphase.closes d with ⟨hcloses, -⟩ | ⟨hcloses, -⟩ <;>
          cases hsink.symm.trans hcloses
      · exact .inl ⟨hsink, hleft⟩

theorem drained (h : s.Sound) {d : Direction} {count : ℕ} (hsink : s.transport d.sink = .closing)
    (hempty : (s.pipe d).outgoing.drop count = []) :
    ((s.setPipe d ((s.pipe d).deliver limits count)).setTransport d.sink (.gone none)).Sound := by
  have hd : ((s.pipe d).deliver limits count).Sound := deliver_pipe (h.pipes d) count
  have hfinished : s.Finished := by
    rcases h.phase with hphase | hphase | hphase
    · cases d
      · cases hsink.symm.trans hphase.upstream
      · cases hsink.symm.trans hphase.client
    · cases hsink.symm.trans (hphase.running _)
    · exact hphase
  refine ⟨forall_setPipe (P := fun _ pipe => pipe.Sound) h.pipes hd,
    .inr (.inr ⟨hfinished.finished, ?_, fun other => ?_⟩)⟩
  · exact forall_setPipe (P := fun _ pipe => pipe.task = .done false) hfinished.done
      (hfinished.done d)
  · show Closes (Function.update s.transport d.sink (.gone none) other.sink)
      (Function.update s.pipe d _ other)
    rcases eq_or_ne other d with rfl | hne
    · rw [Function.update_self, Function.update_self]
      exact .inr ⟨rfl, hempty⟩
    · rw [Function.update_of_ne hne, Function.update_of_ne (sink_injective.ne hne)]
      exact hfinished.closes other

theorem closeBoth (h : s.Sound) (hgathered : s.Gathered) (hfinished : s.finished = false) :
    s.closeBoth.Sound := by
  have hdone : ∀ d, (s.pipe d).task = .done false := by
    rcases hgathered with ⟨d, hraised⟩ | hdone
    · cases ((h.pipes d).done true hraised).1
    · exact hdone
  have hforwarding : s.Forwarding := by
    rcases h.phase with hphase | hphase | hphase
    · cases (hdone .request).symm.trans (hphase.idle .request)
    · exact hphase
    · cases hfinished.symm.trans hphase.finished
  refine ⟨h.pipes, .inr (.inr ⟨rfl, hdone, fun d => ?_⟩)⟩
  show Closes (s.closed d.sink) (s.pipe d)
  rw [closed, hforwarding.running, into_sink]
  split_ifs with hempty
  · exact .inr ⟨rfl, hempty⟩
  · exact .inl ⟨rfl, hempty⟩

theorem step (h : s.Sound) {event : Event} (hevent : ¬ event.IsFailure)
    (hstep : s.step limits event = some t) : t.Sound := by
  cases move_of_step hstep with
  | @send d bytes _ hclosed =>
    have hd := h.pipes d
    refine h.setPipe ⟨?_, fun heof => ?_, hd.done, hd.wrote⟩ rfl rfl
    · show _ = (s.pipe d).sent ++ bytes
      rw [← hd.conserved]
      simp only [Pipe.bytes, List.append_assoc]
    · cases hclosed.symm.trans (hd.eof heof).1
  | @shut d =>
    have hd := h.pipes d
    exact h.setPipe ⟨hd.conserved, fun heof => ⟨rfl, (hd.eof heof).2⟩, hd.done, hd.wrote⟩ rfl rfl
  | connect habsent hfinished => exact h.opened habsent hfinished
  | refuse => exact absurd rfl hevent
  | @receive d count hrunning hpos hcount =>
    have hd := h.pipes d
    refine h.setPipe ⟨?_, fun heof => ?_, fun raised hdone => ?_, hd.wrote⟩ rfl rfl
    · refine Eq.trans ?_ hd.conserved
      simp only [Pipe.bytes, List.append_assoc, List.take_append_drop]
    · obtain ⟨hclosed, hsocket⟩ := hd.eof heof
      exact ⟨hclosed, by simp only [hsocket, List.drop_nil]⟩
    · obtain ⟨hraised, heof, hincoming, hwrote⟩ := hd.done raised hdone
      refine ⟨hraised, heof, ?_, hwrote⟩
      simp only [hincoming, (hd.eof heof).2, List.take_nil, List.append_nil]
  | @receiveEof d _ hclosed hsocket _ =>
    have hd := h.pipes d
    refine h.setPipe ⟨hd.conserved, fun _ => ⟨hclosed, hsocket⟩, fun raised hdone => ?_,
      hd.wrote⟩ rfl rfl
    obtain ⟨hraised, -, hrest⟩ := hd.done raised hdone
    exact ⟨hraised, rfl, hrest⟩
  | copy hreading => exact h.copyChunk hreading
  | @finish d eofRaises hreading hincoming heof =>
    have hsuppressed : eofRaises = false := Bool.eq_false_iff.mpr hevent
    rw [hsuppressed]
    exact h.finish hreading hincoming heof
  | @drain d hdraining =>
    have hd := h.pipes d
    refine h.setTask (h.forwarding (.inr hdraining)) ⟨hd.conserved, hd.eof, nofun,
      fun hwrote => ?_⟩ nofun
    obtain ⟨raised, hraised⟩ := hd.wrote hwrote
    cases hdraining.symm.trans hraised
  | fail hfailure => exact absurd hfailure hevent
  | deliver _ _ hsink => exact h.deliver hsink
  | drained _ _ hsink hempty => exact h.drained hsink hempty
  | lose => exact absurd trivial hevent
  | close hgathered hfinished => exact h.closeBoth hgathered hfinished

end Sound

theorem sound_of_unfailing {events : List Event} (h : run (step limits) start events = some s)
    (hevents : ∀ event ∈ events, ¬ event.IsFailure) : s.Sound := by
  refine run_invariant (P := fun events s => (∀ event ∈ events, ¬ event.IsFailure) → s.Sound) h
    (fun _ => .start) (fun events t event u ht hstep hall => ?_) hevents
  have hevent := hall event (List.mem_append_right _ List.mem_cons_self)
  exact (ht fun event hmem => hall event (List.mem_append_left _ hmem)).step hevent hstep

/-! ## What the proxy promises -/

/-- Nothing goes on until a peer sends or something fails. -/
def Settled (limits : Limits) (s : Forward) : Prop :=
  ∀ event : Event, event.IsOwn → s.step limits event = none

/-- What was sent has been delivered, streams that were ended have ended, and a connection with two
ended streams is closed. -/
structure Delivered (s : Forward) : Prop where
  delivered : ∀ d, (s.pipe d).delivered = (s.pipe d).sent
  ended : ∀ d, (s.pipe d).closed = true → (s.pipe d).Ended
  gone : (∀ d, (s.pipe d).closed = true) → ∀ peer, s.transport peer = .gone none

/-- Bytes are delivered in the order in which they were sent, few of them are in a write buffer, and
the proxy comes to rest: in any continuation, only so many events are not the peers' own, and four
for each byte that they send. Where nothing fails, the end of a stream comes behind its last byte,
and nothing is held back. -/
structure Relayed (limits : Limits) (events : List Event) (s : Forward) : Prop where
  isPrefix : ∀ d, (s.pipe d).delivered <+: (s.pipe d).sent
  bounded : ∀ d, (s.pipe d).outgoing.length ≤ limits.high + CHUNK
  rests : ∃ bound, ∀ (more : List Event) (t : Forward), run (step limits) s more = some t →
    (more.countP fun event => ¬ event.IsPeer) ≤ bound + 4 * (more.flatMap Event.bytes).length
  complete : (∀ event ∈ events, ¬ event.IsFailure) → ∀ d, (s.pipe d).Ended →
    (s.pipe d).closed = true ∧ (s.pipe d).delivered = (s.pipe d).sent
  settled : (∀ event ∈ events, ¬ event.IsFailure) → s.Settled limits → s.Delivered

theorem Sound.ended (h : s.Sound) {d : Direction} (hended : (s.pipe d).Ended) :
    (s.pipe d).closed = true ∧ (s.pipe d).delivered = (s.pipe d).sent := by
  have hd := h.pipes d
  obtain ⟨raised, hdone⟩ := hd.wrote hended.1
  obtain ⟨-, heof, hincoming, -⟩ := hd.done raised hdone
  obtain ⟨hclosed, hsocket⟩ := hd.eof heof
  refine ⟨hclosed, ?_⟩
  rw [← hd.conserved, Pipe.bytes, hended.2, hincoming, hsocket]
  simp only [List.append_nil]

namespace Settled

/-- An event that could happen would. -/
theorem elim {C : Prop} (h : s.Settled limits) {event : Event} (hown : event.IsOwn)
    (hstep : s.step limits event = some t) : C := by
  rw [h event hown] at hstep
  cases hstep

theorem outgoing (h : s.Settled limits) {d : Direction}
    (hsink : s.transport d.sink = .running ∨ s.transport d.sink = .closing) :
    (s.pipe d).outgoing = [] := by
  by_contra hne
  have hpos := List.length_pos_of_ne_nil hne
  have hown : (Event.deliver d (s.pipe d).outgoing.length).IsOwn := ⟨id, id⟩
  have hnone := h _ hown
  rw [step, if_pos ⟨hpos, le_rfl⟩] at hnone
  rcases hsink with hsink | hsink <;> simp only [hsink, reduceCtorEq] at hnone

theorem socket (h : s.Settled limits) {d : Direction} (hsource : s.transport d.source = .running) :
    (s.pipe d).socket = [] := by
  by_contra hne
  have hpos := List.length_pos_of_ne_nil hne
  have hown : (Event.receive d (s.pipe d).socket.length).IsOwn := ⟨id, id⟩
  exact h.elim hown (if_pos ⟨hsource, hpos, le_rfl⟩)

theorem eof (h : s.Settled limits) {d : Direction} (hsource : s.transport d.source = .running)
    (hclosed : (s.pipe d).closed = true) : (s.pipe d).eof = true := by
  by_contra hne
  have hown : (Event.receiveEof d).IsOwn := ⟨id, id⟩
  exact h.elim hown (if_pos ⟨hsource, hclosed, h.socket hsource, hne⟩)

/-- A task of a connection at rest waits for bytes, or has returned. -/
theorem task (h : s.Settled limits) (hintact : s.Intact limits) (hforwarding : s.Forwarding)
    (d : Direction) :
    (s.pipe d).task = .reading ∧ (s.pipe d).incoming = [] ∧ (s.pipe d).eof = false ∨
      ∃ raised, (s.pipe d).task = .done raised := by
  have hsink := hforwarding.running d.sink
  have hsource := hforwarding.running d.source
  cases htask : (s.pipe d).task with
  | idle => exact absurd htask (hforwarding.started d)
  | reading =>
    refine .inl ⟨rfl, ?_⟩
    have hown : (Event.read d false).IsOwn := ⟨id, Bool.false_ne_true⟩
    have hnone := h _ hown
    simp only [step, readPipe, htask, hsource, Option.map_eq_none_iff, reduceCtorEq,
      or_false] at hnone
    split_ifs at hnone with hincoming heof
    exact ⟨not_not.mp hincoming, Bool.eq_false_iff.mpr heof⟩
  | draining =>
    -- a transport without bytes does not hold its writer up
    have hpaused : ¬ (s.pipe d).paused = true := fun hpaused => by
      have hfull := (hintact.pipes d).full hpaused
      rw [h.outgoing (.inl hsink)] at hfull
      exact Nat.not_lt_zero _ hfull
    have hown : (Event.drain d).IsOwn := ⟨id, id⟩
    exact h.elim hown (if_pos ⟨htask, hpaused, .inl hsink⟩)
  | done raised => exact .inr ⟨raised, rfl⟩

end Settled

/-- **Nothing is held back** where nothing fails. -/
theorem Sound.delivered (h : s.Sound) (hintact : s.Intact limits) (hsettled : s.Settled limits) :
    s.Delivered := by
  rcases h.phase with hphase | hphase | hphase
  · have hown : (Event.connect true).IsOwn := ⟨id, nofun⟩
    exact hsettled.elim hown
      (if_pos ⟨hphase.upstream, Bool.eq_false_iff.mp hphase.finished⟩)
  · have hout : ∀ d, (s.pipe d).outgoing = [] := fun d =>
      hsettled.outgoing (.inl (hphase.running _))
    have hsocket : ∀ d, (s.pipe d).socket = [] := fun d => hsettled.socket (hphase.running _)
    have hended : ∀ d, (s.pipe d).closed = true → (s.pipe d).task = .done false ∧
        (s.pipe d).Ended := fun d hclosed => by
      have heof := hsettled.eof (hphase.running _) hclosed
      rcases hsettled.task hintact hphase d with ⟨-, -, hnot⟩ | ⟨raised, hdone⟩
      · cases heof.symm.trans hnot
      · obtain ⟨rfl, -, -, hwrote⟩ := (h.pipes d).done raised hdone
        exact ⟨hdone, hwrote, hout d⟩
    refine ⟨fun d => ?_, fun d hclosed => (hended d hclosed).2, fun hall => ?_⟩
    · have hincoming : (s.pipe d).incoming = [] := by
        rcases hsettled.task hintact hphase d with ⟨-, hincoming, -⟩ | ⟨raised, hdone⟩
        · exact hincoming
        · exact ((h.pipes d).done raised hdone).2.2.1
      rw [← (h.pipes d).conserved, Pipe.bytes, hout, hincoming, hsocket]
      simp only [List.append_nil]
    · -- the tasks have returned, so that the connection would be closed
      have hgathered : s.Gathered := .inr fun d => (hended d (hall d)).1
      have hown : Event.close.IsOwn := ⟨id, id⟩
      exact hsettled.elim hown (if_pos ⟨hgathered, Bool.eq_false_iff.mp hphase.finished⟩)
  · have hgone : ∀ d, s.transport d.sink = .gone none ∧ (s.pipe d).outgoing = [] := fun d => by
      rcases hphase.closes d with ⟨hclosing, hleft⟩ | hgone
      · exact absurd (hsettled.outgoing (.inr hclosing)) hleft
      · exact hgone
    have hended : ∀ d, (s.pipe d).Ended := fun d =>
      ⟨((h.pipes d).done false (hphase.done d)).2.2.2, (hgone d).2⟩
    refine ⟨fun d => (h.ended (hended d)).2, fun d _ => hended d, fun _ peer => ?_⟩
    have hpeer := (hgone (into peer)).1
    rwa [sink_into] at hpeer

end Forward

/-! ## The proxy comes to rest -/

/-- What is left for a task to do, but for the bytes. -/
def Task.work : Task → ℕ
  | .idle => 2
  | .reading => 1
  | .draining => 2
  | .done _ => 0

/-- What is left to do in a direction; a byte that moves on takes some of it. -/
def Pipe.work (pipe : Pipe) : ℕ :=
  4 * pipe.socket.length + 3 * pipe.incoming.length + pipe.outgoing.length +
    (!pipe.eof).toNat + pipe.task.work

theorem Pipe.work_copyChunk {sink : Transport} {pipe : Pipe} (hreading : pipe.task = .reading)
    (hincoming : pipe.incoming ≠ []) : (pipe.copyChunk limits sink).work < pipe.work := by
  have hpos := List.length_pos_of_ne_nil hincoming
  have hwritten : (pipe.copyChunk limits sink).outgoing.length ≤
      pipe.outgoing.length + min CHUNK pipe.incoming.length := by
    cases sink with
    | absent | running | closing =>
      exact (List.length_append.trans (congrArg _ (List.length_take ..))).le
    | gone fault => exact Nat.le_add_right _ _
  have hchunk : 0 < CHUNK := Nat.mul_pos (by decide) (by decide)
  have hleft : (pipe.copyChunk limits sink).incoming.length = pipe.incoming.length - CHUNK :=
    List.length_drop ..
  have htask : (pipe.copyChunk limits sink).task.work = 2 := rfl
  have hsocket : (pipe.copyChunk limits sink).socket = pipe.socket := by cases sink <;> rfl
  have heof : (pipe.copyChunk limits sink).eof = pipe.eof := by cases sink <;> rfl
  rw [work, work, hsocket, heof, hleft, htask, hreading, Task.work]
  omega

theorem Pipe.work_finish {raised : Bool} {pipe : Pipe} (hwaits : pipe.Waits) :
    (pipe.finish raised).work < pipe.work := by
  rcases hwaits with hreading | hdraining
  · simp only [work, Pipe.finish, hreading, Task.work]
    omega
  · simp only [work, Pipe.finish, hdraining, Task.work]
    omega

theorem Pipe.work_deliver {count : ℕ} {pipe : Pipe} (hpos : 0 < count)
    (hcount : count ≤ pipe.outgoing.length) : (pipe.deliver limits count).work < pipe.work := by
  simp only [work, Pipe.deliver, List.length_drop]
  omega

theorem Pipe.work_discard (pipe : Pipe) : pipe.discard.work ≤ pipe.work := by
  simp only [work, discard, List.length_nil]
  omega

namespace Forward

variable {s t : Forward}

/-- What is left to do for the two directions, with the transports that can still be lost. -/
def work (s : Forward) : ℕ :=
  (s.pipe .request).work + (s.pipe .response).work + (!(s.transport .client).isGone).toNat +
    (!(s.transport .upstream).isGone).toNat + (!s.finished).toNat

theorem work_setPipe (s : Forward) (d : Direction) (pipe : Pipe) :
    (s.setPipe d pipe).work + (s.pipe d).work = s.work + pipe.work := by
  have hne : Direction.request ≠ .response := nofun
  have hne' : Direction.response ≠ .request := nofun
  cases d <;>
    simp only [work, Forward.setPipe, Function.update_self, Function.update_of_ne hne,
      Function.update_of_ne hne'] <;>
    omega

theorem work_setPipe_lt {d : Direction} {pipe : Pipe} (h : pipe.work < (s.pipe d).work) :
    (s.setPipe d pipe).work < s.work := by
  have heq := s.work_setPipe d pipe
  omega

theorem work_gone (s : Forward) (peer : Peer) (fault : Option Fault) :
    (s.setTransport peer (.gone fault)).work + (!(s.transport peer).isGone).toNat = s.work := by
  have hne : Peer.client ≠ .upstream := nofun
  have hne' : Peer.upstream ≠ .client := nofun
  cases peer <;>
    simp only [work, Forward.setTransport, Function.update_self, Function.update_of_ne hne,
      Function.update_of_ne hne', Transport.isGone, Bool.not_true, Bool.toNat_false] <;>
    omega

theorem isGone_closed (s : Forward) (peer : Peer) :
    (!(s.closed peer).isGone).toNat ≤ (!(s.transport peer).isGone).toNat := by
  unfold closed
  split
  · rename_i hrunning
    rw [hrunning]
    exact Bool.toNat_le _
  · exact le_rfl

theorem work_closeBoth (hfinished : s.finished = false) : s.closeBoth.work < s.work := by
  have hclient := s.isGone_closed .client
  have hupstream := s.isGone_closed .upstream
  simp only [work, closeBoth, hfinished, Bool.not_true, Bool.not_false, Bool.toNat_true,
    Bool.toNat_false]
  omega

theorem work_opened (hidle : ∀ d, (s.pipe d).task = .idle)
    (habsent : s.transport .upstream = .absent) : s.opened.work < s.work := by
  have hne : Peer.client ≠ .upstream := nofun
  simp only [work, Pipe.work, opened, hidle, Task.work, habsent, Function.update_self,
    Function.update_of_ne hne, Transport.isGone]
  omega

/-- What the proxy and its sockets do leaves less to do, and so does what fails. -/
theorem work_lt_of_step (h : s.Intact limits) {event : Event} (hpeer : ¬ event.IsPeer)
    (hstep : s.step limits event = some t) : t.work < s.work := by
  cases move_of_step hstep with
  | send | shut => exact absurd trivial hpeer
  | connect habsent => exact work_opened (h.idle habsent) habsent
  | refuse hfinished => exact work_closeBoth hfinished
  | @receive d count _ hpos hcount =>
    refine work_setPipe_lt ?_
    simp only [Pipe.work, List.length_append, List.length_drop, List.length_take]
    omega
  | @receiveEof d _ _ _ heof =>
    refine work_setPipe_lt ?_
    simp only [Pipe.work, heof, Bool.not_true, Bool.not_false, Bool.toNat_true, Bool.toNat_false]
    omega
  | copy hreading hincoming => exact work_setPipe_lt (Pipe.work_copyChunk hreading hincoming)
  | @finish d eofRaises hreading => exact work_setPipe_lt (Pipe.work_finish (.inl hreading))
  | @drain d hdraining =>
    refine work_setPipe_lt ?_
    simp only [Pipe.work, hdraining, Task.work]
    omega
  | @fail _ d raised _ hwaits => exact work_setPipe_lt (Pipe.work_finish hwaits)
  | deliver hpos hcount => exact work_setPipe_lt (Pipe.work_deliver hpos hcount)
  | @drained d count hpos hcount =>
    have hlt : (s.setPipe d ((s.pipe d).deliver limits count)).work < s.work :=
      work_setPipe_lt (Pipe.work_deliver hpos hcount)
    have hgone := (s.setPipe d ((s.pipe d).deliver limits count)).work_gone d.sink none
    omega
  | @lose peer fault hpresent =>
    have hdiscard := s.work_setPipe (into peer) (s.pipe (into peer)).discard
    have hle := (s.pipe (into peer)).work_discard
    have hgone := (s.setPipe (into peer) (s.pipe (into peer)).discard).work_gone peer (some fault)
    rw [setPipe, hpresent, Bool.not_false, Bool.toNat_true] at hgone
    rw [setPipe] at hdiscard ⊢
    omega
  | close _ hfinished => exact work_closeBoth hfinished

/-- A byte that a peer sends has to be received, copied and delivered. -/
theorem work_le_of_peer {event : Event} (hpeer : event.IsPeer)
    (hstep : s.step limits event = some t) : t.work ≤ s.work + 4 * event.bytes.length := by
  cases move_of_step hstep with
  | @send d bytes =>
    have heq := s.work_setPipe d
      { s.pipe d with sent := (s.pipe d).sent ++ bytes, socket := (s.pipe d).socket ++ bytes }
    simp only [Pipe.work, List.length_append] at heq
    simp only [Event.bytes]
    omega
  | @shut d =>
    have heq := s.work_setPipe d { s.pipe d with closed := true }
    have hpipe : ({ s.pipe d with closed := true } : Pipe).work = (s.pipe d).work := rfl
    omega
  | fail hfailure =>
    cases event with
    | send | shut => exact hfailure.elim
    | _ => exact hpeer.elim
  | connect | refuse | receive | receiveEof | copy | finish | drain | deliver | drained | lose
  | close => exact hpeer.elim

/-- **The proxy relays**: bytes are neither lost nor repeated nor reordered. -/
theorem relayed_of_run {events : List Event} (h : run (step limits) start events = some s) :
    s.Relayed limits events := by
  have hintact := intact_of_run h
  refine ⟨fun d => (hintact.pipes d).isPrefix, fun d => (hintact.pipes d).bounded,
    ⟨s.work, fun more t hrun => ?_⟩, fun hall d hended => ?_, fun hall hsettled => ?_⟩
  · have hcount := countP_le_of_run (Q := fun event => ¬ event.IsPeer) work
      (fun event => 4 * event.bytes.length) hrun hintact (fun u event v hu => hu.step)
      (fun u event v hu => work_lt_of_step hu)
      (fun u event v _ hpeer => work_le_of_peer (not_not.mp hpeer))
    have hincome : (more.map fun event => 4 * event.bytes.length).sum =
        4 * (more.flatMap Event.bytes).length := by
      rw [List.sum_map_mul_left, List.length_flatMap]
    rwa [hincome] at hcount
  · exact (sound_of_unfailing h hall).ended hended
  · exact (sound_of_unfailing h hall).delivered hintact hsettled

/-- A client that sends two bytes and ends its stream. -/
theorem relayed_two_bytes : ∃ s : Forward,
    run (step ⟨4, 1, by decide⟩) start
      [.connect true, .send .request [71, 10], .receive .request 2, .read .request false,
        .deliver .request 2, .drain .request, .shut .request, .receiveEof .request,
        .read .request false] = some s ∧
      (s.pipe .request).Ended ∧ (s.pipe .request).delivered = [71, 10] ∧
      s.Relayed ⟨4, 1, by decide⟩
        [.connect true, .send .request [71, 10], .receive .request 2, .read .request false,
          .deliver .request 2, .drain .request, .shut .request, .receiveEof .request,
          .read .request false] :=
  ⟨_, rfl, ⟨rfl, rfl⟩, rfl, relayed_of_run rfl⟩

end Forward

end UnixSocketProxy
