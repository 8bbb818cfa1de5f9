import Mathlib.Data.List.Basic
import Mathlib.Logic.Function.Basic
import CodingOpd.Library.Transition
import CodingOpd.Python.Utf8

/-!
# Forwarding a connection

`unix_socket_http_proxy.py` gives every client that connects a connection to the model's socket, and
copies the bytes of each to the other with two tasks of `_copy`. The state is that of one `_forward`
between two awaits: the streams and transports of `asyncio` under it, and the two tasks.

## Main definitions

* `Pipe`: one direction of a connection, from the bytes that were sent to those that were delivered
* `Forward`, `Event`: the state of `_forward`, and what can happen to it
* `Forward.step`: the state after an event
* `Forward.Move`: all that a step can do
-/

open Python Transition

namespace UnixSocketProxy

/-- The bytes that one `read` asks for. -/
def CHUNK : ℕ := 64 * 1024

/-- The two ends of a connection. -/
inductive Peer where
  | client
  | upstream
deriving DecidableEq

/-- The two tasks of `_forward`, `_copy(client_reader, upstream_writer)` first. -/
inductive Direction where
  | request
  | response
deriving DecidableEq

/-- The peer whose reader a task has. -/
def Direction.source : Direction → Peer
  | request => .client
  | response => .upstream

/-- The peer whose writer a task has. -/
def Direction.sink : Direction → Peer
  | request => .upstream
  | response => .client

/-- An exception of a connection: a `ConnectionError`, or another one. -/
inductive Fault where
  | connectionError
  | other
deriving DecidableEq

/-- The transport of a peer. It is gone once its connection is lost, with an exception or since it
was closed. -/
inductive Transport where
  | absent
  | running
  | closing
  | gone (fault : Option Fault)
deriving DecidableEq

def Transport.isGone : Transport → Bool
  | gone _ => true
  | absent | running | closing => false

/-- `_copy` at its awaits. -/
inductive Task where
  | idle
  | reading
  | draining
  | done (raised : Bool)
deriving DecidableEq

/-- The water marks of a transport's buffer. -/
structure Limits where
  high : ℕ
  low : ℕ
  low_le : low ≤ high

/-- One direction of a connection. -/
structure Pipe where
  /-- The bytes that the peer has sent. -/
  sent : Bytes
  /-- The peer sends no more. -/
  closed : Bool
  /-- The bytes that the socket has. -/
  socket : Bytes
  /-- The buffer of the `StreamReader`. -/
  incoming : Bytes
  eof : Bool
  task : Task
  /-- The buffer of the transport that is written to. -/
  outgoing : Bytes
  paused : Bool
  wroteEof : Bool
  /-- The bytes that the other peer has got. -/
  delivered : Bytes

/-- `_forward`. -/
structure Forward where
  pipe : Direction → Pipe
  transport : Peer → Transport
  /-- The `finally` of `_forward` has been reached. -/
  finished : Bool

/-- What can happen between two awaits. Where `write_eof` is called, it may raise an exception that
is not suppressed. -/
inductive Event where
  /-- A peer sends bytes. -/
  | send (direction : Direction) (bytes : Bytes)
  /-- A peer ends its stream. -/
  | shut (direction : Direction)
  /-- `open_unix_connection` returns or raises an `OSError`. -/
  | connect (connected : Bool)
  /-- `data_received`, of so many bytes. -/
  | receive (direction : Direction) (count : ℕ)
  | receiveEof (direction : Direction)
  /-- `read` returns. -/
  | read (direction : Direction) (eofRaises : Bool)
  /-- `drain` returns. -/
  | drain (direction : Direction)
  /-- The exception of a lost connection is raised at the await. -/
  | raise (direction : Direction) (fault : Fault) (eofRaises : Bool)
  /-- A task is cancelled. -/
  | cancel (direction : Direction) (eofRaises : Bool)
  /-- The transport sends so many bytes. -/
  | deliver (direction : Direction) (count : ℕ)
  /-- A connection is lost. -/
  | lose (peer : Peer) (fault : Fault)
  /-- `gather` returns or raises. -/
  | close

/-- The events of the peers. -/
def Event.IsPeer : Event → Prop
  | .send _ _ | .shut _ => True
  | _ => False

instance : DecidablePred Event.IsPeer := fun event =>
  match event with
  | .send _ _ | .shut _ => .isTrue trivial
  | .connect _ | .receive _ _ | .receiveEof _ | .read _ _ | .drain _ | .raise _ _ _ | .cancel _ _
  | .deliver _ _ | .lose _ _ | .close => .isFalse id

/-- The bytes that a peer sends with an event. -/
def Event.bytes : Event → Bytes
  | .send _ bytes => bytes
  | _ => []

/-- The events in which something fails. -/
def Event.IsFailure : Event → Prop
  | .connect connected => connected = false
  | .read _ eofRaises => eofRaises = true
  | .raise _ _ _ | .cancel _ _ | .lose _ _ => True
  | _ => False

/-- The events of the proxy and the sockets under it, where nothing fails. -/
def Event.IsOwn (event : Event) : Prop := ¬ event.IsPeer ∧ ¬ event.IsFailure

namespace Pipe

def start : Pipe where
  sent := []
  closed := false
  socket := []
  incoming := []
  eof := false
  task := .idle
  outgoing := []
  paused := false
  wroteEof := false
  delivered := []

/-- `writer.write(chunk)`; a transport that is gone drops what is written to it. -/
def write (limits : Limits) (sink : Transport) (chunk : Bytes) (pipe : Pipe) : Pipe :=
  match sink with
  | .gone _ => pipe
  | .absent | .running | .closing =>
    { pipe with
      outgoing := pipe.outgoing ++ chunk
      paused := limits.high < (pipe.outgoing ++ chunk).length }

/-- A turn of the loop of `_copy`, up to the await of `drain`. -/
def copyChunk (limits : Limits) (sink : Transport) (pipe : Pipe) : Pipe :=
  let chunk := pipe.incoming.take CHUNK
  { pipe.write limits sink chunk with
    incoming := pipe.incoming.drop CHUNK
    task := .draining }

/-- The `finally` of `_copy`. -/
def finish (raised : Bool) (pipe : Pipe) : Pipe :=
  { pipe with task := .done raised, wroteEof := true }

/-- The bytes that the transport sends. -/
def deliver (limits : Limits) (count : ℕ) (pipe : Pipe) : Pipe :=
  { pipe with
    delivered := pipe.delivered ++ pipe.outgoing.take count
    outgoing := pipe.outgoing.drop count
    paused := pipe.paused && decide (limits.low < (pipe.outgoing.drop count).length) }

/-- The buffer of a transport that is gone. -/
def discard (pipe : Pipe) : Pipe := { pipe with outgoing := [], paused := false }

/-- The task is at an await. -/
def Waits (pipe : Pipe) : Prop := pipe.task = .reading ∨ pipe.task = .draining

instance (pipe : Pipe) : Decidable pipe.Waits :=
  inferInstanceAs (Decidable (pipe.task = .reading ∨ pipe.task = .draining))

/-- The other peer has the end of the stream. -/
def Ended (pipe : Pipe) : Prop := pipe.wroteEof = true ∧ pipe.outgoing = []

end Pipe

namespace Forward

/-- A client has connected. -/
def start : Forward where
  pipe _ := .start
  transport
    | .client => .running
    | .upstream => .absent
  finished := false

def setPipe (s : Forward) (d : Direction) (pipe : Pipe) : Forward :=
  { s with pipe := Function.update s.pipe d pipe }

def setTransport (s : Forward) (peer : Peer) (transport : Transport) : Forward :=
  { s with transport := Function.update s.transport peer transport }

/-- The direction into a peer. -/
def into : Peer → Direction
  | .client => .response
  | .upstream => .request

/-- `writer.close()`: the connection is lost when the buffer is empty. -/
def closed (s : Forward) (peer : Peer) : Transport :=
  match s.transport peer with
  | .running => if (s.pipe (into peer)).outgoing = [] then .gone none else .closing
  | transport => transport

/-- The `finally` of `_forward`. -/
def closeBoth (s : Forward) : Forward := { s with transport := s.closed, finished := true }

/-- Both tasks have been started. -/
def opened (s : Forward) : Forward :=
  { s with
    pipe := fun d => { s.pipe d with task := .reading }
    transport := Function.update s.transport .upstream .running }

/-- The exceptions that an await of a task can raise. -/
def Raises (s : Forward) (d : Direction) (fault : Fault) : Prop :=
  ((s.pipe d).task = .reading ∧ s.transport d.source = .gone (some fault)) ∨
    ((s.pipe d).task = .draining ∧
      (s.transport d.sink = .gone (some fault) ∨
        s.transport d.sink = .gone none ∧ fault = .connectionError))

instance (s : Forward) (d : Direction) (fault : Fault) : Decidable (s.Raises d fault) :=
  inferInstanceAs (Decidable (_ ∨ _))

/-- `gather` has come to its end. -/
def Gathered (s : Forward) : Prop :=
  (∃ d, (s.pipe d).task = .done true) ∨ ∀ d, (s.pipe d).task = .done false

instance (s : Forward) : Decidable s.Gathered :=
  decidable_of_iff
    (((s.pipe .request).task = .done true ∨ (s.pipe .response).task = .done true) ∨
      ((s.pipe .request).task = .done false ∧ (s.pipe .response).task = .done false)) <| by
    constructor
    · rintro ((h | h) | ⟨h, h'⟩)
      · exact .inl ⟨_, h⟩
      · exact .inl ⟨_, h⟩
      · exact .inr fun d => by cases d <;> assumption
    · rintro (⟨d, h⟩ | h)
      · cases d
        · exact .inl (.inl h)
        · exact .inl (.inr h)
      · exact .inr ⟨h _, h _⟩

/-- What a `read` that returns makes of a direction. -/
def readPipe (limits : Limits) (s : Forward) (d : Direction) (eofRaises : Bool) : Option Pipe :=
  let pipe := s.pipe d
  match pipe.task, s.transport d.source with
  -- a reader that has an exception raises it
  | .reading, .gone (some _) => none
  | .reading, source =>
    if pipe.incoming ≠ [] then some (pipe.copyChunk limits (s.transport d.sink))
    else if pipe.eof ∨ source = .gone none then some (pipe.finish eofRaises)
    else none
  | _, _ => none

/-- The state after an event; `none` where it cannot happen. -/
def step (limits : Limits) (s : Forward) : Event → Option Forward
  | .send d bytes =>
    let pipe := s.pipe d
    if s.transport d.source ≠ .absent ∧ ¬ pipe.closed then
      some (s.setPipe d
        { pipe with sent := pipe.sent ++ bytes, socket := pipe.socket ++ bytes })
    else none
  | .shut d =>
    if s.transport d.source ≠ .absent then some (s.setPipe d { s.pipe d with closed := true })
    else none
  | .connect connected =>
    if s.transport .upstream = .absent ∧ ¬ s.finished then
      some (if connected then s.opened else s.closeBoth)
    else none
  | .receive d count =>
    let pipe := s.pipe d
    if s.transport d.source = .running ∧ 0 < count ∧ count ≤ pipe.socket.length then
      some (s.setPipe d
        { pipe with
          socket := pipe.socket.drop count
          incoming := pipe.incoming ++ pipe.socket.take count })
    else none
  | .receiveEof d =>
    let pipe := s.pipe d
    if s.transport d.source = .running ∧ pipe.closed ∧ pipe.socket = [] ∧ ¬ pipe.eof then
      some (s.setPipe d { pipe with eof := true })
    else none
  | .read d eofRaises => (s.readPipe limits d eofRaises).map (s.setPipe d)
  | .drain d =>
    let pipe := s.pipe d
    if pipe.task = .draining ∧ ¬ pipe.paused ∧
        (s.transport d.sink = .running ∨ s.transport d.sink = .closing) then
      some (s.setPipe d { pipe with task := .reading })
    else none
  | .raise d fault eofRaises =>
    if s.Raises d fault then
      some (s.setPipe d ((s.pipe d).finish (eofRaises || decide (fault = .other))))
    else none
  | .cancel d eofRaises =>
    if (s.pipe d).Waits then some (s.setPipe d ((s.pipe d).finish eofRaises)) else none
  | .deliver d count =>
    let pipe := s.pipe d
    if 0 < count ∧ count ≤ pipe.outgoing.length then
      match s.transport d.sink with
      | .running => some (s.setPipe d (pipe.deliver limits count))
      | .closing =>
        -- a transport that is closing is gone once its buffer is empty
        let t := s.setPipe d (pipe.deliver limits count)
        some (if pipe.outgoing.drop count = [] then t.setTransport d.sink (.gone none) else t)
      | .gone _ | .absent => none
    else none
  | .lose peer fault =>
    match s.transport peer with
    | .running | .closing =>
      some ((s.setPipe (into peer) (s.pipe (into peer)).discard).setTransport peer
        (.gone (some fault)))
    | .gone _ | .absent => none
  | .close => if s.Gathered ∧ ¬ s.finished then some s.closeBoth else none

/-! ## What a step can do -/

/-- All that a step can do. -/
inductive Move (limits : Limits) (s : Forward) : Event → Forward → Prop
  | send {d : Direction} {bytes : Bytes} : s.transport d.source ≠ .absent →
    (s.pipe d).closed = false →
    Move limits s (.send d bytes) (s.setPipe d
      { s.pipe d with
        sent := (s.pipe d).sent ++ bytes
        socket := (s.pipe d).socket ++ bytes })
  | shut {d : Direction} : Move limits s (.shut d) (s.setPipe d { s.pipe d with closed := true })
  | connect : s.transport .upstream = .absent → s.finished = false →
    Move limits s (.connect true) s.opened
  | refuse : s.finished = false → Move limits s (.connect false) s.closeBoth
  | receive {d : Direction} {count : ℕ} : s.transport d.source = .running → 0 < count →
    count ≤ (s.pipe d).socket.length →
    Move limits s (.receive d count) (s.setPipe d
      { s.pipe d with
        socket := (s.pipe d).socket.drop count
        incoming := (s.pipe d).incoming ++ (s.pipe d).socket.take count })
  | receiveEof {d : Direction} : s.transport d.source = .running → (s.pipe d).closed = true →
    (s.pipe d).socket = [] → (s.pipe d).eof = false →
    Move limits s (.receiveEof d) (s.setPipe d { s.pipe d with eof := true })
  | copy {d : Direction} {eofRaises : Bool} : (s.pipe d).task = .reading →
    (s.pipe d).incoming ≠ [] →
    Move limits s (.read d eofRaises)
      (s.setPipe d ((s.pipe d).copyChunk limits (s.transport d.sink)))
  | finish {d : Direction} {eofRaises : Bool} : (s.pipe d).task = .reading →
    (s.pipe d).incoming = [] → (s.pipe d).eof = true ∨ s.transport d.source = .gone none →
    Move limits s (.read d eofRaises) (s.setPipe d ((s.pipe d).finish eofRaises))
  | drain {d : Direction} : (s.pipe d).task = .draining → (s.pipe d).paused = false →
    Move limits s (.drain d) (s.setPipe d { s.pipe d with task := .reading })
  | fail {event : Event} {d : Direction} {raised : Bool} : event.IsFailure → (s.pipe d).Waits →
    Move limits s event (s.setPipe d ((s.pipe d).finish raised))
  | deliver {d : Direction} {count : ℕ} : 0 < count → count ≤ (s.pipe d).outgoing.length →
    s.transport d.sink = .running ∨
      s.transport d.sink = .closing ∧ (s.pipe d).outgoing.drop count ≠ [] →
    Move limits s (.deliver d count) (s.setPipe d ((s.pipe d).deliver limits count))
  | drained {d : Direction} {count : ℕ} : 0 < count → count ≤ (s.pipe d).outgoing.length →
    s.transport d.sink = .closing → (s.pipe d).outgoing.drop count = [] →
    Move limits s (.deliver d count)
      ((s.setPipe d ((s.pipe d).deliver limits count)).setTransport d.sink (.gone none))
  | lose {peer : Peer} {fault : Fault} : (s.transport peer).isGone = false →
    Move limits s (.lose peer fault)
      ((s.setPipe (into peer) (s.pipe (into peer)).discard).setTransport peer
        (.gone (some fault)))
  | close : s.Gathered → s.finished = false → Move limits s .close s.closeBoth

theorem move_of_step {limits : Limits} {s t : Forward} {event : Event}
    (h : s.step limits event = some t) : Move limits s event t := by
  cases event with
  | send d bytes =>
    obtain ⟨⟨hsource, hclosed⟩, ⟨⟩⟩ := Option.ite_none_right_eq_some.mp h
    exact .send hsource (Bool.eq_false_iff.mpr hclosed)
  | shut d =>
    obtain ⟨-, ⟨⟩⟩ := Option.ite_none_right_eq_some.mp h
    exact .shut
  | connect connected =>
    obtain ⟨⟨habsent, hfinished⟩, heq⟩ := Option.ite_none_right_eq_some.mp h
    cases heq
    cases connected
    · exact .refuse (Bool.eq_false_iff.mpr hfinished)
    · exact .connect habsent (Bool.eq_false_iff.mpr hfinished)
  | receive d count =>
    obtain ⟨⟨hsource, hpos, hcount⟩, ⟨⟩⟩ := Option.ite_none_right_eq_some.mp h
    exact .receive hsource hpos hcount
  | receiveEof d =>
    obtain ⟨⟨hsource, hclosed, hsocket, heof⟩, ⟨⟩⟩ := Option.ite_none_right_eq_some.mp h
    exact .receiveEof hsource hclosed hsocket (Bool.eq_false_iff.mpr heof)
  | read d eofRaises =>
    obtain ⟨pipe, hpipe, rfl⟩ := Option.map_eq_some_iff.mp h
    unfold readPipe at hpipe
    dsimp only at hpipe
    split at hpipe
    · cases hpipe
    · rename_i htask hgone
      split_ifs at hpipe with hincoming heof
      · cases hpipe
        exact .copy htask hincoming
      · cases hpipe
        exact .finish htask (not_not.mp hincoming) heof
    · cases hpipe
  | drain d =>
    obtain ⟨⟨htask, hpaused, -⟩, ⟨⟩⟩ := Option.ite_none_right_eq_some.mp h
    exact .drain htask (Bool.eq_false_iff.mpr hpaused)
  | raise d fault eofRaises =>
    obtain ⟨hraises, ⟨⟩⟩ := Option.ite_none_right_eq_some.mp h
    exact .fail trivial (hraises.imp And.left And.left)
  | cancel d eofRaises =>
    obtain ⟨hwaits, ⟨⟩⟩ := Option.ite_none_right_eq_some.mp h
    exact .fail trivial hwaits
  | deliver d count =>
    obtain ⟨⟨hpos, hcount⟩, h⟩ := Option.ite_none_right_eq_some.mp h
    split at h
    · rename_i hsink
      cases h
      exact .deliver hpos hcount (.inl hsink)
    · rename_i hsink
      cases h
      split_ifs with hempty
      · exact .drained hpos hcount hsink hempty
      · exact .deliver hpos hcount (.inr ⟨hsink, hempty⟩)
    · cases h
    · cases h
  | lose peer fault =>
    rw [step] at h
    split at h
    · rename_i hrunning
      cases h
      exact .lose (by rw [hrunning, Transport.isGone])
    · rename_i hclosing
      cases h
      exact .lose (by rw [hclosing, Transport.isGone])
    · cases h
    · cases h
  | close =>
    obtain ⟨⟨hgathered, hfinished⟩, ⟨⟩⟩ := Option.ite_none_right_eq_some.mp h
    exact .close hgathered (Bool.eq_false_iff.mpr hfinished)

end Forward

end UnixSocketProxy
