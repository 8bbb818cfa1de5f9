import CodingOpd.Library.Heap
import CodingOpd.Library.Transition
import CodingOpd.Python.Utf8

/-!
# A download behind an upload

`watch_oss_then_remote_download.sh` waits for the upload of an archive to become a complete object,
and then calls a remote shell that downloads it. The connection is lost now and then, while the
remote shell or its download go on; the call is repeated until an answer says that the archive is
in its place. Remote shells share one lock, which a download inherits from its shell.

## Main definitions

* `Watcher`, `Session`, `System`: the local script, a remote shell, and all of them
* `Event`, `step`: what each does next, with lost connections and killed processes
* `Copies`: what `ossutil64` is relied on for
-/

open Python

namespace OssDownload

/-- What a line of the output says to the watcher: `REMOTE_ARCHIVE_READY size=…`, `another remote
downloader owns …`, or nothing that it looks for. -/
inductive Line where
  | ready (size : ℕ)
  | owned
  | other
deriving DecidableEq

/-- `grep -q '^REMOTE_ARCHIVE_READY size='` finds the line. -/
def Line.isReady : Line → Bool
  | .ready _ => true
  | .owned | .other => false

/-- What a remote shell does next. -/
inductive Remote where
  | locking
  | checking
  | copying
  -- the shell is gone, and `ossutil64` goes on with the lock that it has inherited
  | orphaned
  | sizing
  | moving (size : ℕ)
  | reporting (size : ℕ)
  | ended (code : ℕ)
  | killed
deriving DecidableEq

/-- A remote shell, with its output so far. -/
structure Session where
  expected : ℕ
  remote : Remote
  output : List Line

/-- What a watcher does next. -/
inductive Local where
  | polling
  | retrying (attempt : ℕ)
  | calling (attempt session : ℕ)
  | exited (code : ℕ)
  -- another watcher holds the lock file
  | refused
  -- the script is gone, and what it called goes on with the lock file
  | orphaned
  | killed
deriving DecidableEq

/-- A run of the script. -/
structure Watcher where
  lockFile : ℕ
  expected : ℕ
  maxAttempts : ℕ
  now : Local

structure System where
  object : Option Bytes
  watchers : Heap Watcher
  sessions : Heap Session
  lock : Option ℕ
  part : Option Bytes
  final : Option Bytes

/-- The start, with the files that were there before. -/
def System.found (part final : Option Bytes) : System where
  object := none
  watchers := ⟨[]⟩
  sessions := ⟨[]⟩
  lock := none
  part
  final

inductive Event where
  -- the upload is complete
  | upload (bytes : Bytes)
  | launch (lockFile expected maxAttempts : ℕ)
  | poll (watcher : ℕ) (reachable : Bool)
  | call (watcher : ℕ)
  | answer (watcher code : ℕ) (lines : List Line)
  | killWatcher (watcher : ℕ) (child : Bool)
  | lock (session : ℕ)
  | check (session : ℕ)
  | download (session : ℕ) (bytes : Bytes)
  -- `ossutil64` exits with 0, and has left these bytes
  | downloaded (session : ℕ) (bytes : Bytes)
  | downloadFails (session code : ℕ)
  | stat (session : ℕ)
  | move (session : ℕ)
  | report (session : ℕ)
  | kill (session : ℕ) (child : Bool)

/-- A watcher whose lock file is held. -/
def Local.live : Local → Bool
  | .polling | .retrying _ | .calling _ _ | .orphaned => true
  | .exited _ | .refused | .killed => false

/-- A session that holds the remote lock. -/
def Remote.holds : Remote → Bool
  | .checking | .copying | .orphaned | .sizing | .moving _ | .reporting _ => true
  | .locking | .ended _ | .killed => false

namespace System

variable (s : System)

/-- A watcher goes on. -/
def setWatcher (i : ℕ) (watcher : Watcher) (now : Local) : System :=
  { s with watchers := s.watchers.write i { watcher with now } }

/-- A session goes on, with or without the lock. -/
def setSession (i : ℕ) (session : Session) (lock : Option ℕ) : System :=
  { s with sessions := s.sessions.write i session, lock }

end System

/-- The exit of a shell that holds the lock. -/
def Session.exit (session : Session) (code : ℕ) (lines : List Line) : Session :=
  { session with remote := .ended code, output := session.output ++ lines }

def step (s : System) : Event → Option System
  | .upload bytes => if s.object.isNone then some { s with object := some bytes } else none
  | .launch lockFile expected maxAttempts =>
    -- `flock -n 9`
    let owned := s.watchers.cells.any fun other => other.lockFile = lockFile ∧ other.now.live
    let now := if owned then .refused else .polling
    some { s with watchers := s.watchers.alloc { lockFile, expected, maxAttempts, now } }
  | .poll i reachable => do
    let watcher ← s.watchers.read i
    if watcher.now = .polling then
      match if reachable then s.object else none with
      | none => some s
      | some bytes =>
        -- an object of another size is not downloaded
        some (s.setWatcher i watcher
          (if bytes.length = watcher.expected then .retrying 0 else .exited 3))
    else none
  | .call i => do
    let watcher ← s.watchers.read i
    match watcher.now with
    | .retrying attempt =>
      if attempt < watcher.maxAttempts then
        let session : Session := { expected := watcher.expected, remote := .locking, output := [] }
        some { s.setWatcher i watcher (.calling (attempt + 1) s.sessions.next) with
          sessions := s.sessions.alloc session }
      else some (s.setWatcher i watcher (.exited 6))
    | _ => none
  | .answer i code lines => do
    let watcher ← s.watchers.read i
    match watcher.now with
    | .calling attempt j => do
      let session ← s.sessions.read j
      -- lines of the session may be lost, and the helper writes some of its own
      if ∀ line ∈ lines, line = .other ∨ line ∈ session.output then
        if code = 0 ∧ lines.any Line.isReady then some (s.setWatcher i watcher (.exited 0))
        else if code = 7 ∧ .owned ∈ lines then
          -- a download that goes on takes nothing of the budget
          some (s.setWatcher i watcher (.retrying (attempt - 1)))
        else some (s.setWatcher i watcher (.retrying attempt))
      else none
    | _ => none
  | .killWatcher i child => do
    let watcher ← s.watchers.read i
    if watcher.now.live then
      some (s.setWatcher i watcher
        (if child ∨ watcher.now = .orphaned then .killed else .orphaned))
    else none
  | .lock i => do
    let session ← s.sessions.read i
    if session.remote = .locking then
      match s.lock with
      | none => some (s.setSession i { session with remote := .checking } (some i))
      | some owner => some (s.setSession i (session.exit 7 [.owned]) (some owner))
    else none
  | .check i => do
    let session ← s.sessions.read i
    if session.remote = .checking then
      match s.final with
      | none => some (s.setSession i { session with remote := .copying } s.lock)
      | some bytes =>
        if bytes.length = session.expected then
          some (s.setSession i (session.exit 0 [.other, .ready bytes.length]) none)
        else some (s.setSession i (session.exit 4 [.other]) none)
    else none
  | .download i bytes => do
    let session ← s.sessions.read i
    if session.remote = .copying ∨ session.remote = .orphaned then
      some { s with part := some bytes }
    else none
  | .downloaded i bytes => do
    let session ← s.sessions.read i
    if session.remote = .copying then
      some { s.setSession i { session with remote := .sizing } s.lock with part := some bytes }
    else if session.remote = .orphaned then
      some { s.setSession i { session with remote := .killed } none with part := some bytes }
    else none
  | .downloadFails i code => do
    let session ← s.sessions.read i
    -- `set -e`
    if session.remote = .copying then some (s.setSession i (session.exit code [.other]) none)
    else if session.remote = .orphaned then
      some (s.setSession i { session with remote := .killed } none)
    else none
  | .stat i => do
    let session ← s.sessions.read i
    if session.remote = .sizing then
      match s.part with
      | none => some (s.setSession i (session.exit 1 [.other]) none)
      | some bytes =>
        if bytes.length = session.expected then
          some (s.setSession i { session with remote := .moving bytes.length } s.lock)
        else some (s.setSession i (session.exit 5 [.other]) none)
    else none
  | .move i => do
    let session ← s.sessions.read i
    match session.remote with
    | .moving size =>
      match s.part with
      | none => some (s.setSession i (session.exit 1 [.other]) none)
      | some bytes =>
        some { s.setSession i { session with remote := .reporting size } s.lock with
          part := none
          final := some bytes }
    | _ => none
  | .report i => do
    let session ← s.sessions.read i
    match session.remote with
    | .reporting size => some (s.setSession i (session.exit 0 [.other, .ready size]) none)
    | _ => none
  | .kill i child => do
    let session ← s.sessions.read i
    match session.remote with
    | .locking => some (s.setSession i { session with remote := .killed } s.lock)
    | .copying =>
      -- the child goes on, unless it is killed as well
      some (if child then s.setSession i { session with remote := .killed } none
        else s.setSession i { session with remote := .orphaned } s.lock)
    | .checking | .orphaned | .sizing | .moving _ | .reporting _ =>
      some (s.setSession i { session with remote := .killed } none)
    | .ended _ | .killed => none

/-- Where `ossutil64` exits with 0, it has left the object. -/
def Copies (events : List Event) : Prop :=
  ∀ i bytes object, .downloaded i bytes ∈ events → .upload object ∈ events → bytes = object

end OssDownload
