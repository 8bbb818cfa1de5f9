import Mathlib.Data.Rat.Floor
import CodingOpd.Profiling.Spans
import CodingOpd.TrainingRecord.Profile

/-!
# What the profile records

The contexts and the tokens follow the nesting of the spans in the program, whatever the order in
which the tasks go on. So a record holds what the spans around it have set, and `read_profile`
counts every span that was written once.

## Main definitions

* `IsRecord`: what the record of a span holds
* `Follows`: a process and its ledger
* `Tally`: what the statistics of some spans say

## Main results

* `follows_of_run`: every run of a process is one of the ledger
* `identified_of_run`: the fields of the lines of a profile
* `readProfile_of_runs`: the statistics of the profiles of some processes
-/

open Python CodexAgent Transition TrainingRecord

namespace Profiling

variable {K : Type} {floats : Floats K} {events : List Event} {p q : Process} {l m : Ledger}

/-- No task sets the key of a span that is open. -/
def Unset (events : List Event) (key : String) : Prop := ∀ i value, .setItem i key value ∉ events

theorem Unset.of_append {more : List Event} {key : String} (h : Unset (events ++ more) key) :
    Unset events key :=
  fun i value hmem => h i value (List.mem_append_left more hmem)

/-- The keys that `profile_span` sets itself. -/
def recordKeys : List String :=
  ["event", "start_ns", "start_monotonic_ns", "duration_s", "status", "host", "pid"]

/-- What the record of a span holds. -/
structure IsRecord (floats : Floats K) (events : List Event) (scopes : Heap Scope)
    (record : Dict Value) (ended : Ended) : Prop where
  nodup : record.keys.Nodup
  event : record.lookup "event" = some (.str ended.name)
  duration : record.lookup "duration_s" = some (floats.duration ended.elapsed)
  status : record.lookup "status" = some (.str ended.status)
  inherited : ∀ key, Unset events key → key ∉ recordKeys →
    Inherits scopes key (some ended.scope) (record.lookup key)

/-- The blocks of a task are nested in one another, and in the span in which it was created. -/
def Nested (scopes : Heap Scope) (created : Option ℕ) : List ℕ → Prop
  | [] => ∀ i ∈ created, i < scopes.next
  | block :: blocks =>
    (∃ scope, scopes.read block = some scope ∧ scope.around = blocks.head?.or created) ∧
      Nested scopes created blocks

theorem Nested.mono {scopes scopes' : Heap Scope} (hkeeps : scopes.Keeps scopes')
    {created : Option ℕ} {blocks : List ℕ} (h : Nested scopes created blocks) :
    Nested scopes' created blocks := by
  induction blocks with
  | nil => exact fun i hi => (h i hi).trans_le hkeeps.next_le
  | cons block blocks ih =>
    obtain ⟨⟨scope, hread, haround⟩, hblocks⟩ := h
    exact ⟨⟨scope, hkeeps.read hread, haround⟩, ih hblocks⟩

theorem Nested.innermost_lt {scopes : Heap Scope} {created : Option ℕ} {blocks : List ℕ}
    (h : Nested scopes created blocks) : ∀ i ∈ blocks.head?.or created, i < scopes.next := by
  cases blocks with
  | nil => exact h
  | cons block blocks =>
    obtain ⟨⟨scope, hread, -⟩, -⟩ := h
    rintro _ ⟨⟩
    exact Heap.lt_next_of_read hread

/-- A span and its scope. -/
structure Spans (span : Span) (scope : Scope) : Prop where
  name : span.name = scope.name
  token : span.token = scope.around
  start : span.start = scope.start
  nodup : span.fields.keys.Nodup

/-- A task and its place. -/
structure Stands (task : Task) (place : Place) : Prop where
  context : task.context = place.innermost
  blocks : task.blocks = place.blocks

/-- **The relation of a process to the ledger** of its events. -/
structure Follows (floats : Floats K) (events : List Event) (p : Process) (l : Ledger) : Prop where
  spans : Heap.Related Spans p.spans l.scopes
  tasks : Heap.Related Stands p.tasks l.places
  nested : ∀ place ∈ l.places.cells, Nested l.scopes place.created place.blocks
  inherited : ∀ key, Unset events key → ∀ i span, p.spans.read i = some span →
    Inherits l.scopes key (some i) (span.fields.lookup key)
  written : ∃ records, p.file = records.flatMap line ∧
    List.Forall₂ (IsRecord floats events l.scopes) records l.ended

theorem follows_initial (host : String) (pid : ℕ) :
    Follows floats [] (.initial host pid) .initial where
  spans := .nil
  tasks := .nil
  nested _ hmem := absurd hmem List.not_mem_nil
  inherited _ _ _ _ hread := by cases hread
  written := ⟨[], rfl, .nil⟩

/-! ## Steps -/

theorem IsRecord.mono {scopes scopes' : Heap Scope} (hkeeps : scopes.Keeps scopes')
    {more : List Event} {record : Dict Value} {ended : Ended}
    (h : IsRecord floats events scopes record ended) :
    IsRecord floats (events ++ more) scopes' record ended where
  nodup := h.nodup
  event := h.event
  duration := h.duration
  status := h.status
  inherited key hunset hkey := (h.inherited key hunset.of_append hkey).mono hkeeps

/-- What was written stays. -/
theorem Follows.written_mono (h : Follows floats events p l) (e : Event) {scopes : Heap Scope}
    (hkeeps : l.scopes.Keeps scopes) : ∃ records, p.file = records.flatMap line ∧
      List.Forall₂ (IsRecord floats (events ++ [e]) scopes) records l.ended := by
  obtain ⟨records, hfile, hrecords⟩ := h.written
  exact ⟨records, hfile, hrecords.imp fun _ _ hrecord => hrecord.mono hkeeps⟩

theorem Heap.mem_of_read {α : Type} {h : Heap α} {i : ℕ} {cell : α} (hread : h.read i = some cell) :
    cell ∈ h.cells :=
  List.mem_of_getElem? hread

/-- A task that is created where its creator stands. -/
theorem Follows.createTask (h : Follows floats events p l) {i : ℕ}
    (hstep : step floats p (.createTask i) = some q) :
    ∃ m, Ledger.step l (.createTask i) = some m ∧
      Follows floats (events ++ [.createTask i]) q m := by
  obtain ⟨task, htask, hq⟩ := Option.bind_eq_some_iff.mp hstep
  cases hq
  obtain ⟨place, hplace, hstands⟩ := h.tasks.read htask
  refine ⟨_, Option.bind_eq_some_iff.mpr ⟨place, hplace, rfl⟩, ?_⟩
  have hnested := h.nested place (Heap.mem_of_read hplace)
  refine ⟨h.spans, h.tasks.alloc ⟨?_, rfl⟩, ?_, ?_, h.written_mono _ (.refl _)⟩
  · exact hstands.context
  · intro other hmem
    rcases List.mem_append.mp hmem with hmem | hmem
    · exact h.nested other hmem
    · cases List.mem_singleton.mp hmem
      exact hnested.innermost_lt
  · exact fun key hunset => h.inherited key hunset.of_append

theorem Follows.thread (h : Follows floats events p l) (hstep : step floats p .thread = some q) :
    ∃ m, Ledger.step l .thread = some m ∧ Follows floats (events ++ [.thread]) q m := by
  cases hstep
  refine ⟨_, rfl, h.spans, h.tasks.alloc ⟨rfl, rfl⟩, ?_, ?_, h.written_mono _ (.refl _)⟩
  · intro other hmem
    rcases List.mem_append.mp hmem with hmem | hmem
    · exact h.nested other hmem
    · cases List.mem_singleton.mp hmem
      exact nofun
  · exact fun key hunset => h.inherited key hunset.of_append

/-- The fields that a context hands on. -/
theorem Follows.contextFields (h : Follows floats events p l) {task : Task} {place : Place}
    (hstands : Stands task place) (hnested : Nested l.scopes place.created place.blocks) :
    (p.contextFields task).keys.Nodup ∧ ∀ key, Unset events key →
      Inherits l.scopes key place.innermost ((p.contextFields task).lookup key) := by
  rw [Process.contextFields, hstands.context]
  cases hinnermost : place.innermost with
  | none => exact ⟨List.nodup_nil, fun key _ => .outermost⟩
  | some i =>
    have hlt : i < p.spans.next := h.spans.next_eq ▸ hnested.innermost_lt i hinnermost
    obtain ⟨span, hspan⟩ : ∃ span, p.spans.read i = some span :=
      ⟨_, List.getElem?_eq_getElem hlt⟩
    obtain ⟨scope, -, hscope⟩ := h.spans.read hspan
    rw [Option.bind_some, hspan, Option.map_some, Option.getD_some]
    exact ⟨hscope.nodup, fun key hunset => h.inherited key hunset i span hspan⟩

/-- A span that is entered takes over what its context holds. -/
theorem Follows.enter (h : Follows floats events p l) {i : ℕ} {name : String} {fields : Kwargs}
    {wallStart start : ℤ} (hstep : step floats p (.enter i name fields wallStart start) = some q) :
    ∃ m, Ledger.step l (.enter i name fields wallStart start) = some m ∧
      Follows floats (events ++ [.enter i name fields wallStart start]) q m := by
  obtain ⟨task, htask, hq⟩ := Option.bind_eq_some_iff.mp hstep
  cases hq
  obtain ⟨place, hplace, hstands⟩ := h.tasks.read htask
  have hnested := h.nested place (Heap.mem_of_read hplace)
  obtain ⟨hnodup, hcontext⟩ := h.contextFields hstands hnested
  let scope : Scope := { name, own := fields.items, around := place.innermost, start }
  have hkeeps : l.scopes.Keeps (l.scopes.alloc scope) := (Heap.Keeps.refl _).alloc scope
  have hscope : (l.scopes.alloc scope).read l.scopes.next = some scope := Heap.read_alloc_next _ _
  refine ⟨_, Option.bind_eq_some_iff.mpr ⟨place, hplace, rfl⟩, ?_, ?_, ?_, ?_,
    h.written_mono _ hkeeps⟩
  case refine_1 =>
    exact h.spans.alloc ⟨rfl, hstands.context, rfl, Dict.nodup_keys_update hnodup⟩
  case refine_2 =>
    refine h.tasks.write ⟨?_, ?_⟩
    · rw [h.spans.next_eq]
      rfl
    · rw [h.spans.next_eq, hstands.blocks]
  case refine_3 =>
    intro other hmem
    rcases List.mem_or_eq_of_mem_set hmem with hmem | rfl
    · exact (h.nested other hmem).mono hkeeps
    · exact ⟨⟨scope, hscope, rfl⟩, hnested.mono hkeeps⟩
  case refine_4 =>
    intro key hunset j span hspan
    have hunset' := hunset.of_append
    rcases Heap.read_alloc_cases hspan with hspan | ⟨rfl, rfl⟩
    · exact (h.inherited key hunset' j span hspan).mono hkeeps
    · rw [h.spans.next_eq]
      show Inherits _ key _ (((p.contextFields task).update fields.items).lookup key)
      rw [Dict.lookup_update fields.nodup]
      cases hown : fields.items.lookup key with
      | some value => exact .own hscope hown
      | none => exact .around hscope hown ((hcontext key hunset').mono hkeeps)

/-- What a task adds to an open span is of a key that is set. -/
theorem Follows.setItem (h : Follows floats events p l) {i : ℕ} {key : String} {value : Value}
    (hstep : step floats p (.setItem i key value) = some q) :
    ∃ m, Ledger.step l (.setItem i key value) = some m ∧
      Follows floats (events ++ [.setItem i key value]) q m := by
  obtain ⟨span, hspan, hq⟩ := Option.bind_eq_some_iff.mp hstep
  cases hq
  obtain ⟨scope, hscope, hspans⟩ := h.spans.read hspan
  refine ⟨_, rfl, ?_, h.tasks, h.nested, ?_, h.written_mono _ (.refl _)⟩
  · exact h.spans.write_left hscope
      ⟨hspans.name, hspans.token, hspans.start, Dict.nodup_keys_setItem hspans.nodup⟩
  · intro other hunset j spanAt hread
    have hne : other ≠ key := by
      rintro rfl
      exact hunset i value (List.mem_append_right _ List.mem_cons_self)
    rcases Heap.read_write_cases hread with ⟨rfl, rfl⟩ | ⟨-, hread⟩
    · show Inherits _ other _ ((span.fields.setItem key value).lookup other)
      rw [Dict.lookup_setItem, if_neg hne]
      exact h.inherited other hunset.of_append _ span hspan
    · exact h.inherited other hunset.of_append j spanAt hread

/-- The record of a span that ends. -/
theorem Follows.isRecord (h : Follows floats events p l) {i : ℕ} {span : Span} {scope : Scope}
    (hspan : p.spans.read i = some span) (hspans : Spans span scope) (status : String) (now : ℤ) :
    IsRecord floats events l.scopes (p.record floats span status (now - span.start))
      ⟨i, scope.name, now - scope.start, status⟩ := by
  have hkeys : recordKeys.Nodup := by decide
  have hlookup : ∀ key, (p.record floats span status (now - span.start)).lookup key = _ :=
    Dict.lookup_update (by exact hkeys)
  refine ⟨Dict.nodup_keys_update hspans.nodup, ?_, ?_, ?_, fun key hunset hkey => ?_⟩
  · rw [hlookup, ← hspans.name]
    rfl
  · rw [hlookup, ← hspans.start]
    rfl
  · rw [hlookup]
    rfl
  · rw [hlookup, Dict.lookup_eq_none hkey, Option.none_or]
    exact h.inherited key hunset i span hspan

/-- The token of a span restores the context of the block around it. -/
theorem Follows.exit (h : Follows floats events p l) {i : ℕ} {status : String} {now : ℤ}
    {written : Bool} (hstep : step floats p (.exit i status now written) = some q) :
    ∃ m, Ledger.step l (.exit i status now written) = some m ∧
      Follows floats (events ++ [.exit i status now written]) q m := by
  obtain ⟨task, htask, hq⟩ := Option.bind_eq_some_iff.mp hstep
  obtain ⟨place, hplace, hstands⟩ := h.tasks.read htask
  have hnested := h.nested place (Heap.mem_of_read hplace)
  cases hblocks : place.blocks with
  | nil =>
    rw [hstands.blocks, hblocks] at hq
    cases hq
  | cons block blocks =>
    rw [hstands.blocks, hblocks] at hq
    rw [hblocks] at hnested
    obtain ⟨span, hspan, hq⟩ := Option.bind_eq_some_iff.mp hq
    cases hq
    obtain ⟨scope, hscope, hspans⟩ := h.spans.read hspan
    obtain ⟨⟨scope', hscope', haround⟩, hrest⟩ := hnested
    cases hscope.symm.trans hscope'
    have hledger : Ledger.step l (.exit i status now written) = some
        { l with
          places := l.places.write i ⟨place.created, blocks⟩
          ended := if written then l.ended ++ [⟨block, scope.name, now - scope.start, status⟩]
            else l.ended } := by
      simp only [Ledger.step, hplace, hblocks, hscope, Option.bind_eq_bind, Option.bind_some]
    refine ⟨_, hledger, h.spans, h.tasks.write ⟨?_, rfl⟩, ?_, ?_, ?_⟩
    · exact hspans.token.trans haround
    · intro other hmem
      rcases List.mem_or_eq_of_mem_set hmem with hmem | rfl
      · exact h.nested other hmem
      · exact hrest
    · exact fun key hunset => h.inherited key hunset.of_append
    · obtain ⟨records, hfile, hrecords⟩ :=
        h.written_mono (.exit i status now written) (.refl l.scopes)
      cases written with
      | false => exact ⟨records, hfile, hrecords⟩
      | true =>
        refine ⟨records ++ [p.record floats span status (now - span.start)], ?_,
          List.rel_append hrecords
            (.cons ((h.isRecord hspan hspans status now).mono (.refl _)) .nil)⟩
        show p.file ++ _ = _
        rw [hfile, List.flatMap_append, List.flatMap_singleton]

/-- **Every step of a process is one of the ledger.** -/
theorem Follows.step (h : Follows floats events p l) (e : Event)
    (hstep : step floats p e = some q) :
    ∃ m, Ledger.step l e = some m ∧ Follows floats (events ++ [e]) q m := by
  cases e with
  | thread => exact h.thread hstep
  | createTask => exact h.createTask hstep
  | enter => exact h.enter hstep
  | setItem => exact h.setItem hstep
  | exit => exact h.exit hstep

/-- **Every run of a process is one of the ledger.** -/
theorem follows_of_run {host : String} {pid : ℕ}
    (hrun : run (step floats) (.initial host pid) events = some p) :
    ∃ l, run Ledger.step .initial events = some l ∧ Follows floats events p l := by
  refine run_invariant (P := fun events p => ∃ l, run Ledger.step .initial events = some l ∧
    Follows floats events p l) hrun ⟨_, rfl, follows_initial host pid⟩ ?_
  rintro events p e q ⟨l, hl, h⟩ hstep
  obtain ⟨m, hm, hnext⟩ := h.step e hstep
  refine ⟨m, ?_, hnext⟩
  rw [run_append, hl]
  show (Ledger.step l e).bind _ = _
  rw [hm]
  rfl

/-! ## Lines -/

theorem codes_injective : Function.Injective codes := fun _ _ heq =>
  String.toList_inj.mp (List.map_injective_iff.mpr (fun _ _ h => Char.toNat_inj.mp h) heq)

theorem writable_toJson (d : Dict Value) : Json.Writable (toJson d) := by
  rw [toJson, Json.Writable]
  induction d with
  | nil => trivial
  | cons item d ih => exact ⟨Json.joined_codes item.1.toList, item.2.writable, ih⟩

/-- The values of a dictionary, from its object. -/
theorem get_toJson {d : Dict Value} (h : d.keys.Nodup) (key : String) :
    Object.get (d.map fun item => (codes item.1, item.2.json)) key =
      (d.lookup key).map Value.json := by
  induction d with
  | nil => rfl
  | cons item d ih =>
    obtain ⟨k, value⟩ := item
    obtain ⟨hk, hnodup⟩ := List.nodup_cons.mp h
    have hrest := ih hnodup
    rw [Object.get] at hrest ⊢
    rw [List.map_cons, List.reverse_cons, List.find?_append, Option.map_or, hrest, Dict.lookup_cons]
    by_cases hkey : key = k
    · rw [if_pos hkey, Dict.lookup_eq_none (hkey ▸ hk), hkey]
      simp
    · have hcodes : codes k ≠ codes key := fun heq => hkey (codes_injective heq).symm
      rw [if_neg hkey]
      simp [hcodes]

/-- The lines of a file are those that were written. -/
theorem fileLines_records (records : List (Dict Value)) :
    fileLines (Utf8.decode (Utf8.encode (records.flatMap line))) = records.map line := by
  have hlines : ∀ text ∈ records.map fun record => Json.dumps (toJson record),
      ∀ c ∈ text, c ≠ '\n' ∧ c ≠ '\r' := by
    intro text htext c hc
    obtain ⟨record, -, rfl⟩ := List.mem_map.mp htext
    have hprintable := Json.printable_dumps _ (writable_toJson record) c hc
    refine ⟨?_, ?_⟩
    · rintro rfl
      exact absurd hprintable (by decide)
    · rintro rfl
      exact absurd hprintable (by decide)
  have hread := fileLines_flatMap hlines
  rw [List.flatMap_map, List.map_map] at hread
  rw [Utf8.decode_encode]
  exact hread

theorem loads_line (record : Dict Value) : Json.loads (line record) = some (toJson record) :=
  Json.loads_dumps_append (writable_toJson record) (.inr rfl)

/-- **Each line of a profile is a span** that ended, with the fields that the spans around it have
handed on to it. -/
theorem identified_of_run {host : String} {pid : ℕ}
    (hrun : run (step floats) (.initial host pid) events = some p) :
    ∃ l, run Ledger.step .initial events = some l ∧
      List.Forall₂ (fun text ended => ∃ object : CodexAgent.Object,
        Json.loads text = some (.object object) ∧
        ∀ key, Unset events key → key ∉ recordKeys →
          ∃ value, Inherits l.scopes key (some ended.scope) value ∧
            object.get key = value.map Value.json)
        (fileLines (Utf8.decode (Utf8.encode p.file))) l.ended := by
  obtain ⟨l, hl, h⟩ := follows_of_run hrun
  obtain ⟨records, hfile, hrecords⟩ := h.written
  refine ⟨l, hl, ?_⟩
  rw [hfile, fileLines_records, List.forall₂_map_left_iff]
  refine hrecords.imp fun record ended hrecord => ⟨_, loads_line record, fun key hunset hkey => ?_⟩
  exact ⟨_, hrecord.inherited key hunset hkey, get_toJson hrecord.nodup key⟩

/-- Floats in which `1.5` is written. -/
def exampleFloats : Floats ℚ where
  seconds n := .finite (n / 1000000000)
  repr x := if x = .finite (3 / 2) then ['1', '.', '5'] else ['0', '.', '0']
  isNumber x := by
    split
    · exact .inr rfl
    · exact .inr rfl

/-- A prompt whose session runs in a task of its own. -/
def examplePrompt : List Event :=
  [.thread, .enter 0 "prompt" ⟨[("uid", .str "u1"), ("step", .int 3)], by decide⟩ 7 1000000000,
    .createTask 0, .enter 1 "agent_episode" ⟨[], by decide⟩ 8 2000000000,
    .exit 0 "ok" 2500000000 true, .exit 1 "CancelledError" 3500000000 true]

theorem identified_examplePrompt :
    ∃ p, run (step exampleFloats) (.initial "node" 17) examplePrompt = some p ∧
      ∃ l, run Ledger.step .initial examplePrompt = some l ∧
        List.Forall₂ (fun text ended => ∃ object : CodexAgent.Object,
          Json.loads text = some (.object object) ∧
          ∀ key, Unset examplePrompt key → key ∉ recordKeys →
            ∃ value, Inherits l.scopes key (some ended.scope) value ∧
              object.get key = value.map Value.json)
          (fileLines (Utf8.decode (Utf8.encode p.file))) l.ended :=
  ⟨_, rfl, identified_of_run rfl⟩

/-! ## Statistics -/

/-- Some processes that write to one directory, in the order of the names of their files. -/
structure Worker (floats : Floats K) where
  host : String
  pid : ℕ
  events : List Event
  process : Process
  runs : run (step floats) (.initial host pid) events = some process

/-- The spans that the events have ended. -/
def endedOf (events : List Event) : List Ended :=
  ((run Ledger.step .initial events).map Ledger.ended).getD []

/-- The profile that a worker leaves. -/
def Worker.file (worker : Worker floats) : Bytes := Utf8.encode worker.process.file

section Statistics

variable [Field K] [LinearOrder K] {builtins : Builtins K}

/-- The statistics of some spans. -/
def statsOf (floats : Floats K) (ended : List Ended) : Stats K :=
  ended.foldl (fun stats span => stats.add (.float (floats.seconds span.elapsed))
    (span.status ≠ "ok")) .empty

/-- The spans of an event. -/
def named (name : String) (ended : List Ended) : List Ended := ended.filter (·.name = name)

/-- The profile of some spans. -/
def IsProfile (floats : Floats K) (ended : List Ended) (profile : Profile K) : Prop :=
  ∀ name, profile.lookup (codes name) =
    if named name ended = [] then none else some (statsOf floats (named name ended))

/-- The durations of some spans. -/
def durations (floats : Floats K) (ended : List Ended) : List (PyFloat K) :=
  ended.map fun span => floats.seconds span.elapsed

/-- What the statistics of some spans say: how many they are, how many of them failed, the sum of
their durations and the longest one. -/
structure Tally (floats : Floats K) (ended : List Ended) (stats : Stats K) : Prop where
  count : stats.count = ended.length
  errors : stats.errors = ended.countP (·.status ≠ "ok")
  total : ∀ seconds : List K, durations floats ended = seconds.map .finite →
    stats.total = .finite seconds.sum
  max : ∀ seconds : List K, durations floats ended = seconds.map .finite →
    ∃ longest, stats.max = .float (.finite longest) ∧
      IsGreatest (insert 0 {x | x ∈ seconds}) longest

theorem Tally.add {ended : List Ended} {stats : Stats K} (h : Tally floats ended stats)
    (span : Ended) : Tally floats (ended ++ [span])
      (stats.add (.float (floats.seconds span.elapsed)) (span.status ≠ "ok")) := by
  have hsplit : ∀ seconds : List K, durations floats (ended ++ [span]) = seconds.map .finite →
      ∃ before last, seconds = before ++ [last] ∧ durations floats ended = before.map .finite ∧
        floats.seconds span.elapsed = .finite last := by
    intro seconds heq
    rw [durations, List.map_append, List.map_singleton] at heq
    obtain ⟨before, rest, rfl, hbefore, hrest⟩ := List.map_eq_append_iff.mp heq.symm
    obtain ⟨last, rfl, hlast⟩ := List.map_eq_singleton_iff.mp hrest
    exact ⟨before, last, rfl, hbefore.symm, hlast.symm⟩
  refine ⟨?_, ?_, fun seconds heq => ?_, fun seconds heq => ?_⟩
  · rw [Stats.add, h.count, List.length_append, List.length_singleton]
  · rw [Stats.add, h.errors, List.countP_append, List.countP_singleton]
  · obtain ⟨before, last, rfl, hbefore, hlast⟩ := hsplit seconds heq
    rw [Stats.add, h.total before hbefore, hlast, List.sum_append, List.sum_singleton]
    rfl
  · obtain ⟨before, last, rfl, hbefore, hlast⟩ := hsplit seconds heq
    obtain ⟨longest, hmax, hgreatest⟩ := h.max before hbefore
    have hset : insert 0 {x | x ∈ before ++ [last]} = insert last (insert 0 {x | x ∈ before}) := by
      ext x
      simp only [Set.mem_insert_iff, Set.mem_ofPred_eq, List.mem_append, List.mem_singleton]
      tauto
    refine ⟨Max.max last longest, ?_, hset ▸ hgreatest.insert last⟩
    rw [Stats.add, hmax, hlast]
    show (if decide (longest < last) then Number.float (.finite last)
      else .float (.finite longest)) = _
    rcases lt_or_ge longest last with hlt | hle
    · rw [if_pos (decide_eq_true hlt), max_eq_left hlt.le]
    · rw [if_neg (by simpa using hle), max_eq_right hle]

theorem tally_statsOf (ended : List Ended) : Tally floats ended (statsOf floats ended) := by
  induction ended using List.reverseRecOn with
  | nil =>
    refine ⟨rfl, rfl, fun seconds heq => ?_, fun seconds heq => ?_⟩
    · obtain rfl := List.map_eq_nil_iff.mp heq.symm
      rfl
    · obtain rfl := List.map_eq_nil_iff.mp heq.symm
      exact ⟨0, rfl, by simp⟩
  | append_singleton ended span ih =>
    rw [statsOf, List.foldl_append]
    exact ih.add span

/-- One more span. -/
def countSpan (floats : Floats K) (profile : Profile K) (span : Ended) : Profile K :=
  profile.insert (codes span.name) (((profile.lookup (codes span.name)).getD .empty).add
    (.float (floats.seconds span.elapsed)) (span.status ≠ "ok"))

theorem IsProfile.countSpan {ended : List Ended} {profile : Profile K}
    (h : IsProfile floats ended profile) (span : Ended) :
    IsProfile floats (ended ++ [span]) (countSpan floats profile span) := by
  intro name
  by_cases hname : span.name = name
  · subst hname
    have hnamed : named span.name (ended ++ [span]) = named span.name ended ++ [span] := by
      rw [named, List.filter_append, List.filter_singleton, decide_eq_true rfl]
      rfl
    have hstats : (profile.lookup (codes span.name)).getD .empty =
        statsOf floats (named span.name ended) := by
      rw [h]
      split_ifs with hnone
      · rw [hnone]
        rfl
      · rfl
    have hsome : named span.name ended ++ [span] ≠ [] := by simp
    rw [Profiling.countSpan, AList.lookup_insert, hnamed, if_neg hsome, hstats, statsOf, statsOf,
      List.foldl_append]
    rfl
  · have hnamed : named name (ended ++ [span]) = named name ended := by
      rw [named, List.filter_append, List.filter_singleton, decide_eq_false hname]
      exact List.append_nil _
    have hcodes : codes name ≠ codes span.name := fun heq => hname (codes_injective heq).symm
    rw [Profiling.countSpan, AList.lookup_insert_ne hcodes, hnamed]
    exact h name

/-- What the reader makes of the line of a span. -/
theorem readEvent_line {scopes : Heap Scope} {record : Dict Value} {span : Ended}
    (h : IsRecord floats events scopes record span)
    (hrepr : builtins.literal (floats.repr (floats.seconds span.elapsed)) =
      .float (floats.seconds span.elapsed)) (profile : Profile K) :
    readEvent builtins profile (line record) = .ok (countSpan floats profile span) := by
  have hget : ∀ {key value}, record.lookup key = some value →
      Object.get (record.map fun item => (codes item.1, item.2.json)) key = some value.json :=
    fun hlookup => (get_toJson h.nodup _).trans (hlookup ▸ rfl)
  have hfailed : failed (some (Value.str span.status).json) = decide (span.status ≠ "ok") := by
    show decide (codes span.status ≠ codes "ok") = _
    simp only [ne_eq, codes_injective.eq_iff]
  have hduration : durationOf builtins (floats.duration span.elapsed).json =
      some (.float (floats.seconds span.elapsed)) := congrArg some hrepr
  have hname : (Value.str span.name).json = .string (codes span.name) := rfl
  rw [readEvent, loads_line, toJson, countSpan]
  simp only [hget h.event, hget h.duration, hget h.status, hname, Option.bind_some, hduration,
    hfailed]

theorem foldlM_lines {lines : List Text} {before ended : List Ended} {profile : Profile K}
    (hlines : List.Forall₂ (fun text span => ∀ profile,
      readEvent builtins profile text = .ok (countSpan floats profile span)) lines ended)
    (h : IsProfile floats before profile) :
    ∃ next, lines.foldlM (readEvent builtins) profile = .ok next ∧
      IsProfile floats (before ++ ended) next := by
  induction hlines generalizing before profile with
  | nil => exact ⟨profile, rfl, (List.append_nil before).symm ▸ h⟩
  | @cons text span lines ended hline _ ih =>
    obtain ⟨next, hnext, hprofile⟩ := ih (h.countSpan span)
    refine ⟨next, ?_, ?_⟩
    · rw [List.foldlM_cons, hline]
      exact hnext
    · rwa [List.append_assoc, List.singleton_append] at hprofile

/-- The lines of a worker are read as the spans that it has ended. -/
theorem Worker.lines (worker : Worker floats)
    (hrepr : ∀ span ∈ endedOf worker.events,
      builtins.literal (floats.repr (floats.seconds span.elapsed)) =
        .float (floats.seconds span.elapsed)) :
    List.Forall₂ (fun text span => ∀ profile,
      readEvent builtins profile text = .ok (countSpan floats profile span))
      (fileLines (Utf8.decode worker.file)) (endedOf worker.events) := by
  obtain ⟨l, hl, h⟩ := follows_of_run worker.runs
  obtain ⟨records, hfile, hrecords⟩ := h.written
  have hended : endedOf worker.events = l.ended := by rw [endedOf, hl]; rfl
  rw [hended] at hrepr ⊢
  rw [Worker.file, hfile, fileLines_records, List.forall₂_map_left_iff]
  clear hfile
  generalize l.ended = ended at hrecords hrepr
  induction hrecords with
  | nil => exact .nil
  | cons hrecord _ ih =>
    obtain ⟨hspan, hspans⟩ := List.forall_mem_cons.mp hrepr
    exact .cons (readEvent_line hrecord hspan) (ih hspans)

/-- **The profile of some workers** counts every span that was written once, under its own name: for
each name, how many there are, how many failed, their durations together and the longest one. -/
theorem readProfile_of_runs {workers : List (Worker floats)}
    (hrepr : ∀ worker ∈ workers, ∀ span ∈ endedOf worker.events,
      builtins.literal (floats.repr (floats.seconds span.elapsed)) =
        .float (floats.seconds span.elapsed)) :
    ∃ profile, readProfile builtins (some (workers.map Worker.file)) = .ok profile ∧
      IsProfile floats (workers.flatMap fun worker => endedOf worker.events) profile ∧
      ∀ name stats, profile.lookup (codes name) = some stats →
        Tally floats (named name (workers.flatMap fun worker => endedOf worker.events)) stats := by
  have hlines : List.Forall₂ (fun text span => ∀ profile,
      readEvent builtins profile text = .ok (countSpan floats profile span))
      ((workers.map Worker.file).flatMap fun bytes => fileLines (Utf8.decode bytes))
      (workers.flatMap fun worker => endedOf worker.events) := by
    induction workers with
    | nil => exact .nil
    | cons worker workers ih =>
      obtain ⟨hworker, hworkers⟩ := List.forall_mem_cons.mp hrepr
      exact List.rel_append (worker.lines hworker) (ih hworkers)
  have hempty : IsProfile floats [] (∅ : Profile K) := fun name => AList.lookup_empty _
  obtain ⟨profile, hread, hprofile⟩ := foldlM_lines hlines hempty
  refine ⟨profile, hread, hprofile, fun name stats hlookup => ?_⟩
  have hstats := (hprofile name).symm.trans hlookup
  split_ifs at hstats
  cases hstats
  exact tally_statsOf _

end Statistics

/-- The literals of a profile with the floats of the example. -/
def exampleBuiltins : Builtins ℚ where
  float _ := none
  literal text := if text = ['1', '.', '5'] then .float (.finite (3 / 2)) else .int 0

theorem readProfile_examplePrompt :
    ∃ worker : Worker exampleFloats, worker.events = examplePrompt ∧
      ∃ profile, readProfile exampleBuiltins (some ([worker].map Worker.file)) = .ok profile ∧
        profile.lookup (codes "prompt") =
          some ⟨1, .finite (3 / 2), .float (.finite (3 / 2)), 0⟩ ∧
        profile.lookup (codes "agent_episode") =
          some ⟨1, .finite (3 / 2), .float (.finite (3 / 2)), 1⟩ := by
  have hended : endedOf examplePrompt =
      [⟨0, "prompt", 1500000000, "ok"⟩, ⟨1, "agent_episode", 1500000000, "CancelledError"⟩] := rfl
  have hseconds : exampleFloats.seconds 1500000000 = .finite (3 / 2) := by
    show PyFloat.finite ((1500000000 : ℤ) / 1000000000 : ℚ) = _
    norm_num
  have hread : exampleBuiltins.literal (exampleFloats.repr (.finite (3 / 2))) =
      .float (.finite (3 / 2)) := by
    simp only [exampleFloats, exampleBuiltins, if_true]
  have hstats : ∀ scope name status, statsOf exampleFloats [⟨scope, name, 1500000000, status⟩] =
      ⟨1, .finite (3 / 2), .float (.finite (3 / 2)), if status ≠ "ok" then 1 else 0⟩ := by
    intro scope name status
    simp only [statsOf, List.foldl_cons, List.foldl_nil, hseconds, Stats.add, Stats.empty,
      Number.toFloat, addFloat, lessFloat]
    norm_num
  let worker : Worker exampleFloats := ⟨"node", 17, examplePrompt, _, rfl⟩
  have hrepr : ∀ other ∈ [worker], ∀ span ∈ endedOf other.events,
      exampleBuiltins.literal (exampleFloats.repr (exampleFloats.seconds span.elapsed)) =
        .float (exampleFloats.seconds span.elapsed) := by
    intro other hother span hspan
    cases List.mem_singleton.mp hother
    rw [hended] at hspan
    simp only [List.mem_cons, List.not_mem_nil, or_false] at hspan
    rcases hspan with rfl | rfl <;> rw [hseconds] <;> exact hread
  obtain ⟨profile, hprofile, hlookup, -⟩ := readProfile_of_runs hrepr
  have hprompt : named "prompt" ([worker].flatMap fun worker => endedOf worker.events) =
      [⟨0, "prompt", 1500000000, "ok"⟩] := rfl
  have hepisode : named "agent_episode" ([worker].flatMap fun worker => endedOf worker.events) =
      [⟨1, "agent_episode", 1500000000, "CancelledError"⟩] := rfl
  refine ⟨worker, rfl, profile, hprofile, ?_, ?_⟩
  · rw [hlookup, hprompt, hstats]
    rfl
  · rw [hlookup, hepisode, hstats]
    rfl

end Profiling
