/-
**What an action adds to the log of the bench.**

The log is what an observer of the wires sees. An action that does not look at the bench adds the same
events whenever it succeeds, and it succeeds whenever nothing is planned to fail.

* `Emits`: whenever the action succeeds, it adds exactly these events;
* `Bench.Faultless`: nothing on the bench is planned to fail;
* `Succeeds`: on a bench without faults the action succeeds and leaves a bench without faults;
* `Emits.bind`, `Emits.forM`, `Succeeds.bind`, `Succeeds.forM`: both follow the structure of the
  action.
-/

import PanelLink.Bench

namespace PanelLink

variable {ε α β : Type}

/-- The words that a call of a bus master asks to be written. -/
def MasterCall.written : MasterCall → List Nat
  | .write words => words.values
  | _ => []

/-! ### Running one action after another -/

theorem run_bind_ok {first : ExceptT ε BenchM α} {next : α → ExceptT ε BenchM β}
    {bench middle : Bench} {value : α} (ran : first.run.run bench = (.ok value, middle)) :
    (first >>= next).run.run bench = (next value).run.run middle := by
  rw [ExceptT.run_bind, StateT.run_bind, ran]
  rfl

theorem run_bind_error {first : ExceptT ε BenchM α} {next : α → ExceptT ε BenchM β}
    {bench middle : Bench} {error : ε} (ran : first.run.run bench = (.error error, middle)) :
    (first >>= next).run.run bench = (.error error, middle) := by
  rw [ExceptT.run_bind, StateT.run_bind, ran]
  rfl

/-- Two actions in a row succeed only if both do. -/
theorem run_bind_eq_ok {first : ExceptT ε BenchM α} {next : α → ExceptT ε BenchM β}
    {bench after : Bench} {result : β}
    (ran : (first >>= next).run.run bench = (.ok result, after)) :
    ∃ value middle, first.run.run bench = (.ok value, middle) ∧
      (next value).run.run middle = (.ok result, after) := by
  cases outcome : first.run.run bench with
  | mk out middle =>
    cases out with
    | ok value =>
      rw [run_bind_ok outcome] at ran
      exact ⟨value, middle, rfl, ran⟩
    | error error =>
      rw [run_bind_error outcome] at ran
      cases ran

/-! ### The events of an action that succeeds -/

/-- Whenever the action succeeds, it adds exactly these events to the log, the earliest first. -/
def Emits (action : ExceptT ε BenchM α) (events : List Event) : Prop :=
  ∀ bench value after, action.run.run bench = (.ok value, after) →
    after.log = events.reverse ++ bench.log

namespace Emits

theorem pure (value : α) : Emits (Pure.pure value : ExceptT ε BenchM α) [] := by
  intro bench result after ran
  cases ran
  rfl

theorem bind {first : ExceptT ε BenchM α} {next : α → ExceptT ε BenchM β}
    {events later : List Event} (emits : Emits first events)
    (emitsNext : ∀ value, Emits (next value) later) :
    Emits (first >>= next) (events ++ later) := by
  intro bench result after ran
  obtain ⟨value, middle, one, two⟩ := run_bind_eq_ok ran
  rw [emitsNext value middle result after two, emits bench value middle one,
    List.reverse_append, List.append_assoc]

/-- An action for each item adds the events of each item in turn. -/
theorem forM {ι : Type} {items : List ι} {action : ι → ExceptT ε BenchM PUnit}
    {events : ι → List Event} (emits : ∀ item ∈ items, Emits (action item) (events item)) :
    Emits (items.forM action) (items.flatMap events) := by
  induction items with
  | nil => exact pure PUnit.unit
  | cons item items ih =>
    exact (emits item List.mem_cons_self).bind fun _ =>
      ih fun other member => emits other (List.mem_cons_of_mem item member)

theorem adapt {ε' : Type} {action : ExceptT ε BenchM α} {events : List Event} (restate : ε → ε')
    (emits : Emits action events) : Emits (action.adapt restate) events := by
  intro bench value after ran
  have inner : action.run.run bench = (.ok value, after) := by
    rw [ExceptT.run_adapt, StateT.run_map] at ran
    cases outcome : action.run.run bench with
    | mk out middle =>
      rw [outcome] at ran
      cases out with
      | ok held =>
        cases ran
        rfl
      | error error => cases ran
  exact emits bench value after inner

end Emits

theorem log_putLine (bench : Bench) (name : LineName) (line : Line) :
    (bench.putLine name line).log = bench.log := by
  cases name <;> rfl

theorem log_strobed (bench : Bench) (name : LineName) (level : Bool) :
    (bench.strobed name level).log = bench.log := by
  unfold Bench.strobed
  split <;> rfl

/-- A use of a line is one event. -/
theorem emits_attemptUse (name : LineName) (use : LineUse) :
    Emits (attemptUse name use) [.line name use .done] := by
  intro bench value after ran
  change (if (bench.line name).outcomeOf use = .done then Except.ok () else .error LineFailure.refused,
    (bench.putLine name (bench.line name).attempted).record
      (.line name use ((bench.line name).outcomeOf use))) = _ at ran
  split at ran
  · rename_i works
    cases ran
    rw [works]
    exact congrArg (Event.line name use .done :: ·) (log_putLine bench name _)
  · cases ran

/-- A line that is set shows that and nothing else. -/
theorem emits_setLine (name : LineName) (level : Bool) :
    Emits (setLine name level) [.line name (.set level) .done] := by
  rw [← List.append_nil [Event.line name (.set level) .done]]
  refine (emits_attemptUse name (.set level)).bind fun _ => ?_
  intro bench value after ran
  cases ran
  exact (log_strobed _ name level).trans (log_putLine bench name _)

/-- The events of driving a connection. -/
def Connection.driven (connection : Connection) (level : Bool) : List Event :=
  match connection.line? with
  | some name => [.line name (.set level) .done]
  | none => []

theorem emits_drive (connection : Connection) (level : Bool) :
    Emits (connection.drive level) (connection.driven level) := by
  cases connection with
  | absent => exact Emits.pure ()
  | unconnected => exact Emits.pure ()
  | line name => exact (emits_setLine name level).adapt _

/-- A message that is not planned to fail goes out. -/
theorem run_exchange {bench : Bench} (works : bench.messageFails bench.messageAttempts = false)
    (segments : List Segment) :
    (exchange segments).run.run bench = (.ok (receiveAll segments bench.incoming).1,
      { bench with
        messageAttempts := bench.messageAttempts + 1
        incoming := (receiveAll segments bench.incoming).2 }.record (.message segments)) := by
  change (if bench.messageFails bench.messageAttempts then _ else _ : BenchM _) bench = _
  rw [works]
  rfl

/-- A message that is planned to fail is counted and logged as such. -/
theorem run_exchange_refused {bench : Bench}
    (fails : bench.messageFails bench.messageAttempts = true) (segments : List Segment) :
    (exchange segments).run.run bench = (.error .refused,
      { bench with messageAttempts := bench.messageAttempts + 1 }.record .messageFailed) := by
  change (if bench.messageFails bench.messageAttempts then _ else _ : BenchM _) bench = _
  rw [fails]
  rfl

/-- A message that goes out is one event. -/
theorem emits_exchange (segments : List Segment) :
    Emits (exchange segments) [.message segments] := by
  intro bench value after ran
  cases works : bench.messageFails bench.messageAttempts with
  | false =>
    rw [run_exchange works] at ran
    cases ran
    rfl
  | true =>
    rw [run_exchange_refused works] at ran
    cases ran

/-! ### Benches without faults -/

/-- Nothing on the bench is planned to fail. Whether buffers can be mapped matters only where they
are. -/
structure Bench.Faultless (maps : Bool) (bench : Bench) : Prop where
  messages : ∀ number, bench.messageFails number = false
  mappings : ∀ number, bench.mappingFails number = false
  /-- A controller that is asked for mappings has them. -/
  mappable : maps = true → bench.withoutMapping = false
  lines : ∀ name number, (bench.line name).failsAt number = false

theorem Bench.faultless_empty (maps : Bool) : ({} : Bench).Faultless maps :=
  ⟨fun _ => rfl, fun _ => rfl, fun _ => rfl, fun name _ => by cases name <;> rfl⟩

theorem Bench.Faultless.putLine {maps : Bool} {bench : Bench} (faultless : bench.Faultless maps)
    (name : LineName) {line : Line} (works : ∀ number, line.failsAt number = false) :
    (bench.putLine name line).Faultless maps := by
  refine ⟨?_, ?_, ?_, ?_⟩
  · cases name <;> exact faultless.messages
  · cases name <;> exact faultless.mappings
  · cases name <;> exact faultless.mappable
  · intro other number
    rw [Bench.line_putLine]
    split
    · exact works number
    · exact faultless.lines other number

/-- A bench with the same lines and the same plans has no faults either. -/
theorem Bench.Faultless.congr {maps : Bool} {bench other : Bench}
    (faultless : bench.Faultless maps) (messages : other.messageFails = bench.messageFails)
    (mappings : other.mappingFails = bench.mappingFails)
    (mappable : other.withoutMapping = bench.withoutMapping)
    (lines : ∀ name, other.line name = bench.line name) : other.Faultless maps :=
  ⟨messages ▸ faultless.messages, mappings ▸ faultless.mappings, mappable ▸ faultless.mappable,
    fun name => lines name ▸ faultless.lines name⟩

theorem Bench.Faultless.record {maps : Bool} {bench : Bench} (faultless : bench.Faultless maps)
    (event : Event) : (bench.record event).Faultless maps :=
  faultless.congr rfl rfl rfl fun name => by cases name <;> rfl

theorem Bench.Faultless.strobed {maps : Bool} {bench : Bench} (faultless : bench.Faultless maps)
    (name : LineName) (level : Bool) : (bench.strobed name level).Faultless maps := by
  unfold Bench.strobed
  split
  · exact faultless.congr rfl rfl rfl fun other => by cases other <;> rfl
  · exact faultless

/-- On a bench without faults the action succeeds and leaves a bench without faults. -/
def Succeeds (maps : Bool) (action : ExceptT ε BenchM α) : Prop :=
  ∀ bench : Bench, bench.Faultless maps →
    ∃ value after, action.run.run bench = (.ok value, after) ∧ after.Faultless maps

namespace Succeeds

variable {maps : Bool}

theorem pure (value : α) : Succeeds maps (Pure.pure value : ExceptT ε BenchM α) :=
  fun bench faultless => ⟨value, bench, rfl, faultless⟩

theorem bind {first : ExceptT ε BenchM α} {next : α → ExceptT ε BenchM β}
    (succeeds : Succeeds maps first) (succeedsNext : ∀ value, Succeeds maps (next value)) :
    Succeeds maps (first >>= next) := by
  intro bench faultless
  obtain ⟨value, middle, one, still⟩ := succeeds bench faultless
  obtain ⟨result, after, two, last⟩ := succeedsNext value middle still
  exact ⟨result, after, (run_bind_ok one).trans two, last⟩

theorem forM {ι : Type} {items : List ι} {action : ι → ExceptT ε BenchM PUnit}
    (succeeds : ∀ item ∈ items, Succeeds maps (action item)) :
    Succeeds maps (items.forM action) := by
  induction items with
  | nil => exact pure PUnit.unit
  | cons item items ih =>
    exact (succeeds item List.mem_cons_self).bind fun _ =>
      ih fun other member => succeeds other (List.mem_cons_of_mem item member)

theorem adapt {ε' : Type} {action : ExceptT ε BenchM α} (restate : ε → ε')
    (succeeds : Succeeds maps action) : Succeeds maps (action.adapt restate) := by
  intro bench faultless
  obtain ⟨value, after, ran, still⟩ := succeeds bench faultless
  refine ⟨value, after, ?_, still⟩
  rw [ExceptT.run_adapt, StateT.run_map, ran]
  rfl

end Succeeds

/-- A line that is not planned to fail can be set. -/
theorem succeeds_setLine (maps : Bool) (name : LineName) (level : Bool) :
    Succeeds maps (setLine name level) := by
  intro bench faultless
  have works : (bench.line name).outcomeOf (.set level) = .done := by
    unfold Line.outcomeOf
    rw [faultless.lines name, if_neg Bool.false_ne_true]
  have tried : (attemptUse name (.set level)).run.run bench = (.ok (),
      (bench.putLine name (bench.line name).attempted).record (.line name (.set level) .done)) := by
    change (if (bench.line name).outcomeOf (.set level) = .done then _ else _, _) = _
    rw [works]
    rfl
  have counted (number : Nat) : (bench.line name).attempted.failsAt number = false :=
    faultless.lines name number
  have fine := (faultless.putLine name counted).record (.line name (.set level) .done)
  refine ⟨(), _, (run_bind_ok tried).trans rfl, Bench.Faultless.strobed ?_ name level⟩
  exact fine.putLine name fun number => fine.lines name number

theorem succeeds_drive (maps : Bool) (connection : Connection) (level : Bool) :
    Succeeds maps (connection.drive level) := by
  cases connection with
  | absent => exact Succeeds.pure ()
  | unconnected => exact Succeeds.pure ()
  | line name => exact (succeeds_setLine maps name level).adapt _

theorem succeeds_exchange (maps : Bool) (segments : List Segment) :
    Succeeds maps (exchange segments) := by
  intro bench faultless
  exact ⟨_, _, run_exchange (faultless.messages _) segments,
    faultless.congr rfl rfl rfl fun name => by cases name <;> rfl⟩

end PanelLink
