/-
**Which of the attempts that events stand for a bench refuses.**

Failures are plans over the numbers of the attempts. So the events that a bench is to see, in order,
say by themselves which of them is refused first.

* `Bench.Tried`: from one bench to a later one, exactly these events were tried and the plans of
  failures stayed as they were;
* `Bench.refuses`: whether an event that comes after earlier ones is refused;
* `Bench.Accepts`: none of the events is refused when they come in order;
* `accepts_or_refuses`: events are all accepted or there is a first one that is refused;
* `Bench.Faultless.accepts`: a bench without faults accepts whatever it is able to do;
* `run_setLine`, `run_exchange_tried`, `run_mapBuffer_tried`: what is not refused succeeds, and what is
  refused fails.
-/

import Mathlib.Data.List.Induction
import PanelLink.Proofs.Bench.Trace

namespace PanelLink

/-! ### Attempts among events -/

namespace Event

/-- Whether the event is an attempt at a message. -/
def triesMessage : Event → Bool
  | message _ => true
  | messageFailed => true
  | _ => false

/-- Whether the event is an attempt at a mapping. -/
def triesMapping : Event → Bool
  | mapped _ _ => true
  | _ => false

/-- Whether the event is an attempt to use a line. -/
def uses (name : LineName) : Event → Bool
  | line other _ _ => other == name
  | _ => false

/-- The fault that is reported when the event is refused. -/
def fault : Event → LinkFault
  | message _ => .bus
  | messageFailed => .bus
  | mapped _ _ => .dmaMapping
  | _ => .gpio

end Event

/-- **Exactly these events were tried** from one bench to another: the log gained them, the attempts
were counted, and the plans of failures stayed as they were. -/
structure Bench.Tried (bench after : Bench) (events : List Event) : Prop where
  log : after.log = events.reverse ++ bench.log
  messageAttempts :
    after.messageAttempts = bench.messageAttempts + events.countP Event.triesMessage
  mappingAttempts :
    after.mappingAttempts = bench.mappingAttempts + events.countP Event.triesMapping
  lineAttempts : ∀ name,
    (after.line name).attempts = (bench.line name).attempts + events.countP (Event.uses name)
  messageFails : after.messageFails = bench.messageFails
  mappingFails : after.mappingFails = bench.mappingFails
  withoutMapping : after.withoutMapping = bench.withoutMapping
  lineFails : ∀ name, (after.line name).failsAt = (bench.line name).failsAt

namespace Bench

namespace Tried

theorem refl (bench : Bench) : bench.Tried bench [] :=
  ⟨rfl, rfl, rfl, fun _ => rfl, rfl, rfl, rfl, fun _ => rfl⟩

theorem trans {bench middle after : Bench} {first later : List Event}
    (tried : bench.Tried middle first) (next : middle.Tried after later) :
    bench.Tried after (first ++ later) := by
  refine ⟨?_, ?_, ?_, fun name => ?_, ?_, ?_, ?_, fun name => ?_⟩
  · rw [next.log, tried.log, List.reverse_append, List.append_assoc]
  · rw [next.messageAttempts, tried.messageAttempts, List.countP_append, Nat.add_assoc]
  · rw [next.mappingAttempts, tried.mappingAttempts, List.countP_append, Nat.add_assoc]
  · rw [next.lineAttempts, tried.lineAttempts, List.countP_append, Nat.add_assoc]
  · rw [next.messageFails, tried.messageFails]
  · rw [next.mappingFails, tried.mappingFails]
  · rw [next.withoutMapping, tried.withoutMapping]
  · rw [next.lineFails, tried.lineFails]

/-- What is tried changes no plan of failures. -/
theorem faultless {bench after : Bench} {events : List Event} {maps : Bool}
    (tried : bench.Tried after events) (faultless : bench.Faultless maps) : after.Faultless maps where
  messages := tried.messageFails ▸ faultless.messages
  mappings := tried.mappingFails ▸ faultless.mappings
  mappable := tried.withoutMapping ▸ faultless.mappable
  lines := fun name => tried.lineFails name ▸ faultless.lines name

end Tried

/-! ### Refusals -/

/-- **Whether the bench refuses** what an event stands for when it comes after earlier events. A
controller without mappings refuses each of them. -/
def refuses (bench : Bench) (earlier : List Event) : Event → Bool
  | .message _ => bench.messageFails (bench.messageAttempts + earlier.countP Event.triesMessage)
  | .mapped _ _ =>
    bench.withoutMapping ||
      bench.mappingFails (bench.mappingAttempts + earlier.countP Event.triesMapping)
  | .line name _ _ =>
    (bench.line name).failsAt ((bench.line name).attempts + earlier.countP (Event.uses name))
  | _ => false

/-- What is refused later does not depend on when one starts to count. -/
theorem Tried.refuses_eq {bench middle : Bench} {earlier : List Event}
    (tried : bench.Tried middle earlier) (later : List Event) (event : Event) :
    middle.refuses later event = bench.refuses (earlier ++ later) event := by
  cases event with
  | message segments =>
    rw [refuses, refuses, tried.messageFails, tried.messageAttempts, List.countP_append,
      Nat.add_assoc]
  | mapped slice handle =>
    rw [refuses, refuses, tried.withoutMapping, tried.mappingFails, tried.mappingAttempts,
      List.countP_append, Nat.add_assoc]
  | line name use outcome =>
    rw [refuses, refuses, tried.lineFails, tried.lineAttempts, List.countP_append, Nat.add_assoc]
  | pause milliseconds => rfl
  | messageFailed => rfl
  | unmapped handle => rfl
  | master call failed => rfl

/-- **None of the events is refused** when they come in order. -/
def Accepts (bench : Bench) (events : List Event) : Prop :=
  ∀ earlier event later, events = earlier ++ event :: later → bench.refuses earlier event = false

theorem accepts_nil (bench : Bench) : bench.Accepts [] := by
  intro earlier event later split
  cases earlier <;> cases split

/-- Events are accepted if the first one is and the bench after it accepts the others. -/
theorem accepts_cons_iff {bench middle : Bench} {event : Event} (tried : bench.Tried middle [event])
    (events : List Event) :
    bench.Accepts (event :: events) ↔ bench.refuses [] event = false ∧ middle.Accepts events := by
  refine ⟨fun accepts => ⟨accepts [] event events rfl, ?_⟩, fun ⟨first, others⟩ => ?_⟩
  · intro earlier other later split
    rw [tried.refuses_eq]
    exact accepts (event :: earlier) other later (congrArg (event :: ·) split)
  · intro earlier other later split
    cases earlier with
    | nil =>
      cases split
      exact first
    | cons head earlier =>
      cases split
      rw [← List.singleton_append, ← tried.refuses_eq]
      exact others earlier other later rfl

theorem Accepts.left {bench : Bench} {first later : List Event}
    (accepts : bench.Accepts (first ++ later)) : bench.Accepts first := by
  intro earlier event rest split
  refine accepts earlier event (rest ++ later) ?_
  rw [split, List.append_assoc, List.cons_append]

/-- **Events are all accepted, or there is a first one that is refused.** -/
theorem accepts_or_refuses (bench : Bench) (events : List Event) :
    bench.Accepts events ∨ ∃ earlier event later, events = earlier ++ event :: later ∧
      bench.Accepts earlier ∧ bench.refuses earlier event = true := by
  induction events using List.reverseRecOn with
  | nil => exact Or.inl bench.accepts_nil
  | append_singleton events last ih =>
    rcases ih with accepts | ⟨earlier, event, later, rfl, accepts, refused⟩
    · cases refused : bench.refuses events last with
      | true => exact Or.inr ⟨events, last, [], rfl, accepts, refused⟩
      | false =>
        refine Or.inl fun earlier event later split => ?_
        rcases List.append_eq_append_iff.mp split with ⟨rest, rfl, ends⟩ | ⟨rest, rfl, ends⟩
        · cases rest with
          | nil =>
            cases ends
            rw [List.append_nil]
            exact refused
          | cons head rest =>
            have none_left := congrArg List.length ends
            simp at none_left
        · cases rest with
          | nil =>
            cases ends
            rw [List.append_nil] at refused
            exact refused
          | cons head rest =>
            cases ends
            exact accepts earlier event rest rfl
    · refine Or.inr ⟨earlier, event, later ++ [last], ?_, accepts, refused⟩
      rw [List.append_assoc, List.cons_append]

/-- A bench without faults accepts whatever does not ask it for mappings that it lacks. -/
theorem Faultless.accepts {maps : Bool} {bench : Bench} (faultless : bench.Faultless maps)
    {events : List Event} (able : ∀ event ∈ events, event.triesMapping = true → maps = true) :
    bench.Accepts events := by
  intro earlier event later split
  have member : event ∈ events := by
    rw [split]
    exact List.mem_append_right _ List.mem_cons_self
  cases event with
  | message segments => exact faultless.messages _
  | mapped slice handle =>
    rw [refuses, faultless.mappable (able _ member rfl), faultless.mappings]
    rfl
  | line name use outcome => exact faultless.lines name _
  | pause milliseconds => rfl
  | messageFailed => rfl
  | unmapped handle => rfl
  | master call failed => rfl

end Bench

/-! ### Single actions -/

/-- An attempt to use a line counts for that line. -/
theorem tried_attempt (bench : Bench) (name : LineName) (use : LineUse) (outcome : UseOutcome) :
    bench.Tried ((bench.putLine name (bench.line name).attempted).record (.line name use outcome))
      [.line name use outcome] := by
  have stored (other : LineName) :
      ((bench.putLine name (bench.line name).attempted).record (.line name use outcome)).line other =
        if other = name then (bench.line name).attempted else bench.line other := by
    rw [← Bench.line_putLine]
    cases other <;> rfl
  refine ⟨?_, ?_, ?_, fun other => ?_, ?_, ?_, ?_, fun other => ?_⟩
  · exact congrArg (_ :: ·) (log_putLine bench name _)
  · cases name <;> rfl
  · cases name <;> rfl
  · rw [stored, List.countP_singleton, Event.uses]
    by_cases same : other = name
    · rw [if_pos same, same, beq_self_eq_true, if_pos rfl]
      rfl
    · rw [if_neg same, beq_false_of_ne fun back => same back.symm, if_neg Bool.false_ne_true,
        Nat.add_zero]
  · cases name <;> rfl
  · cases name <;> rfl
  · cases name <;> rfl
  · rw [stored]
    by_cases same : other = name
    · rw [if_pos same, same]
      rfl
    · rw [if_neg same]

/-- A line that takes a level is no further attempt. -/
theorem tried_write (bench : Bench) (name : LineName) (level : Bool) :
    bench.Tried ((bench.putLine name ((bench.line name).write level)).strobed name level) [] := by
  have stored (other : LineName) :
      ((bench.putLine name ((bench.line name).write level)).strobed name level).line other =
        if other = name then (bench.line name).write level else bench.line other := by
    rw [← Bench.line_putLine]
    unfold Bench.strobed
    split
    · cases other <;> rfl
    · rfl
  have other_fields {α : Type} (field : Bench → α)
      (put : ∀ line, field (bench.putLine name line) = field bench)
      (strobe : ∀ (start : Bench) word later,
        field { start with presented := word, samples := later } = field start) :
      field ((bench.putLine name ((bench.line name).write level)).strobed name level) =
        field bench := by
    unfold Bench.strobed
    split
    · rw [strobe, put]
    · exact put _
  refine ⟨?_, ?_, ?_, fun other => ?_, ?_, ?_, ?_, fun other => ?_⟩
  · exact (log_strobed _ name level).trans (log_putLine bench name _)
  · exact other_fields Bench.messageAttempts (fun line => by cases name <;> rfl) fun _ _ _ => rfl
  · exact other_fields Bench.mappingAttempts (fun line => by cases name <;> rfl) fun _ _ _ => rfl
  · rw [stored]
    by_cases same : other = name
    · rw [if_pos same, same]
      rfl
    · rw [if_neg same]
      rfl
  · exact other_fields Bench.messageFails (fun line => by cases name <;> rfl) fun _ _ _ => rfl
  · exact other_fields Bench.mappingFails (fun line => by cases name <;> rfl) fun _ _ _ => rfl
  · exact other_fields Bench.withoutMapping (fun line => by cases name <;> rfl) fun _ _ _ => rfl
  · rw [stored]
    by_cases same : other = name
    · rw [if_pos same, same]
      rfl
    · rw [if_neg same]

/-- **Setting a line** succeeds unless it is refused. -/
theorem run_setLine (bench : Bench) (name : LineName) (level : Bool) :
    if bench.refuses [] (.line name (.set level) .done) then
      ∃ after, (setLine name level).run.run bench = (.error .refused, after) ∧
        bench.Tried after [.line name (.set level) .refused]
    else
      ∃ after, (setLine name level).run.run bench = (.ok (), after) ∧
        bench.Tried after [.line name (.set level) .done] := by
  have attempt : (attemptUse name (.set level)).run.run bench =
      (if (bench.line name).outcomeOf (.set level) = .done then .ok () else .error .refused,
        (bench.putLine name (bench.line name).attempted).record
          (.line name (.set level) ((bench.line name).outcomeOf (.set level)))) := rfl
  show if (bench.line name).failsAt (bench.line name).attempts then _ else _
  cases fails : (bench.line name).failsAt (bench.line name).attempts with
  | true =>
    have outcome : (bench.line name).outcomeOf (.set level) = .refused := by
      unfold Line.outcomeOf
      rw [fails, if_pos rfl]
    rw [outcome, if_neg (by decide)] at attempt
    exact ⟨_, run_bind_error attempt, tried_attempt bench name _ _⟩
  | false =>
    have outcome : (bench.line name).outcomeOf (.set level) = .done := by
      unfold Line.outcomeOf
      rw [fails, if_neg Bool.false_ne_true]
    rw [outcome, if_pos rfl] at attempt
    exact ⟨_, (run_bind_ok attempt).trans rfl,
      (tried_attempt bench name _ _).trans (tried_write _ name level)⟩

/-- **A message** goes out unless it is refused. -/
theorem run_exchange_tried (bench : Bench) (segments : List Segment) :
    if bench.refuses [] (.message segments) then
      ∃ after, (exchange segments).run.run bench = (.error .refused, after) ∧
        bench.Tried after [.messageFailed]
    else
      ∃ received after, (exchange segments).run.run bench = (.ok received, after) ∧
        bench.Tried after [.message segments] := by
  show if bench.messageFails bench.messageAttempts then _ else _
  cases fails : bench.messageFails bench.messageAttempts with
  | true =>
    refine ⟨_, run_exchange_refused fails segments, ?_⟩
    exact ⟨rfl, rfl, rfl, fun name => by cases name <;> rfl, rfl, rfl, rfl,
      fun name => by cases name <;> rfl⟩
  | false =>
    refine ⟨_, _, run_exchange fails segments, ?_⟩
    exact ⟨rfl, rfl, rfl, fun name => by cases name <;> rfl, rfl, rfl, rfl,
      fun name => by cases name <;> rfl⟩

/-- What a mapping that is refused shows: nothing if the controller has no mappings. -/
def Bench.refusedMapping (bench : Bench) (slice : Slice) : List Event :=
  if bench.withoutMapping then [] else [.mapped slice none]

/-- **A mapping** is made unless it is refused, and then the controller answers with its handle. -/
theorem run_mapBuffer_tried (handleOf : Slice → Handle) (bench : Bench) (slice : Slice) :
    if bench.refuses [] (.mapped slice (some (handleOf slice))) then
      ∃ failure after, (mapBuffer handleOf slice).run.run bench = (.error failure, after) ∧
        bench.Tried after (bench.refusedMapping slice)
    else
      ∃ after, (mapBuffer handleOf slice).run.run bench = (.ok (handleOf slice), after) ∧
        bench.Tried after [.mapped slice (some (handleOf slice))] := by
  have tried (handle : Option Handle) : bench.Tried
      ({ bench with mappingAttempts := bench.mappingAttempts + 1 }.record (.mapped slice handle))
      [.mapped slice handle] :=
    ⟨rfl, rfl, rfl, fun name => by cases name <;> rfl, rfl, rfl, rfl,
      fun name => by cases name <;> rfl⟩
  show if bench.withoutMapping || bench.mappingFails bench.mappingAttempts then _ else _
  rw [Bench.refusedMapping]
  cases lacks : bench.withoutMapping with
  | true =>
    refine ⟨.unsupported, bench, ?_, Bench.Tried.refl bench⟩
    change (if bench.withoutMapping then _ else _ : BenchM _) bench = _
    rw [lacks]
    rfl
  | false =>
    cases fails : bench.mappingFails bench.mappingAttempts with
    | true =>
      refine ⟨.failed, _, ?_, tried none⟩
      change (if bench.withoutMapping then _ else
        if bench.mappingFails bench.mappingAttempts then _ else _ : BenchM _) bench = _
      rw [lacks, fails]
      rfl
    | false =>
      refine ⟨_, ?_, tried (some (handleOf slice))⟩
      change (if bench.withoutMapping then _ else
        if bench.mappingFails bench.mappingAttempts then _ else _ : BenchM _) bench = _
      rw [lacks, fails]
      rfl

theorem tried_unmap (bench : Bench) (handle : Handle) :
    bench.Tried (bench.record (.unmapped handle)) [.unmapped handle] :=
  ⟨rfl, rfl, rfl, fun name => by cases name <;> rfl, rfl, rfl, rfl,
    fun name => by cases name <;> rfl⟩

end PanelLink
