/-
**Phases between two uses of the chip select.**

A link that has a chip select sets it low for each phase of an access and high after it. What other
lines are used for comes between the two, and data lines are switched outside of them.

* `ChipState.Step` and `ChipState.Runs`: how far a link is in this, event by event;
* `Bracketed`: what can be said of all events together: the uses of the chip select alternate, a low
  level is taken back, other uses of lines are enclosed and switches are not;
* **`ChipState.Runs.bracketed`**: the one follows from the other;
* `Event.lineFault?`: what is reported when a use of a line fails;
* `Stops`: a use of lines that stops at the first one that fails.
-/

import Mathlib.Data.List.Chain
import Mathlib.Data.List.Induction
import PanelLink.Proofs.Bench.Wires

namespace PanelLink

namespace Event

/-- The level to which the chip select is set, or to which it was tried to set it. -/
def chipLevel? : Event → Option Bool
  | .line .chipSelect (.set level) _ => some level
  | _ => none

/-- Whether a line is switched to a direction, or that is tried. -/
def turns : Event → Bool
  | .line _ (.turn _) _ => true
  | _ => false

/-- The chip select is set low. -/
def selects : Event :=
  .line .chipSelect (.set false) .done

/-- The chip select is set high, or that is tried. -/
def releases (outcome : UseOutcome) : Event :=
  .line .chipSelect (.set true) outcome

/-- The event belongs to a phase: it is neither a use of the chip select nor a switch of a line. -/
def Inner (event : Event) : Prop :=
  event.chipLevel? = none ∧ event.turns = false

theorem inner_set (name : LineName) (other : name ≠ .chipSelect) {level : Bool}
    {outcome : UseOutcome} : (line name (.set level) outcome).Inner := by
  cases name with
  | chipSelect => exact absurd rfl other
  | _ => exact ⟨rfl, rfl⟩

/-- What is reported when a line fails at an event. -/
def lineFault? : Event → Option LinkFault
  | .line _ _ .done => none
  | .line _ (.turn _) _ => some .directionSwitch
  | .line _ _ _ => some .gpio
  | _ => none

theorem lineFault?_set {name : LineName} {level : Bool} {outcome : UseOutcome}
    (failed : outcome ≠ .done) : (line name (.set level) outcome).lineFault? = some .gpio := by
  cases outcome with
  | done => exact absurd rfl failed
  | _ => rfl

theorem lineFault?_sample {name : LineName} {outcome : UseOutcome} (failed : outcome ≠ .done) :
    (line name .sample outcome).lineFault? = some .gpio := by
  cases outcome with
  | done => exact absurd rfl failed
  | _ => rfl

theorem lineFault?_turn {name : LineName} {direction : Direction} {outcome : UseOutcome}
    (failed : outcome ≠ .done) :
    (line name (.turn direction) outcome).lineFault? = some .directionSwitch := by
  cases outcome with
  | done => exact absurd rfl failed
  | _ => rfl

end Event

/-! ### What is said of all events -/

/-- **Between the two uses of a pair**: the chip select was set low before, it is set high after, or
that is tried, and it is not used in between. -/
def Enclosed (before after : List Event) : Prop :=
  (∃ earlier first, before = earlier ++ Event.selects :: first ∧
      ∀ event ∈ first, event.chipLevel? = none) ∧
    ∃ second outcome later, after = second ++ Event.releases outcome :: later ∧
      ∀ event ∈ second, event.chipLevel? = none

/-- **The chip select brackets the phases** of an access. -/
structure Bracketed (events : List Event) : Prop where
  /-- Its uses alternate between low and high, beginning with low. -/
  alternates : List.IsChain (· ≠ ·) (true :: events.filterMap Event.chipLevel?)
  /-- Once it is low, it is set high or that is tried, before a line is switched. -/
  released : ∀ before after, events = before ++ Event.selects :: after →
    ∃ between outcome later, after = between ++ Event.releases outcome :: later ∧
      ∀ event ∈ between, event.Inner
  /-- All other uses of lines but switches are between the two uses of a pair. -/
  enclosed : ∀ before event after, events = before ++ event :: after → event.Inner →
    Enclosed before after
  /-- Switches are not. -/
  apart : ∀ before event after, events = before ++ event :: after → event.turns = true →
    ¬Enclosed before after

/-! ### How far a link is -/

inductive ChipState where
  /-- No phase has begun, or the last one was ended. -/
  | free
  | chosen
  /-- The chip select could not be set low. -/
  | refused
  deriving DecidableEq, Repr

namespace ChipState

/-- What one event may do. -/
inductive Step : ChipState → Event → ChipState → Prop
  | choose : Step .free Event.selects .chosen
  | refuse {outcome : UseOutcome} (failed : outcome ≠ .done) :
    Step .free (.line .chipSelect (.set false) outcome) .refused
  | inside {event : Event} (inner : event.Inner) : Step .chosen event .chosen
  | release (outcome : UseOutcome) : Step .chosen (Event.releases outcome) .free
  | turn {state : ChipState} (outside : state ≠ .chosen) (bit : Nat) (direction : Direction)
      (outcome : UseOutcome) : Step state (.line (.data bit) (.turn direction) outcome) state

theorem Step.chosen_of_selects {state last : ChipState} (step : Step state Event.selects last) :
    last = .chosen := by
  cases step with
  | choose => rfl
  | refuse failed => exact absurd rfl failed
  | inside => rfl

/-- What events in a row may do. -/
inductive Runs : ChipState → List Event → ChipState → Prop
  | done (state : ChipState) : Runs state [] state
  | next {state middle last : ChipState} {event : Event} {events : List Event}
      (step : Step state event middle) (runs : Runs middle events last) :
    Runs state (event :: events) last

namespace Runs

variable {state middle last : ChipState} {event : Event} {events first later : List Event}

theorem one (step : Step state event last) : Runs state [event] last :=
  .next step (.done last)

theorem append (runs : Runs state first middle) (runsOn : Runs middle later last) :
    Runs state (first ++ later) last := by
  induction runs with
  | done state => exact runsOn
  | next step _ ih => exact .next step (ih runsOn)

/-- Events in a row are done one after the other. -/
theorem split (runs : Runs state (first ++ later) last) :
    ∃ middle, Runs state first middle ∧ Runs middle later last := by
  induction first generalizing state with
  | nil => exact ⟨state, .done state, runs⟩
  | cons event first ih =>
    cases runs with
    | next step rest =>
      obtain ⟨middle, begun, ended⟩ := ih rest
      exact ⟨middle, .next step begun, ended⟩

/-- An event in a row is a step from where those before it end. -/
theorem split_cons (runs : Runs state (first ++ event :: later) last) :
    ∃ before after, Runs state first before ∧ Step before event after ∧ Runs after later last := by
  obtain ⟨before, begun, rest⟩ := runs.split
  cases rest with
  | next step ended => exact ⟨before, _, begun, step, ended⟩

/-- Events that lead nowhere. -/
theorem stay (steps : ∀ event ∈ events, Step state event state) : Runs state events state := by
  induction events with
  | nil => exact .done _
  | cons event events ih =>
    obtain ⟨first, others⟩ := List.forall_mem_cons.mp steps
    exact .next first (ih others)

/-- A phase stays open as long as the chip select is not used. -/
theorem chosen_of_unused (runs : Runs .chosen events last)
    (unused : ∀ event ∈ events, event.chipLevel? = none) : last = .chosen := by
  induction events with
  | nil =>
    cases runs
    rfl
  | cons event events ih =>
    cases runs with
    | next step rest =>
      cases step with
      | inside inner => exact ih rest fun other member => unused other (List.mem_cons_of_mem _ member)
      | release outcome => cases unused _ List.mem_cons_self
      | turn outside => exact absurd rfl outside

/-- **A phase that is open was begun**: the chip select was set low and not used since. -/
theorem opened (runs : Runs .free events .chosen) :
    ∃ earlier first, events = earlier ++ Event.selects :: first ∧
      ∀ event ∈ first, event.chipLevel? = none := by
  induction events using List.reverseRecOn with
  | nil => cases runs
  | append_singleton events event ih =>
    obtain ⟨before, after, begun, step, ended⟩ := runs.split_cons
    cases ended
    cases step with
    | choose => exact ⟨events, [], rfl, nofun⟩
    | inside inner =>
      obtain ⟨earlier, first, rfl, unused⟩ := ih begun
      refine ⟨earlier, first ++ [event], by rw [List.append_assoc, List.cons_append], ?_⟩
      exact List.forall_mem_append.mpr ⟨unused, List.forall_mem_singleton.mpr inner.1⟩
    | turn outside => exact absurd rfl outside

/-- **A phase that is open is ended** by the next use of the chip select. -/
theorem closed (runs : Runs .chosen events last) (ended : last ≠ .chosen) :
    ∃ between outcome later, events = between ++ Event.releases outcome :: later ∧
      ∀ event ∈ between, event.Inner := by
  induction events with
  | nil =>
    cases runs
    exact absurd rfl ended
  | cons event events ih =>
    cases runs with
    | next step rest =>
      cases step with
      | inside inner =>
        obtain ⟨between, outcome, later, rfl, all⟩ := ih rest
        exact ⟨event :: between, outcome, later, rfl, List.forall_mem_cons.mpr ⟨inner, all⟩⟩
      | release outcome => exact ⟨[], outcome, events, rfl, nofun⟩
      | turn outside => exact absurd rfl outside

/-- The level that the last use of the chip select asked for, if another use may follow. -/
def asked : ChipState → Bool
  | .free => true
  | .chosen => false
  | .refused => false

/-- The uses of the chip select alternate. -/
theorem alternates (runs : Runs state events last) :
    List.IsChain (· ≠ ·) (asked state :: events.filterMap Event.chipLevel?) := by
  induction runs with
  | done state => exact List.isChain_singleton _
  | @next state middle last event events step _ ih =>
    have used {level : Bool} (uses : event.chipLevel? = some level) (other : asked state ≠ level)
        (now : asked middle = level) :
        List.IsChain (· ≠ ·) (asked state :: (event :: events).filterMap Event.chipLevel?) := by
      rw [List.filterMap_cons_some uses, List.isChain_cons_cons]
      exact ⟨other, now ▸ ih⟩
    have unused (none : event.chipLevel? = none) (same : middle = state) :
        List.IsChain (· ≠ ·) (asked state :: (event :: events).filterMap Event.chipLevel?) := by
      rw [List.filterMap_cons_none none]
      exact same ▸ ih
    cases step with
    | choose => exact used rfl nofun rfl
    | refuse => exact used rfl nofun rfl
    | inside inner => exact unused inner.1 rfl
    | release => exact used rfl nofun rfl
    | turn => exact unused rfl rfl

/-- **What a link does in steps is bracketed**, if it does not end within a phase. -/
theorem bracketed (runs : Runs .free events last) (ended : last ≠ .chosen) : Bracketed events where
  alternates := runs.alternates
  released := by
    rintro before after rfl
    obtain ⟨_, _, -, step, rest⟩ := runs.split_cons
    cases step with
    | choose => exact rest.closed ended
    | refuse failed => exact absurd rfl failed
    | inside inner => cases inner.1
  enclosed := by
    rintro before event after rfl inner
    obtain ⟨_, _, begun, step, rest⟩ := runs.split_cons
    cases step with
    | choose => cases inner.1
    | refuse => cases inner.1
    | inside =>
      obtain ⟨between, outcome, later, split, all⟩ := rest.closed ended
      exact ⟨begun.opened, between, outcome, later, split, fun event member => (all event member).1⟩
    | release => cases inner.1
    | turn => cases inner.2
  apart := by
    rintro before event after rfl turns ⟨⟨earlier, first, rfl, unused⟩, -⟩
    obtain ⟨_, _, begun, step, -⟩ := runs.split_cons
    obtain ⟨_, _, -, opens, rest⟩ := begun.split_cons
    obtain rfl := opens.chosen_of_selects
    obtain rfl := rest.chosen_of_unused unused
    cases step with
    | inside inner =>
      rw [inner.2] at turns
      cases turns
    | release => cases turns
    | turn outside => exact outside rfl

/-- A chip select that never fails is high after the phases. -/
theorem level_of_works (runs : Runs .free events last) (ended : last ≠ .chosen)
    (used : ∃ event ∈ events, event.chipLevel? ≠ none)
    (works : ∀ level outcome, .line .chipSelect (.set level) outcome ∈ events → outcome = .done)
    (wires : Wires) : (wires.afterAll events).level .chipSelect = true := by
  induction events using List.reverseRecOn generalizing last with
  | nil =>
    obtain ⟨event, member, -⟩ := used
    exact absurd member List.not_mem_nil
  | append_singleton events event ih =>
    obtain ⟨before, after, begun, step, stays⟩ := runs.split_cons
    cases stays
    have final : event ∈ events ++ [event] := List.mem_append_right _ (List.mem_singleton_self event)
    rw [Wires.afterAll_append]
    cases step with
    | choose => exact absurd rfl ended
    | refuse failed => exact absurd (works _ _ final) failed
    | inside => exact absurd rfl ended
    | release outcome =>
      obtain rfl := works _ _ final
      rfl
    | turn outside bit direction outcome =>
      have apart : LineName.data bit ≠ .chipSelect := nofun
      show Event.levelAfter .chipSelect _ _ = true
      rw [Event.levelAfter_turn_of_ne apart]
      refine ih begun outside ?_ fun level outcome member =>
        works level outcome (List.mem_append_left _ member)
      obtain ⟨event, member, uses⟩ := used
      rcases List.mem_append.mp member with early | last
      · exact ⟨event, early, uses⟩
      · exact absurd (List.mem_singleton.mp last ▸ rfl) uses

end Runs

end ChipState

/-! ### Uses of lines that stop at a failure -/

/-- What an outcome tells of a line that failed. -/
def faultTold {ε α : Type} (tell : ε → Option LinkFault) : Except ε α → Option LinkFault
  | .ok _ => none
  | .error error => tell error

/-- **The use of lines stops at the first one that fails**, which is reported as the fault, and all of
its events are allowed. -/
def Stops {α : Type} (allowed : Event → Prop) (fault : LinkFault) (action : LineM α) : Prop :=
  ∀ bench result after, action.run.run bench = (result, after) →
    ∃ events, bench.Ran after events ∧ (∀ event ∈ events, allowed event) ∧
      events.findSome? Event.lineFault? = faultTold (fun _ => some fault) result

namespace Stops

variable {allowed : Event → Prop} {fault : LinkFault} {α β : Type}

theorem done (value : α) : Stops allowed fault (pure value) := by
  intro bench result after ran
  cases ran
  exact ⟨[], Bench.Ran.refl _, nofun, rfl⟩

theorem andThen {first : LineM α} {next : α → LineM β} (stops : Stops allowed fault first)
    (stopsNext : ∀ value, Stops allowed fault (next value)) :
    Stops allowed fault (first >>= next) := by
  intro bench result after ran
  match one : first.run.run bench with
  | (.ok value, middle) =>
    rw [run_bind_ok one] at ran
    obtain ⟨events, begun, all, fine⟩ := stops bench _ middle one
    obtain ⟨later, ended, allLater, told⟩ := stopsNext value middle result after ran
    refine ⟨_, begun.trans ended, List.forall_mem_append.mpr ⟨all, allLater⟩, ?_⟩
    rw [List.findSome?_append, fine, told]
    rfl
  | (.error error, middle) =>
    rw [run_bind_error one] at ran
    cases ran
    exact stops bench _ _ one

theorem forM {ι : Type} {action : ι → LineM PUnit} (stops : ∀ item, Stops allowed fault (action item))
    (items : List ι) : Stops allowed fault (items.forM action) := by
  induction items with
  | nil => exact done ()
  | cons item items ih => exact (stops item).andThen fun _ => ih

/-- A single use that fails is reported. -/
theorem once {action : LineM α} {event : UseOutcome → Event} {value : Wires → α}
    (uses : UsesOnce action event value) (all : ∀ outcome, allowed (event outcome))
    (fine : (event .done).lineFault? = none)
    (failed : ∀ outcome, outcome ≠ .done → (event outcome).lineFault? = some fault) :
    Stops allowed fault action := by
  intro bench result after ran
  rcases uses bench result after ran with ⟨rfl, done⟩ | ⟨rfl, -, outcome, broken, ended⟩
  · refine ⟨_, done, List.forall_mem_singleton.mpr (all .done), ?_⟩
    rw [List.findSome?_singleton, fine]
    rfl
  · refine ⟨_, ended, List.forall_mem_singleton.mpr (all outcome), ?_⟩
    rw [List.findSome?_singleton, failed outcome broken]
    rfl

theorem set {name : LineName} {level : Bool}
    (all : ∀ outcome, allowed (.line name (.set level) outcome)) :
    Stops allowed .gpio (setLine name level) :=
  once (usesOnce_setLine name level) all rfl fun _ => Event.lineFault?_set

theorem turn {name : LineName} {direction : Direction}
    (all : ∀ outcome, allowed (.line name (.turn direction) outcome)) :
    Stops allowed .directionSwitch (turnLine name direction) :=
  once (usesOnce_turnLine name direction) all rfl fun _ => Event.lineFault?_turn

theorem sample (all : ∀ bit outcome, allowed (.line (.data bit) .sample outcome)) (lines : Nat) :
    Stops allowed .gpio (sampleLines lines) := by
  have from_ (count : Nat) : ∀ bit, Stops allowed .gpio (sampleFrom bit count) := by
    induction count with
    | zero => exact fun bit => done 0
    | succ count ih =>
      intro bit
      exact (once (usesOnce_sampleLine bit) (all bit) rfl fun _ => Event.lineFault?_sample).andThen
        fun level => (ih (bit + 1)).andThen fun higher => done _
  exact from_ (min lines 32) 0

end Stops

/-- **Switching the data lines** stops at the first one that cannot be switched. -/
theorem switchLines_stops (allowed : Event → Prop) {count : Nat} {cached direction now : Direction}
    (turns : ∀ bit outcome, allowed (.line (.data bit) (.turn direction) outcome))
    {bench after : Bench} {result : Except LineFailure Bool}
    (ran : (switchLines count cached direction).run bench = ((now, result), after)) :
    ∃ events, bench.Ran after events ∧ (∀ event ∈ events, allowed event) ∧
      events.findSome? Event.lineFault? = faultTold (fun _ => some .directionSwitch) result := by
  unfold switchLines at ran
  by_cases still : cached = direction ∨ direction = .unset
  · rw [if_pos still] at ran
    cases ran
    exact ⟨[], Bench.Ran.refl _, nofun, rfl⟩
  · rw [if_neg still] at ran
    have stops : Stops allowed .directionSwitch
        ((List.range count).forM fun bit => turnLine (.data bit) direction) :=
      Stops.forM (fun bit => Stops.turn (turns bit)) _
    match turned : ((List.range count).forM fun bit => turnLine (.data bit) direction).run.run
        bench with
    | (outcome, middle) =>
      obtain ⟨events, went, all, told⟩ := stops bench outcome middle turned
      rw [StateT.run_bind, turned] at ran
      cases outcome with
      | ok =>
        cases ran
        exact ⟨events, went, all, told⟩
      | error error =>
        cases ran
        exact ⟨events, went, all, told⟩

end PanelLink
