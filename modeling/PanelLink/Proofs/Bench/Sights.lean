/-
**What is seen at the write strobe.**

A panel takes what is on the wires when the write strobe goes high. An observer who follows the
events notes the wires at each such moment, which data lines were set for it, and the word latched
before, as long as no data line was switched since.

* `Wires.row`: the number that the levels of some lines show;
* `Observer.sights`: what the observer notes in a run, with `sights_append`: run by run;
* `Wires.sampled_of_input`: what sampling data lines finds that are inputs;
* `latchEvents`: one latch, the strobe low, data lines set and the strobe high again;
* **`sights_latch`**: a latch is noted once, with the wires that it leaves.
-/

import Mathlib.Data.Nat.Bitwise
import Mathlib.Tactic.Ring
import PanelLink.Proofs.Bench.Wires

namespace PanelLink

/-! ### Rows of lines -/

/-- The number whose bits are the levels of lines, the first line giving the lowest bit. -/
def Wires.row (wires : Wires) (name : Nat → LineName) (count : Nat) : Nat :=
  Nat.ofBits fun bit : Fin count => wires.level (name bit)

/-- The word on the data lines. -/
def Wires.word (wires : Wires) (count : Nat) : Nat :=
  wires.row .data count

/-- All data lines are outputs. -/
def Wires.Driving (wires : Wires) (count : Nat) : Prop :=
  ∀ bit, bit < count → wires.direction (.data bit) = .output

theorem wordBit_of_lt {bit : Nat} (low : bit < 32) (word : Nat) :
    wordBit word bit = word.testBit bit := by
  simp [wordBit, low]

/-- Lines at the bits of a word show the word, as far as they reach. -/
theorem Wires.row_eq {wires : Wires} {name : Nat → LineName} {count word : Nat} (narrow : count ≤ 32)
    (levels : ∀ bit, bit < count → wires.level (name bit) = wordBit word bit) :
    wires.row name count = word % 2 ^ count := by
  rw [row, ← Nat.ofBits_testBit]
  congr 1
  funext bit
  rw [levels bit bit.isLt, wordBit_of_lt (bit.isLt.trans_le narrow)]

/-- Lines that are inputs are sampled one bit of the presented word after the other. -/
theorem Wires.sampledFrom_of_input {wires : Wires} {count : Nat} : ∀ {bit : Nat}, bit + count ≤ 32 →
    (∀ other, bit ≤ other → other < bit + count → wires.direction (.data other) = .input) →
    wires.sampledFrom bit count = wires.presented / 2 ^ bit % 2 ^ count * 2 ^ bit := by
  induction count with
  | zero =>
    intro bit _ _
    simp [sampledFrom, Nat.mod_one]
  | succ count ih =>
    intro bit narrow inputs
    have level : wires.seen bit = wires.presented.testBit bit := by
      rw [seen, if_pos (inputs bit (Nat.le_refl bit) (by omega)), wordBit_of_lt (by omega)]
    have here : (if wires.presented.testBit bit then 1 <<< bit else 0) =
        wires.presented / 2 ^ bit % 2 * 2 ^ bit := by
      rw [Nat.testBit_eq_decide_div_mod_eq, Nat.one_shiftLeft]
      rcases Nat.mod_two_eq_zero_or_one (wires.presented / 2 ^ bit) with zero | one
      · simp [zero]
      · simp [one]
    rw [sampledFrom, level, here,
      ih (by omega) fun other low high => inputs other (by omega) (by omega),
      Nat.pow_succ' (n := count), Nat.mod_mul, Nat.div_div_eq_div_mul, ← Nat.pow_succ, Nat.pow_succ]
    ring

/-- **Data lines that are inputs** are sampled as the word that the panel presents. -/
theorem Wires.sampled_of_input {wires : Wires} {count : Nat} (narrow : count ≤ 32)
    (inputs : ∀ bit, bit < count → wires.direction (.data bit) = .input) :
    wires.sampled count = wires.presented % 2 ^ count := by
  rw [sampled, Nat.min_eq_left narrow, sampledFrom_of_input (by omega) fun bit _ inRow =>
    inputs bit (by omega), Nat.pow_zero, Nat.div_one, Nat.mul_one]

/-! ### The observer -/

/-- The write strobe is set high. -/
def Event.latches : Event → Bool
  | .line .writeStrobe (.set true) .done => true
  | _ => false

/-- What is noted when the write strobe is set high. -/
structure Sight where
  /-- The wires right afterwards. -/
  wires : Wires
  /-- Whether the strobe was low, so that this is a rising edge. -/
  rose : Bool
  /-- The word latched just before, if no data line was switched since. -/
  before : Option Nat
  /-- The data lines that were set since the strobe was set high before. -/
  driven : List Nat

/-- What the observer keeps in mind. -/
structure Observer where
  wires : Wires
  /-- The word latched last, if no data line was switched since. -/
  before : Option Nat := none
  /-- The data lines that were set since the strobe was set high. -/
  driven : List Nat := []

namespace Observer

/-- The observer after an event, on a bus with a number of data lines. -/
def after (lines : Nat) (observer : Observer) (event : Event) : Observer :=
  let wires := observer.wires.after event
  match event with
  | .line .writeStrobe (.set true) .done => { wires, before := some (wires.word lines) }
  | .line (.data bit) (.set _) .done => { observer with wires, driven := observer.driven ++ [bit] }
  | .line (.data _) (.turn _) .done => { observer with wires, before := none }
  | _ => { observer with wires }

def afterAll (lines : Nat) (observer : Observer) (events : List Event) : Observer :=
  events.foldl (after lines) observer

def sight (observer : Observer) (event : Event) : Sight where
  wires := observer.wires.after event
  rose := !observer.wires.level .writeStrobe
  before := observer.before
  driven := observer.driven

/-- **What is noted in a run.** -/
def sights (lines : Nat) (observer : Observer) : List Event → List Sight
  | [] => []
  | event :: later =>
    (if event.latches then [observer.sight event] else []) ++
      (observer.after lines event).sights lines later

variable {lines : Nat}

@[simp] theorem afterAll_nil (observer : Observer) : observer.afterAll lines [] = observer :=
  rfl

@[simp] theorem afterAll_cons (observer : Observer) (event : Event) (events : List Event) :
    observer.afterAll lines (event :: events) = (observer.after lines event).afterAll lines events :=
  rfl

@[simp] theorem afterAll_append (observer : Observer) (first later : List Event) :
    observer.afterAll lines (first ++ later) =
      (observer.afterAll lines first).afterAll lines later :=
  List.foldl_append

@[simp] theorem wires_after (observer : Observer) (event : Event) :
    (observer.after lines event).wires = observer.wires.after event := by
  unfold after
  split <;> rfl

@[simp] theorem wires_afterAll (observer : Observer) (events : List Event) :
    (observer.afterAll lines events).wires = observer.wires.afterAll events := by
  induction events generalizing observer with
  | nil => rfl
  | cons event events ih => rw [afterAll_cons, ih, wires_after, Wires.afterAll_cons]

/-- A run is noted part by part. -/
theorem sights_append (observer : Observer) (first later : List Event) :
    observer.sights lines (first ++ later) =
      observer.sights lines first ++ (observer.afterAll lines first).sights lines later := by
  induction first generalizing observer with
  | nil => rfl
  | cons event first ih => rw [List.cons_append, sights, sights, ih, List.append_assoc, afterAll_cons]

/-- Nothing is noted while the write strobe is not set high. -/
theorem sights_of_still (observer : Observer) {events : List Event}
    (still : ∀ event ∈ events, event.latches = false) : observer.sights lines events = [] := by
  induction events generalizing observer with
  | nil => rfl
  | cons event events ih =>
    rw [sights, still event List.mem_cons_self,
      ih _ fun other member => still other (List.mem_cons_of_mem event member)]
    rfl

/-- What every event of a run keeps holds of the wires in everything that is noted. -/
theorem keeps_of_mem_sights (kept : Wires → Prop) {events : List Event} {sight : Sight}
    (keeps : ∀ event ∈ events, ∀ wires, kept wires → kept (wires.after event))
    {observer : Observer} (start : kept observer.wires)
    (noted : sight ∈ observer.sights lines events) : kept sight.wires := by
  induction events generalizing observer with
  | nil => exact absurd noted List.not_mem_nil
  | cons event events ih =>
    have next : kept (observer.wires.after event) := keeps event List.mem_cons_self _ start
    rcases List.mem_append.mp noted with here | later
    · split at here
      · rw [List.mem_singleton.mp here]
        exact next
      · exact absurd here List.not_mem_nil
    · refine ih (fun other member => keeps other (List.mem_cons_of_mem event member)) ?_ later
      rw [wires_after]
      exact next

/-- A level that no event changes is the level in everything that is noted. -/
theorem level_of_mem_sights {observer : Observer} {name : LineName} {events : List Event}
    (still : ∀ event ∈ events, ∀ level, event.levelAfter name level = level) {sight : Sight}
    (noted : sight ∈ observer.sights lines events) :
    sight.wires.level name = observer.wires.level name :=
  keeps_of_mem_sights (·.level name = observer.wires.level name)
    (fun event member _ same => (still event member _).trans same) rfl noted

/-- A direction that no event changes is the direction in everything that is noted. -/
theorem direction_of_mem_sights {observer : Observer} {name : LineName} {events : List Event}
    (still : ∀ event ∈ events, ∀ direction, event.directionAfter name direction = direction)
    {sight : Sight} (noted : sight ∈ observer.sights lines events) :
    sight.wires.direction name = observer.wires.direction name :=
  keeps_of_mem_sights (·.direction name = observer.wires.direction name)
    (fun event member _ same => (still event member _).trans same) rfl noted

end Observer

/-! ### Setting data lines -/

/-- The events of data lines that are set to their bits of a word. -/
def setEvents (bits : List Nat) (word : Nat) : List Event :=
  bits.map fun bit => .line (.data bit) (.set (wordBit word bit)) .done

section Latch

variable (wires : Wires) (bits : List Nat) (word : Nat)

theorem direction_setEvents (name : LineName) :
    (wires.afterAll (setEvents bits word)).direction name = wires.direction name := by
  induction bits generalizing wires with
  | nil => rfl
  | cons bit bits ih =>
    rw [setEvents, List.map_cons, Wires.afterAll_cons]
    exact ih (wires.after _)

/-- The lines that are set take their bits of the word, and the others stay as they were. -/
theorem level_setEvents (other : Nat) :
    (wires.afterAll (setEvents bits word)).level (.data other) =
      if other ∈ bits then wordBit word other else wires.level (.data other) := by
  induction bits generalizing wires with
  | nil => simp [setEvents]
  | cons bit bits ih =>
    have first :
        (wires.after (.line (.data bit) (.set (wordBit word bit)) .done)).level (.data other) =
          if other = bit then wordBit word other else wires.level (.data other) := by
      simp only [Wires.after, Levels.after, Event.levelAfter, LineName.data.injEq, eq_comm]
      split
      · rename_i same
        rw [same]
      · rfl
    rw [setEvents, List.map_cons, Wires.afterAll_cons, ← setEvents, ih, first]
    by_cases here : other = bit <;> by_cases later : other ∈ bits <;> simp [here, later]

/-- Setting data lines moves no other line. -/
theorem level_setEvents_of_ne {name : LineName} (other : ∀ bit, name ≠ .data bit) :
    (wires.afterAll (setEvents bits word)).level name = wires.level name := by
  induction bits generalizing wires with
  | nil => rfl
  | cons bit bits ih =>
    rw [setEvents, List.map_cons, Wires.afterAll_cons, ← setEvents, ih]
    exact if_neg (other bit).symm

theorem samples_setEvents :
    (wires.afterAll (setEvents bits word)).samples = wires.samples := by
  refine (Wires.queue_afterAll_of_still _ fun event member => ?_).2
  obtain ⟨bit, -, rfl⟩ := List.mem_map.mp member
  rfl

/-- Setting lines is all that the observer sees of them. -/
theorem afterAll_setEvents (lines : Nat) (observer : Observer) :
    observer.afterAll lines (setEvents bits word) =
      { observer with
        wires := observer.wires.afterAll (setEvents bits word)
        driven := observer.driven ++ bits } := by
  induction bits generalizing observer with
  | nil => simp [setEvents]
  | cons bit bits ih =>
    rw [setEvents, List.map_cons, Observer.afterAll_cons, ← setEvents, ih]
    simp [Observer.after, setEvents]

theorem latches_setEvents : ∀ event ∈ setEvents bits word, event.latches = false := by
  intro event member
  obtain ⟨bit, -, rfl⟩ := List.mem_map.mp member
  rfl

end Latch

/-- Sampling is nothing to the observer. -/
theorem Observer.afterAll_samples (lines : Nat) (observer : Observer) {events : List Event}
    (samples : ∀ event ∈ events, event.Samples) : observer.afterAll lines events = observer := by
  induction events with
  | nil => rfl
  | cons event events ih =>
    obtain ⟨bit, outcome, rfl⟩ := samples event List.mem_cons_self
    have one : observer.after lines (.line (.data bit) .sample outcome) = observer := by
      show { observer with wires := observer.wires.after _ } = observer
      rw [Wires.after_sample]
    rw [afterAll_cons, one]
    exact ih fun other member => samples other (List.mem_cons_of_mem _ member)

/-- **Switching data lines** makes the observer forget the word latched before. -/
theorem Observer.afterAll_turnEvents (lines : Nat) (observer : Observer) {count : Nat}
    (some : 0 < count) (direction : Direction) :
    observer.afterAll lines (turnEvents count direction) =
      { observer with
        wires := observer.wires.afterAll (turnEvents count direction)
        before := none } := by
  have forgets (bits : List Nat) (observer : Observer)
      (forgotten : bits = [] → observer.before = none) :
      observer.afterAll lines (bits.map fun bit => .line (.data bit) (.turn direction) .done) =
        { observer with
          wires := observer.wires.afterAll
            (bits.map fun bit => .line (.data bit) (.turn direction) .done)
          before := none } := by
    induction bits generalizing observer with
    | nil => rw [← forgotten rfl]; rfl
    | cons bit bits ih => exact ih _ fun _ => rfl
  refine forgets (List.range count) observer fun none => ?_
  have := congrArg List.length none
  simp at this
  omega

/-! ### One latch -/

/-- **A latch**: the strobe low, some data lines set to their bits of a word, the strobe high. -/
def latchEvents (bits : List Nat) (word : Nat) : List Event :=
  .line .writeStrobe (.set false) .done ::
    (setEvents bits word ++ [.line .writeStrobe (.set true) .done])

/-- The wires after a latch. -/
structure Wires.Latched (wires after : Wires) (bits : List Nat) (word : Nat) : Prop where
  data : ∀ bit, after.level (.data bit) =
    if bit ∈ bits then wordBit word bit else wires.level (.data bit)
  /-- The write strobe is high and no other line moves. -/
  others : ∀ name, name ≠ .writeStrobe → (∀ bit, name ≠ .data bit) →
    after.level name = wires.level name
  strobe : after.level .writeStrobe = true
  direction : after.direction = wires.direction
  samples : after.samples = wires.samples

theorem latched_latchEvents (wires : Wires) (bits : List Nat) (word : Nat) :
    wires.Latched (wires.afterAll (latchEvents bits word)) bits word := by
  have parts : wires.afterAll (latchEvents bits word) =
      ((wires.after (.line .writeStrobe (.set false) .done)).afterAll (setEvents bits word)).after
        (.line .writeStrobe (.set true) .done) := by
    rw [latchEvents, Wires.afterAll_cons, Wires.afterAll_append]
    rfl
  have strobed (wires : Wires) (level : Bool) {name : LineName} (other : name ≠ .writeStrobe) :
      (wires.after (.line .writeStrobe (.set level) .done)).level name = wires.level name :=
    if_neg other.symm
  rw [parts]
  refine ⟨fun bit => ?_, fun name notStrobe notData => ?_, ?_, ?_, ?_⟩
  · rw [strobed _ _ (by simp), level_setEvents, strobed _ _ (by simp)]
  · rw [strobed _ _ notStrobe, level_setEvents_of_ne _ _ _ notData, strobed _ _ notStrobe]
  · simp [Wires.after, Levels.after, Event.levelAfter]
  · funext name
    exact direction_setEvents _ bits word name
  · exact samples_setEvents _ bits word

/-- **A latch is noted once**, with the wires that it leaves. -/
theorem sights_latch (lines : Nat) (observer : Observer) (bits : List Nat) (word : Nat) :
    observer.sights lines (latchEvents bits word) =
      [{ wires := observer.wires.afterAll (latchEvents bits word)
         rose := true
         before := observer.before
         driven := observer.driven ++ bits }] := by
  have low : ((observer.wires.after (.line .writeStrobe (.set false) .done)).afterAll
      (setEvents bits word)).level .writeStrobe = false := by
    rw [level_setEvents_of_ne _ _ _ (by simp)]
    simp [Wires.after, Levels.after, Event.levelAfter]
  have begun : observer.sights lines (latchEvents bits word) =
      ((observer.after lines (.line .writeStrobe (.set false) .done)).afterAll lines
        (setEvents bits word)).sights lines [.line .writeStrobe (.set true) .done] := by
    rw [latchEvents, Observer.sights, Observer.sights_append,
      Observer.sights_of_still _ (latches_setEvents bits word)]
    rfl
  rw [begun, afterAll_setEvents, latchEvents, Wires.afterAll_cons, Wires.afterAll_append]
  simp [Observer.sights, Observer.sight, Event.latches, Observer.after, low]

/-- After a latch the observer remembers the word on the data lines. -/
theorem afterAll_latch (lines : Nat) (observer : Observer) (bits : List Nat) (word : Nat) :
    observer.afterAll lines (latchEvents bits word) =
      { wires := observer.wires.afterAll (latchEvents bits word)
        before := some ((observer.wires.afterAll (latchEvents bits word)).word lines) } := by
  rw [latchEvents, Observer.afterAll_cons, Observer.afterAll_append, afterAll_setEvents,
    Wires.afterAll_cons, Wires.afterAll_append]
  rfl

end PanelLink
