/-
**The wires, replayed from events.**

Levels, directions and what the panel presents are all that can be seen of a bench, and every use of
a line says what it does to them. The events of a run therefore tell how the wires look at its end
and at every moment of it.

* `Wires.after`: what one event does to the wires;
* `Bench.Ran`: from one bench to a later one exactly these events happened;
* `Bench.Working`: no line is planned to fail;
* `UsesOnce`: an action that uses one line once, with `usesOnce_setLine`, `usesOnce_turnLine` and
  `usesOnce_sampleLine`;
* `UsesOnce.forM_ran`: one use after the other, up to the first one that fails;
* `driveLines_ran`, `switchLines_ran`, `sampleLines_ran`: the lines of a bus together;
* `run_then_cases`: of two actions in a row the second one runs where the first one succeeds;
* `Keeps`: an action that keeps its memory and leaves allowed events only.
-/

import PanelLink.Proofs.Bench.LineUses

namespace PanelLink

/-- The direction of a line after an event. -/
def Event.directionAfter (name : LineName) (direction : Direction) : Event → Direction
  | .line other (.turn new) .done => if other = name then new else direction
  | _ => direction

/-- Whether the panel presents its next word at an event. -/
def Event.fetches : Event → Bool
  | .line .readStrobe (.set false) .done => true
  | _ => false

theorem Event.levelAfter_set_of_ne {name other : LineName} (apart : name ≠ other) (new : Bool)
    (outcome : UseOutcome) (level : Bool) :
    (Event.line name (.set new) outcome).levelAfter other level = level := by
  cases outcome with
  | done => exact if_neg apart
  | refused => rfl
  | stuck => rfl

theorem Event.levelAfter_turn_of_ne {name other : LineName} (apart : name ≠ other)
    (direction : Direction) (outcome : UseOutcome) (level : Bool) :
    (Event.line name (.turn direction) outcome).levelAfter other level = level := by
  cases outcome with
  | done =>
    cases direction with
    | output => exact if_neg apart
    | unset => rfl
    | input => rfl
  | refused => cases direction <;> rfl
  | stuck => cases direction <;> rfl

/-- What can be seen of a bench. -/
@[ext]
structure Wires where
  level : Levels
  direction : LineName → Direction
  /-- The word that the panel presents on the data lines. -/
  presented : Nat
  /-- The words that the panel presents next, one for each read strobe. -/
  samples : List Nat

namespace Wires

def after (wires : Wires) (event : Event) : Wires where
  level := wires.level.after event
  direction := fun name => event.directionAfter name (wires.direction name)
  presented := if event.fetches then wires.samples.headD wires.presented else wires.presented
  samples := if event.fetches then wires.samples.tail else wires.samples

/-- The wires after events in order. -/
def afterAll (wires : Wires) (events : List Event) : Wires :=
  events.foldl after wires

@[simp] theorem afterAll_nil (wires : Wires) : wires.afterAll [] = wires :=
  rfl

@[simp] theorem afterAll_cons (wires : Wires) (event : Event) (events : List Event) :
    wires.afterAll (event :: events) = (wires.after event).afterAll events :=
  rfl

@[simp] theorem afterAll_append (wires : Wires) (first later : List Event) :
    wires.afterAll (first ++ later) = (wires.afterAll first).afterAll later :=
  List.foldl_append

/-- The level on a data line: what the panel presents if the line is an input, else what the line
drives. -/
def seen (wires : Wires) (bit : Nat) : Bool :=
  if wires.direction (.data bit) = .input then wordBit wires.presented bit
  else wires.level (.data bit)

/-- An event that was not carried out changes nothing. -/
theorem after_of_not_done (wires : Wires) (name : LineName) (use : LineUse) {outcome : UseOutcome}
    (failed : outcome ≠ .done) : wires.after (.line name use outcome) = wires := by
  have idle : (Event.line name use outcome).fetches = false := by
    unfold Event.fetches
    split <;> simp_all
  ext1
  · funext other
    show Event.levelAfter other _ _ = _
    unfold Event.levelAfter
    split <;> simp_all
  · funext other
    show Event.directionAfter other _ _ = _
    unfold Event.directionAfter
    split <;> simp_all
  · simp [after, idle]
  · simp [after, idle]

/-- What every event of a run keeps, the run keeps. -/
theorem afterAll_keeps (kept : Wires → Prop) {events : List Event}
    (keeps : ∀ event ∈ events, ∀ wires, kept wires → kept (wires.after event)) {wires : Wires}
    (start : kept wires) : kept (wires.afterAll events) :=
  List.foldlRecOn events after start fun wires held event member => keeps event member wires held

/-- A line that no event moves keeps its level. -/
theorem level_afterAll_of_still {wires : Wires} {name : LineName} {events : List Event}
    (still : ∀ event ∈ events, ∀ level, event.levelAfter name level = level) :
    (wires.afterAll events).level name = wires.level name :=
  afterAll_keeps (·.level name = wires.level name)
    (fun event member _ same => (still event member _).trans same) rfl

/-- A line that no event switches keeps its direction. -/
theorem direction_afterAll_of_still {wires : Wires} {name : LineName} {events : List Event}
    (still : ∀ event ∈ events, ∀ direction, event.directionAfter name direction = direction) :
    (wires.afterAll events).direction name = wires.direction name :=
  afterAll_keeps (·.direction name = wires.direction name)
    (fun event member _ same => (still event member _).trans same) rfl

/-- Where no read strobe goes low, the panel goes on presenting what it presents. -/
theorem queue_afterAll_of_still (wires : Wires) {events : List Event}
    (still : ∀ event ∈ events, event.fetches = false) :
    (wires.afterAll events).presented = wires.presented ∧
      (wires.afterAll events).samples = wires.samples := by
  refine afterAll_keeps (fun now => now.presented = wires.presented ∧ now.samples = wires.samples)
    (fun event member now same => ?_) ⟨rfl, rfl⟩
  simpa [after, still event member] using same

/-- A line that is sampled stays as it is. -/
theorem after_sample (wires : Wires) (name : LineName) (outcome : UseOutcome) :
    wires.after (.line name .sample outcome) = wires := by
  cases name <;> rfl

end Wires

namespace Bench

def wires (bench : Bench) : Wires where
  level := bench.levels
  direction := fun name => (bench.line name).direction
  presented := bench.presented
  samples := bench.samples

/-- No line is planned to fail. -/
def Working (bench : Bench) : Prop :=
  ∀ name, (∀ attempt, (bench.line name).failsAt attempt = false) ∧ (bench.line name).stuck = false

/-- **Exactly these events** lead from one bench to another: they are what the log gained, they
explain the wires, and they leave the plans of failures alone. -/
structure Ran (bench after : Bench) (events : List Event) : Prop where
  log : after.log = events.reverse ++ bench.log
  wires : after.wires = bench.wires.afterAll events
  plans : ∀ name, (after.line name).failsAt = (bench.line name).failsAt ∧
    (after.line name).stuck = (bench.line name).stuck

namespace Ran

theorem refl (bench : Bench) : bench.Ran bench [] :=
  ⟨rfl, rfl, fun _ => ⟨rfl, rfl⟩⟩

theorem trans {bench middle after : Bench} {first later : List Event}
    (ran : bench.Ran middle first) (ranOn : middle.Ran after later) :
    bench.Ran after (first ++ later) where
  log := by rw [ranOn.log, ran.log, List.reverse_append, List.append_assoc]
  wires := by rw [ranOn.wires, ran.wires, Wires.afterAll_append]
  plans name :=
    ⟨(ranOn.plans name).1.trans (ran.plans name).1, (ranOn.plans name).2.trans (ran.plans name).2⟩

/-- Only one list of events can lead from one bench to another. -/
theorem unique {bench after : Bench} {events others : List Event} (ran : bench.Ran after events)
    (ranToo : bench.Ran after others) : events = others :=
  List.reverse_inj.mp (List.append_cancel_right (ran.log.symm.trans ranToo.log))

theorem working {bench after : Bench} {events : List Event} (ran : bench.Ran after events)
    (working : bench.Working) : after.Working := by
  intro name
  rw [(ran.plans name).1, (ran.plans name).2]
  exact working name

end Ran

/-! ### The parts of a line use -/

theorem wires_record (bench : Bench) (event : Event) : (bench.record event).wires = bench.wires := by
  ext1
  · exact levels_record bench event
  · funext name
    cases name <;> rfl
  · rfl
  · rfl

/-- Storing a line shows its level and its direction. -/
theorem wires_putLine (bench : Bench) (name : LineName) (line : Line) :
    (bench.putLine name line).wires =
      { bench.wires with
        level := fun other => if other = name then line.level else bench.wires.level other
        direction := fun other =>
          if other = name then line.direction else bench.wires.direction other } := by
  ext1
  · exact levels_putLine bench name line
  · funext other
    simp only [wires, line_putLine]
    split <;> rfl
  · cases name <;> rfl
  · cases name <;> rfl

/-- A line that is put back as it was shows nothing new. -/
theorem wires_putLine_same (bench : Bench) (name : LineName) (line : Line)
    (level : line.level = (bench.line name).level)
    (direction : line.direction = (bench.line name).direction) :
    (bench.putLine name line).wires = bench.wires := by
  rw [wires_putLine, level, direction]
  ext1
  · funext other
    exact ite_eq_right_iff.mpr fun same => by rw [same]; rfl
  · funext other
    exact ite_eq_right_iff.mpr fun same => by rw [same]; rfl
  · rfl
  · rfl

/-- A read strobe that goes low shows the next word of the panel. -/
theorem wires_strobed (bench : Bench) (name : LineName) (level : Bool) :
    (bench.strobed name level).wires =
      { bench.wires with
        presented := (bench.wires.after (.line name (.set level) .done)).presented
        samples := (bench.wires.after (.line name (.set level) .done)).samples } := by
  by_cases falls : name = .readStrobe ∧ level = false
  · obtain ⟨rfl, rfl⟩ := falls
    ext1
    · exact levels_strobed bench _ _
    · funext other
      unfold Bench.strobed
      split
      · cases other <;> rfl
      · rfl
    · cases queue : bench.samples <;> simp [Bench.strobed, queue, wires, Wires.after, Event.fetches]
    · cases queue : bench.samples <;> simp [Bench.strobed, queue, wires, Wires.after, Event.fetches]
  · have still : bench.strobed name level = bench := by
      unfold Bench.strobed
      split
      · exact absurd ⟨rfl, rfl⟩ falls
      · rfl
    have idle : (Event.line name (.set level) .done).fetches = false := by
      unfold Event.fetches
      split
      · rename_i same
        cases same
        exact absurd ⟨rfl, rfl⟩ falls
      · rfl
    rw [still]
    simp [Wires.after, idle]

end Bench

/-! ### One use of a line -/

theorem outcomeOf_of_working {bench : Bench} (working : bench.Working) (name : LineName)
    (use : LineUse) : (bench.line name).outcomeOf use = .done := by
  unfold Line.outcomeOf
  rw [(working name).1, if_neg Bool.false_ne_true]
  split
  · rw [(working name).2, if_neg Bool.false_ne_true]
  · rfl

namespace Bench

theorem line_record (bench : Bench) (event : Event) (name : LineName) :
    (bench.record event).line name = bench.line name := by
  cases name <;> rfl

theorem line_strobed (bench : Bench) (name : LineName) (level : Bool) (other : LineName) :
    (bench.strobed name level).line other = bench.line other := by
  unfold Bench.strobed
  split
  · cases other <;> rfl
  · rfl

/-- Storing a line with the plans that it had keeps all plans. -/
theorem plans_putLine (bench : Bench) (name : LineName) (line : Line)
    (fails : line.failsAt = (bench.line name).failsAt) (stuck : line.stuck = (bench.line name).stuck)
    (other : LineName) :
    ((bench.putLine name line).line other).failsAt = (bench.line other).failsAt ∧
      ((bench.putLine name line).line other).stuck = (bench.line other).stuck := by
  rw [line_putLine]
  split
  · rename_i same
    rw [same]
    exact ⟨fails, stuck⟩
  · exact ⟨rfl, rfl⟩

/-- An attempt is logged and shows nothing by itself. -/
structure Attempted (bench after : Bench) (event : Event) : Prop where
  log : after.log = event :: bench.log
  wires : after.wires = bench.wires
  plans : ∀ name, (after.line name).failsAt = (bench.line name).failsAt ∧
    (after.line name).stuck = (bench.line name).stuck

theorem attempted (bench : Bench) (name : LineName) (event : Event) :
    bench.Attempted ((bench.putLine name (bench.line name).attempted).record event) event where
  log := congrArg (_ :: ·) (log_putLine bench name _)
  wires := (wires_record _ event).trans
    (wires_putLine_same bench name (bench.line name).attempted rfl rfl)
  plans other := by
    rw [line_record]
    exact plans_putLine bench name (bench.line name).attempted rfl rfl other

/-- What an action does to a bench when its attempt to use a line succeeds. -/
structure Effect (name : LineName) (use : LineUse) (effect : Bench → Bench) : Prop where
  log : ∀ bench, (effect bench).log = bench.log
  wires : ∀ bench, (effect bench).wires = bench.wires.after (.line name use .done)
  plans : ∀ bench other, ((effect bench).line other).failsAt = (bench.line other).failsAt ∧
    ((effect bench).line other).stuck = (bench.line other).stuck

theorem effect_set (name : LineName) (level : Bool) :
    Effect name (.set level) fun bench =>
      (bench.putLine name ((bench.line name).write level)).strobed name level where
  log bench := (log_strobed _ name level).trans (log_putLine bench name _)
  wires bench := by
    rw [wires_strobed, wires_putLine]
    ext1
    · funext other
      show (if other = name then level else _) = if name = other then level else _
      simp only [eq_comm]
    · funext other
      show (if other = name then _ else _) = _
      split
      · rename_i same
        rw [same]
        rfl
      · rfl
    · rfl
    · rfl
  plans bench other := by
    rw [line_strobed]
    exact plans_putLine bench name ((bench.line name).write level) rfl rfl other

theorem effect_turn (name : LineName) (direction : Direction) :
    Effect name (.turn direction) fun bench =>
      bench.putLine name ((bench.line name).turn direction) where
  log bench := log_putLine bench name _
  wires bench := by
    rw [wires_putLine]
    ext1
    · funext other
      by_cases same : other = name
      · subst same
        cases direction <;> simp [Wires.after, Levels.after, Event.levelAfter, Line.turn, wires, levels]
      · cases direction <;>
          simp [Wires.after, Levels.after, Event.levelAfter, same, Ne.symm same]
    · funext other
      show (if other = name then direction else _) = if name = other then direction else _
      simp only [eq_comm]
    · cases name <;> rfl
    · cases name <;> rfl
  plans bench other := plans_putLine bench name ((bench.line name).turn direction) rfl rfl other

theorem effect_sample (bit : Nat) : Effect (.data bit) .sample id where
  log _ := rfl
  wires bench := (bench.wires.after_sample _ _).symm
  plans _ _ := ⟨rfl, rfl⟩

end Bench

/-- **The action uses one line once.** It is carried out, and its value is read off the wires, or it
fails and changes nothing, which it cannot do on a bench whose lines work. -/
def UsesOnce {α : Type} (action : LineM α) (event : UseOutcome → Event) (value : Wires → α) : Prop :=
  ∀ bench result after, action.run.run bench = (result, after) →
    (result = .ok (value bench.wires) ∧ bench.Ran after [event .done]) ∨
      (result = .error .refused ∧ ¬bench.Working ∧
        ∃ outcome, outcome ≠ .done ∧ bench.Ran after [event outcome])

/-- An attempt, followed by its effect if it succeeds, is one use. -/
theorem usesOnce_of_effect {α : Type} {name : LineName} {use : LineUse} {effect : Bench → Bench}
    (acts : Bench.Effect name use effect) (value : Wires → α) :
    UsesOnce (attemptUse name use >>= fun _ =>
      ExceptT.mk fun bench => (.ok (value bench.wires), effect bench)) (.line name use) value := by
  intro bench result after ran
  have tried : (attemptUse name use).run.run bench =
      (if (bench.line name).outcomeOf use = .done then .ok () else .error .refused,
        (bench.putLine name (bench.line name).attempted).record
          (.line name use ((bench.line name).outcomeOf use))) := rfl
  have facts := bench.attempted name (.line name use ((bench.line name).outcomeOf use))
  by_cases works : (bench.line name).outcomeOf use = .done
  · rw [works] at facts
    rw [works, if_pos rfl] at tried
    rw [run_bind_ok tried] at ran
    cases ran
    refine Or.inl ⟨by rw [facts.wires], ?_, ?_, fun other => ?_⟩
    · rw [acts.log, facts.log]
      rfl
    · rw [acts.wires, facts.wires]
      rfl
    · rw [(acts.plans _ other).1, (acts.plans _ other).2]
      exact facts.plans other
  · rw [if_neg works] at tried
    rw [run_bind_error tried] at ran
    cases ran
    refine Or.inr ⟨rfl, fun working => works (outcomeOf_of_working working name use), _, works, ?_⟩
    refine ⟨facts.log, ?_, facts.plans⟩
    rw [facts.wires]
    exact (Wires.after_of_not_done _ name use works).symm

theorem usesOnce_setLine (name : LineName) (level : Bool) :
    UsesOnce (setLine name level) (.line name (.set level)) fun _ => () :=
  usesOnce_of_effect (Bench.effect_set name level) fun _ => ()

theorem usesOnce_turnLine (name : LineName) (direction : Direction) :
    UsesOnce (turnLine name direction) (.line name (.turn direction)) fun _ => () :=
  usesOnce_of_effect (Bench.effect_turn name direction) fun _ => ()

theorem usesOnce_sampleLine (bit : Nat) :
    UsesOnce (sampleLine bit) (.line (.data bit) .sample) (·.seen bit) :=
  usesOnce_of_effect (Bench.effect_sample bit) (·.seen bit)

/-! ### Lines used one after the other -/

/-- **One use after the other** carries them all out, or stops at the first one that fails. -/
theorem forM_ran {ι : Type} {action : ι → LineM PUnit} {event : ι → UseOutcome → Event}
    (uses : ∀ item, UsesOnce (action item) (event item) fun _ => ()) {items : List ι}
    {bench after : Bench} {result : Except LineFailure Unit}
    (ran : (items.forM action).run.run bench = (result, after)) :
    (result = .ok () ∧ bench.Ran after (items.map (event · .done))) ∨
      (result = .error .refused ∧ ¬bench.Working ∧
        ∃ earlier item later outcome, items = earlier ++ item :: later ∧ outcome ≠ .done ∧
          bench.Ran after (earlier.map (event · .done) ++ [event item outcome])) := by
  induction items generalizing bench with
  | nil =>
    cases ran
    exact Or.inl ⟨rfl, Bench.Ran.refl _⟩
  | cons item items ih =>
    change (action item >>= fun _ => items.forM action).run.run bench = _ at ran
    cases used : (action item).run.run bench with
    | mk answer middle =>
      rcases uses item bench answer middle used with
        ⟨rfl, one⟩ | ⟨rfl, broken, outcome, failed, one⟩
      · rw [run_bind_ok used] at ran
        rcases ih ran with
          ⟨rfl, others⟩ | ⟨rfl, broken, earlier, stop, later, outcome, rfl, failed, others⟩
        · exact Or.inl ⟨rfl, one.trans others⟩
        · refine Or.inr ⟨rfl, fun working => broken (one.working working), item :: earlier, stop,
            later, outcome, rfl, failed, one.trans others⟩
      · rw [run_bind_error used] at ran
        cases ran
        exact Or.inr ⟨rfl, broken, [], item, items, outcome, rfl, failed, one⟩

/-- The events of lines set to the bits of a word. -/
def driveEvents (name : Nat → LineName) (count word : Nat) : List Event :=
  (List.range count).map fun bit => .line (name bit) (.set (wordBit word bit)) .done

/-- Lines driven to a word show its bits. -/
theorem Wires.level_driveEvents (wires : Wires) {name : Nat → LineName} {count word bit : Nat}
    (apart : ∀ {other}, name other = name bit → other = bit) (inRow : bit < count) :
    (wires.afterAll (driveEvents name count word)).level (name bit) = wordBit word bit := by
  induction count with
  | zero => exact absurd inRow (Nat.not_lt_zero bit)
  | succ count ih =>
    rw [driveEvents, List.range_succ, List.map_append, afterAll_append]
    show (if name count = name bit then _ else _) = _
    split
    · rename_i same
      rw [apart same]
    · rename_i other
      exact ih (Nat.lt_of_le_of_ne (Nat.le_of_lt_succ inRow) fun same => other (same ▸ rfl))

/-- **Lines driven to a word** are all set, or nothing but some of them was touched. -/
theorem driveLines_ran {name : Nat → LineName} {count word : Nat} {bench after : Bench}
    {result : Except LineFailure Unit}
    (ran : (driveLines name count word).run.run bench = (result, after)) :
    (result = .ok () ∧ bench.Ran after (driveEvents name count word)) ∨
      (result = .error .refused ∧ ¬bench.Working ∧ ∃ events, bench.Ran after events ∧
        ∀ event ∈ events, ∃ bit level outcome, event = .line (name bit) (.set level) outcome) := by
  rcases forM_ran (fun bit => usesOnce_setLine (name bit) (wordBit word bit)) ran with
    done | ⟨rfl, broken, earlier, stop, later, outcome, -, -, some⟩
  · exact Or.inl done
  · refine Or.inr ⟨rfl, broken, _, some, fun event member => ?_⟩
    simp only [List.mem_append, List.mem_map, List.mem_singleton] at member
    rcases member with ⟨bit, -, rfl⟩ | rfl
    · exact ⟨bit, _, _, rfl⟩
    · exact ⟨stop, _, _, rfl⟩

/-- The events of data lines that are switched. -/
def turnEvents (count : Nat) (direction : Direction) : List Event :=
  (List.range count).map fun bit => .line (.data bit) (.turn direction) .done

/-- The lines that are switched get the direction. -/
theorem Wires.direction_turnEvents (wires : Wires) (count : Nat) (direction : Direction) {bit : Nat}
    (inRow : bit < count) :
    (wires.afterAll (turnEvents count direction)).direction (.data bit) = direction := by
  induction count with
  | zero => exact absurd inRow (Nat.not_lt_zero bit)
  | succ count ih =>
    rw [turnEvents, List.range_succ, List.map_append, Wires.afterAll_append]
    show (if LineName.data count = .data bit then _ else _) = _
    split
    · rfl
    · rename_i other
      exact ih (Nat.lt_of_le_of_ne (Nat.le_of_lt_succ inRow) fun same => other (same ▸ rfl))

/-- **A switch of the data lines** has nothing to do, or switches them all, or fails and forgets the
direction. -/
theorem switchLines_ran {count : Nat} {cached direction now : Direction} (known : direction ≠ .unset)
    {bench after : Bench} {result : Except LineFailure Bool}
    (ran : (switchLines count cached direction).run bench = ((now, result), after)) :
    (cached = direction ∧ now = direction ∧ result = .ok false ∧ after = bench) ∨
      (cached ≠ direction ∧ now = direction ∧ result = .ok true ∧
        bench.Ran after (turnEvents count direction)) ∨
      (cached ≠ direction ∧ now = .unset ∧ result = .error .refused ∧ ¬bench.Working ∧
        ∃ events, bench.Ran after events ∧ ∀ event ∈ events,
          ∃ bit outcome, event = .line (.data bit) (.turn direction) outcome) := by
  unfold switchLines at ran
  by_cases still : cached = direction
  · rw [if_pos (Or.inl still)] at ran
    cases ran
    exact Or.inl ⟨still, still, rfl, rfl⟩
  · rw [if_neg (not_or.mpr ⟨still, known⟩)] at ran
    refine Or.inr ?_
    cases turned : ((List.range count).forM fun bit => turnLine (.data bit) direction).run.run
        bench with
    | mk outcome middle =>
      rw [StateT.run_bind, turned] at ran
      rcases forM_ran (fun bit => usesOnce_turnLine (.data bit) direction) turned with
        ⟨rfl, all⟩ | ⟨rfl, broken, earlier, stop, later, outcome, -, -, some⟩
      · cases ran
        exact Or.inl ⟨still, rfl, rfl, all⟩
      · cases ran
        refine Or.inr ⟨still, rfl, rfl, broken, _, some, fun event member => ?_⟩
        simp only [List.mem_append, List.mem_map, List.mem_singleton] at member
        rcases member with ⟨bit, -, rfl⟩ | rfl
        · exact ⟨bit, _, rfl⟩
        · exact ⟨stop, _, rfl⟩

/-! ### Sampling -/

/-- The word that the levels of data lines make, each in its place, starting with a bit. -/
def Wires.sampledFrom (wires : Wires) (bit : Nat) : Nat → Nat
  | 0 => 0
  | count + 1 => (if wires.seen bit then 1 <<< bit else 0) + wires.sampledFrom (bit + 1) count

/-- The word on the data lines as sampling them finds it. -/
def Wires.sampled (wires : Wires) (count : Nat) : Nat :=
  wires.sampledFrom 0 (min count 32)

/-- An event of a data line that is sampled. -/
def Event.Samples (event : Event) : Prop :=
  ∃ bit outcome, event = .line (.data bit) .sample outcome

/-- Sampling shows nothing on the wires. -/
theorem Wires.afterAll_samples (wires : Wires) {events : List Event}
    (samples : ∀ event ∈ events, event.Samples) : wires.afterAll events = wires := by
  refine afterAll_keeps (· = wires) (fun event member now same => ?_) rfl
  obtain ⟨bit, outcome, rfl⟩ := samples event member
  rw [after_sample, same]

theorem sampleFrom_ran {count : Nat} : ∀ {bit : Nat} {bench after : Bench}
    {result : Except LineFailure Nat},
    (sampleFrom bit count).run.run bench = (result, after) →
    (result = .ok (bench.wires.sampledFrom bit count) ∨ result = .error .refused ∧ ¬bench.Working) ∧
      ∃ events, bench.Ran after events ∧ ∀ event ∈ events, event.Samples := by
  induction count with
  | zero =>
    intro bit bench after result ran
    cases ran
    exact ⟨Or.inl rfl, [], Bench.Ran.refl bench, fun event member => absurd member List.not_mem_nil⟩
  | succ count ih =>
    intro bit bench after result ran
    unfold sampleFrom at ran
    cases sampled : (sampleLine bit).run.run bench with
    | mk answer middle =>
      have single (outcome : UseOutcome) : ∀ event ∈ [Event.line (.data bit) .sample outcome],
          event.Samples :=
        fun event member => ⟨bit, outcome, List.mem_singleton.mp member⟩
      rcases usesOnce_sampleLine bit bench answer middle sampled with
        ⟨rfl, one⟩ | ⟨rfl, broken, outcome, -, one⟩
      · rw [run_bind_ok sampled] at ran
        have same : middle.wires = bench.wires := by
          rw [one.wires, Wires.afterAll_samples _ (single .done)]
        cases rest : (sampleFrom (bit + 1) count).run.run middle with
        | mk answer last =>
          obtain ⟨answers, events, others, samples⟩ := ih rest
          have all : ∀ event ∈ Event.line (.data bit) .sample .done :: events, event.Samples :=
            List.forall_mem_cons.mpr ⟨⟨bit, .done, rfl⟩, samples⟩
          rcases answers with rfl | ⟨rfl, broken⟩
          · rw [run_bind_ok rest, same] at ran
            cases ran
            exact ⟨Or.inl rfl, _, one.trans others, all⟩
          · rw [run_bind_error rest] at ran
            cases ran
            exact ⟨Or.inr ⟨rfl, fun working => broken (one.working working)⟩, _, one.trans others, all⟩
      · rw [run_bind_error sampled] at ran
        cases ran
        exact ⟨Or.inr ⟨rfl, broken⟩, _, one, single outcome⟩

/-- **Sampling the data lines** finds the word on them or fails, and changes nothing. -/
theorem sampleLines_ran {count : Nat} {bench after : Bench} {result : Except LineFailure Nat}
    (ran : (sampleLines count).run.run bench = (result, after)) :
    (result = .ok (bench.wires.sampled count) ∨ result = .error .refused ∧ ¬bench.Working) ∧
      ∃ events, bench.Ran after events ∧ ∀ event ∈ events, event.Samples :=
  sampleFrom_ran ran

/-! ### Actions with a memory -/

section Memory

variable {σ ε α β : Type} {first : ExceptT ε (StateT σ BenchM) α}
  {next : α → ExceptT ε (StateT σ BenchM) β} {memory now : σ} {bench middle after : Bench}

theorem run_then_ok {between : σ} {value : α}
    (ran : (first.run.run memory).run bench = ((.ok value, between), middle)) :
    ((first >>= next).run.run memory).run bench = ((next value).run.run between).run middle := by
  rw [ExceptT.run_bind, StateT.run_bind, StateT.run_bind, ran]
  rfl

theorem run_then_error {error : ε}
    (ran : (first.run.run memory).run bench = ((.error error, now), after)) :
    ((first >>= next).run.run memory).run bench = ((.error error, now), after) := by
  rw [ExceptT.run_bind, StateT.run_bind, StateT.run_bind, ran]
  rfl

/-- Looking at the memory changes nothing. -/
theorem run_get_then {next : σ → ExceptT ε (StateT σ BenchM) β} :
    ((get >>= next).run.run memory).run bench = ((next memory).run.run memory).run bench :=
  rfl

/-- An action on the bench alone keeps the memory. -/
theorem run_lift_then {action : BenchM α} {value : α} (ran : action.run bench = (value, middle)) :
    (((liftM action : ExceptT ε (StateT σ BenchM) α) >>= next).run.run memory).run bench =
      ((next value).run.run memory).run middle := by
  refine run_then_ok ?_
  change ((Except.ok (action.run bench).1, memory), (action.run bench).2) = _
  rw [ran]

/-- **Of two actions in a row** the second one runs where the first one succeeds, and otherwise the
error of the first one stands. -/
theorem run_then_cases {result : Except ε β}
    (ran : ((first >>= next).run.run memory).run bench = ((result, now), after)) :
    (∃ value between middle, (first.run.run memory).run bench = ((.ok value, between), middle) ∧
      ((next value).run.run between).run middle = ((result, now), after)) ∨
    ∃ error, (first.run.run memory).run bench = ((.error error, now), after) ∧
      result = .error error := by
  match one : (first.run.run memory).run bench with
  | ((.ok value, between), middle) =>
    rw [run_then_ok one] at ran
    exact Or.inl ⟨value, between, middle, rfl, ran⟩
  | ((.error error, between), middle) =>
    rw [run_then_error one] at ran
    cases ran
    exact Or.inr ⟨error, rfl, rfl⟩

/-- **Whatever comes of it, the action keeps its memory** and leaves allowed events only. -/
def Keeps (allowed : Event → Prop) (action : StateT σ BenchM α) : Prop :=
  ∀ memory bench value now after, (action.run memory).run bench = ((value, now), after) →
    now = memory ∧ ∃ events, bench.Ran after events ∧ ∀ event ∈ events, allowed event

namespace Keeps

variable {allowed : Event → Prop}

theorem pure (value : α) : Keeps allowed (Pure.pure value : StateT σ BenchM α) := by
  intro memory bench result now after ran
  cases ran
  exact ⟨rfl, [], Bench.Ran.refl _, fun event member => absurd member List.not_mem_nil⟩

theorem bind {first : StateT σ BenchM α} {next : α → StateT σ BenchM β} (keeps : Keeps allowed first)
    (keepsNext : ∀ value, Keeps allowed (next value)) : Keeps allowed (first >>= next) := by
  intro memory bench result now after ran
  rw [StateT.run_bind, StateT.run_bind] at ran
  match one : (first.run memory).run bench with
  | ((value, between), middle) =>
    rw [one] at ran
    obtain ⟨rfl, events, begun, all⟩ := keeps memory bench value between middle one
    obtain ⟨rfl, later, ended, allLater⟩ := keepsNext value _ _ _ _ _ ran
    refine ⟨rfl, _, begun.trans ended, fun event member => ?_⟩
    exact (List.mem_append.mp member).elim (all event) (allLater event)

/-- Of two actions in a row the second one runs if the first one succeeds. -/
theorem andThen (keeps : Keeps allowed first.run)
    (keepsNext : ∀ value, Keeps allowed (next value).run) : Keeps allowed (first >>= next).run := by
  rw [ExceptT.run_bind]
  refine keeps.bind fun outcome => ?_
  cases outcome with
  | ok value => exact keepsNext value
  | error error => exact pure _

end Keeps

end Memory

end PanelLink
