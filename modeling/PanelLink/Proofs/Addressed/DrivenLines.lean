/-
**A master made of lines shows what it is asked to show.**

The master remembers the address, the word and the direction of its lines and leaves alone what is
there already. Any use of a line may fail and leave a row of lines half changed, so each of the three
memories is dropped before its lines are touched.

* `latchAddress_ran`, `turnData_ran`, `writeWord_ran`, `read_ran`: how each step can go;
* `Settled`: what holds of memory and wires between calls, and `Settled.after`: every call keeps it;
* `writeWords_ran`: the words of a write appear in order, up to the first failure;
* **`drives_every_line`**: after every history of calls, a call shows the latched address and exactly
  its own words, as if every line had been driven every time.
-/

import PanelLink.Addressed.LineMaster
import PanelLink.Proofs.Bench.Sights

namespace PanelLink.Addressed

namespace LineMaster

/-! ### Steps -/

section Steps

variable {master : LineMaster} {memory now : LineMemory} {bench after : Bench}

theorem useLines_ran {α : Type} {action : LineM α} {result : Except MasterFailure α}
    (ran : ((useLines action).run.run memory).run bench = ((result, now), after)) :
    now = memory ∧ ∃ answer, action.run.run bench = (answer, after) ∧
      result = answer.mapError fun _ => .line := by
  cases ended : action.run.run bench with
  | mk answer last =>
    rw [useLines, run_use ended] at ran
    cases ran
    exact ⟨rfl, answer, rfl, rfl⟩

/-- Setting one line as a step. -/
theorem useLine_ran {name : LineName} {level : Bool} {result : Except MasterFailure Unit}
    (ran : ((useLines (setLine name level)).run.run memory).run bench = ((result, now), after)) :
    now = memory ∧
      ((result = .ok () ∧ bench.Ran after [.line name (.set level) .done]) ∨
        (result = .error .line ∧ ∃ outcome, outcome ≠ .done ∧
          bench.Ran after [.line name (.set level) outcome])) := by
  obtain ⟨rfl, answer, used, rfl⟩ := useLines_ran ran
  refine ⟨rfl, ?_⟩
  rcases usesOnce_setLine name level bench answer after used with
    ⟨rfl, done⟩ | ⟨rfl, -, outcome, failed, some⟩
  · exact Or.inl ⟨rfl, done⟩
  · exact Or.inr ⟨rfl, outcome, failed, some⟩

/-- **Lines driven to a word and remembered** are all driven, or some of them were set and nothing is
remembered. -/
theorem driveThenModify_ran {name : Nat → LineName} {count word : Nat}
    {remember : LineMemory → LineMemory} {result : Except MasterFailure Unit}
    (ran : ((useLines (driveLines name count word) >>= fun _ => modify remember).run.run memory).run
      bench = ((result, now), after)) :
    (result = .ok () ∧ now = remember memory ∧ bench.Ran after (driveEvents name count word)) ∨
      (result = .error .line ∧ now = memory ∧ ∃ events, bench.Ran after events ∧
        ∀ event ∈ events, ∃ bit level outcome, event = .line (name bit) (.set level) outcome) := by
  rcases run_then_cases ran with ⟨value, between, middle, used, rest⟩ | ⟨error, used, rfl⟩
  · obtain ⟨rfl, answer, driven, done⟩ := useLines_ran used
    rcases driveLines_ran driven with ⟨rfl, all⟩ | ⟨rfl, -⟩
    · cases rest
      exact Or.inl ⟨rfl, rfl, all⟩
    · cases done
  · obtain ⟨rfl, answer, driven, done⟩ := useLines_ran used
    rcases driveLines_ran driven with ⟨rfl, all⟩ | ⟨rfl, -, events, some, sets⟩
    · cases done
    · cases done
      exact Or.inr ⟨rfl, rfl, events, some, sets⟩

/-- An event of an address line that is set. -/
def SetsAddress (event : Event) : Prop :=
  ∃ bit level outcome, event = .line (.address bit) (.set level) outcome

/-- **Latching an address** has nothing to do, or drives all address lines, or forgets the address. -/
theorem latchAddress_ran {address : Nat} {result : Except MasterFailure Unit}
    (ran : ((master.latchAddress address).run.run memory).run bench = ((result, now), after)) :
    (memory.address = some address ∧ result = .ok () ∧ now = memory ∧ after = bench) ∨
      (result = .ok () ∧ now = { memory with address := some address } ∧
        bench.Ran after (driveEvents .address master.addressLines address)) ∨
      (result = .error .line ∧ now = { memory with address := none } ∧
        ∃ events, bench.Ran after events ∧ ∀ event ∈ events, SetsAddress event) := by
  have opened : ((master.latchAddress address).run.run memory).run bench =
      if memory.address ≠ some address then
        ((useLines (driveLines .address master.addressLines address) >>= fun _ =>
          modify fun memory => { memory with address := some address }).run.run
            { memory with address := none }).run bench
      else ((.ok (), memory), bench) := by
    show ((if _ then _ else _ : ExceptT MasterFailure ActionM Unit).run.run memory).run bench = _
    split <;> rfl
  rw [opened] at ran
  split at ran
  · exact Or.inr (driveThenModify_ran ran)
  · rename_i shown
    cases ran
    exact Or.inl ⟨not_not.mp shown, rfl, rfl, rfl⟩

theorem SetsAddress.still {event : Event} (sets : SetsAddress event) : event.latches = false := by
  obtain ⟨bit, level, outcome, rfl⟩ := sets
  rfl

theorem SetsAddress.directionAfter {event : Event} (sets : SetsAddress event) (name : LineName)
    (direction : Direction) : event.directionAfter name direction = direction := by
  obtain ⟨bit, level, outcome, rfl⟩ := sets
  rfl

/-- An event of a data line that is switched. -/
def TurnsData (event : Event) : Prop :=
  ∃ bit direction outcome, event = .line (.data bit) (.turn direction) outcome

/-- **A switch of the data lines** has nothing to do, or switches them all, or forgets the
direction. -/
theorem turnData_ran {direction : Direction} (known : direction ≠ .unset)
    {result : Except MasterFailure Unit}
    (ran : ((master.turnData direction).run.run memory).run bench = ((result, now), after)) :
    (memory.direction = direction ∧ result = .ok () ∧ now = memory ∧ after = bench) ∨
      (result = .ok () ∧ now = { memory with word := none, direction := direction } ∧
        bench.Ran after (turnEvents master.dataLines direction)) ∨
      (result = .error .directionSwitch ∧ now = { memory with direction := .unset } ∧
        ∃ events, bench.Ran after events ∧ ∀ event ∈ events, TurnsData event) := by
  cases switched : (switchLines master.dataLines memory.direction direction).run bench with
  | mk answer middle =>
    obtain ⟨cached, outcome⟩ := answer
    unfold turnData at ran
    rw [run_get_then, run_lift_then switched] at ran
    rcases switchLines_ran known switched with
      ⟨same, rfl, rfl, rfl⟩ | ⟨-, rfl, rfl, all⟩ | ⟨-, rfl, rfl, -, events, some, turns⟩
    · cases ran
      exact Or.inl ⟨same, rfl, rfl, rfl⟩
    · cases ran
      exact Or.inr (Or.inl ⟨rfl, rfl, all⟩)
    · cases ran
      refine Or.inr (Or.inr ⟨rfl, rfl, events, some, fun event member => ?_⟩)
      obtain ⟨bit, outcome, rfl⟩ := turns event member
      exact ⟨bit, direction, outcome, rfl⟩

/-- An event of the lines that carry a word: the strobe or a data line is set. -/
def SetsWord (event : Event) : Prop :=
  ∃ name level outcome, event = .line name (.set level) outcome ∧
    (name = .writeStrobe ∨ ∃ bit, name = .data bit)

theorem setsWord_of_mem_latchEvents {bits : List Nat} {word : Nat} {event : Event}
    (member : event ∈ latchEvents bits word) : SetsWord event := by
  simp only [latchEvents, setEvents, List.mem_cons, List.mem_append, List.mem_map,
    List.not_mem_nil, or_false] at member
  rcases member with rfl | ⟨bit, -, rfl⟩ | rfl
  · exact ⟨_, _, _, rfl, Or.inl rfl⟩
  · exact ⟨_, _, _, rfl, Or.inr ⟨bit, rfl⟩⟩
  · exact ⟨_, _, _, rfl, Or.inl rfl⟩

/-- An event within a word: nothing is latched. -/
def InWord (event : Event) : Prop :=
  event.latches = false ∧ SetsWord event

theorem driveWord_ran {word : Nat} {result : Except MasterFailure Unit}
    (ran : ((master.driveWord word).run.run memory).run bench = ((result, now), after)) :
    (result = .ok () ∧ now = { memory with word := some word } ∧ ∃ bits,
        bench.Ran after (setEvents bits word) ∧
        (bits = List.range master.dataLines ∨ bits = [] ∧ memory.word = some word)) ∨
      (result = .error .line ∧ now = { memory with word := none } ∧
        ∃ events, bench.Ran after events ∧ ∀ event ∈ events, InWord event) := by
  have opened : ((master.driveWord word).run.run memory).run bench =
      if memory.word ≠ some word then
        ((useLines (driveLines .data master.dataLines word) >>= fun _ =>
          modify fun memory => { memory with word := some word }).run.run
            { memory with word := none }).run bench
      else ((.ok (), memory), bench) := by
    show ((if _ then _ else _ : ExceptT MasterFailure ActionM Unit).run.run memory).run bench = _
    split <;> rfl
  rw [opened] at ran
  split at ran
  · rcases driveThenModify_ran ran with ⟨rfl, rfl, all⟩ | ⟨rfl, rfl, events, some, sets⟩
    · exact Or.inl ⟨rfl, rfl, _, all, Or.inl rfl⟩
    · refine Or.inr ⟨rfl, rfl, events, some, fun event member => ?_⟩
      obtain ⟨bit, level, outcome, rfl⟩ := sets event member
      exact ⟨rfl, _, level, outcome, rfl, Or.inr ⟨bit, rfl⟩⟩
  · rename_i shown
    cases ran
    have held : memory.word = some word := not_not.mp shown
    refine Or.inl ⟨rfl, ?_, [], Bench.Ran.refl bench, Or.inr ⟨rfl, held⟩⟩
    rw [← held]

/-- **Writing a word** is one latch, or it ends before the strobe goes high. -/
theorem writeWord_ran {word : Nat} {result : Except MasterFailure Unit}
    (ran : ((master.writeWord word).run.run memory).run bench = ((result, now), after)) :
    (result = .ok () ∧ now = { memory with word := some word } ∧ ∃ bits,
        bench.Ran after (latchEvents bits word) ∧
        (bits = List.range master.dataLines ∨ bits = [] ∧ memory.word = some word)) ∨
      (result = .error .line ∧ now.address = memory.address ∧ now.direction = memory.direction ∧
        ∃ events, bench.Ran after events ∧ ∀ event ∈ events, InWord event) := by
  unfold writeWord at ran
  have strobes (level : Bool) {outcome : UseOutcome}
      (still : (Event.line .writeStrobe (.set level) outcome).latches = false) :
      InWord (.line .writeStrobe (.set level) outcome) :=
    ⟨still, _, level, outcome, rfl, Or.inl rfl⟩
  have silent {outcome : UseOutcome} (failed : outcome ≠ .done) :
      (Event.line .writeStrobe (.set true) outcome).latches = false := by
    cases outcome <;> simp_all [Event.latches]
  rcases run_then_cases ran with ⟨_, low, lowered, first, rest⟩ | ⟨error, first, rfl⟩
  · obtain ⟨rfl, ⟨-, fell⟩ | ⟨failed, -⟩⟩ := useLine_ran first
    · rcases run_then_cases rest with ⟨_, set, drawn, second, third⟩ | ⟨error, second, rfl⟩
      · rcases driveWord_ran second with ⟨-, rfl, bits, drew, which⟩ | ⟨failed, -⟩
        · obtain ⟨rfl, ⟨rfl, raised⟩ | ⟨rfl, outcome, failed, stayed⟩⟩ := useLine_ran third
          · exact Or.inl ⟨rfl, rfl, bits, fell.trans (drew.trans raised), which⟩
          · refine Or.inr ⟨rfl, rfl, rfl, _, fell.trans (drew.trans stayed), fun event member => ?_⟩
            simp only [List.mem_append, List.mem_singleton] at member
            rcases member with rfl | within | rfl
            · exact strobes false rfl
            · refine ⟨latches_setEvents bits word event within, ?_⟩
              obtain ⟨bit, -, rfl⟩ := List.mem_map.mp within
              exact ⟨_, _, _, rfl, Or.inr ⟨bit, rfl⟩⟩
            · exact strobes true (silent failed)
        · cases failed
      · rcases driveWord_ran second with ⟨failed, -⟩ | ⟨failed, rfl, events, some, within⟩
        · cases failed
        · cases failed
          refine Or.inr ⟨rfl, rfl, rfl, _, fell.trans some, ?_⟩
          exact List.forall_mem_cons.mpr ⟨strobes false rfl, within⟩
    · cases failed
  · obtain ⟨rfl, ⟨failed, -⟩ | ⟨failed, outcome, broken, stayed⟩⟩ := useLine_ran first
    · cases failed
    · cases failed
      refine Or.inr ⟨rfl, rfl, rfl, _, stayed, fun event member => ?_⟩
      rw [List.mem_singleton.mp member]
      exact strobes false rfl

end Steps

/-! ### Writes -/

section Writes

variable {master : LineMaster} {memory now : LineMemory} {bench after : Bench}

theorem SetsWord.levelAfter {event : Event} (sets : SetsWord event) (bit : Nat) (level : Bool) :
    event.levelAfter (.address bit) level = level := by
  obtain ⟨name, new, outcome, rfl, rfl | ⟨other, rfl⟩⟩ := sets
  · exact Event.levelAfter_set_of_ne (by simp) new outcome level
  · exact Event.levelAfter_set_of_ne (by simp) new outcome level

theorem SetsWord.directionAfter {event : Event} (sets : SetsWord event) (name : LineName)
    (direction : Direction) : event.directionAfter name direction = direction := by
  obtain ⟨other, new, outcome, rfl, -⟩ := sets
  rfl

/-- The remembered word is on the data lines. -/
def Shows (master : LineMaster) (memory : LineMemory) (wires : Wires) : Prop :=
  ∀ word, memory.word = some word →
    ∀ bit, bit < master.dataLines → wires.level (.data bit) = wordBit word bit

/-- A latch that drives every line, or none because the word is there already, puts the word on the
data lines. -/
theorem Shows.latched {wires : Wires} (shows : Shows master memory wires) {bits : List Nat}
    {word bit : Nat} (inRow : bit < master.dataLines)
    (which : bits = List.range master.dataLines ∨ bits = [] ∧ memory.word = some word) :
    (wires.afterAll (latchEvents bits word)).level (.data bit) = wordBit word bit := by
  rw [(latched_latchEvents wires bits word).data]
  rcases which with rfl | ⟨rfl, held⟩
  · exact if_pos (List.mem_range.mpr inRow)
  · rw [if_neg List.not_mem_nil]
    exact shows word held bit inRow

/-- **The words of a write** appear in order, each at its own rising edge, up to the first failure. -/
theorem writeWords_ran (narrow : master.dataLines ≤ 32) {words : List Nat}
    {result : Except MasterFailure Unit} (shows : Shows master memory bench.wires)
    (ran : ((words.forM master.writeWord).run.run memory).run bench = ((result, now), after)) :
    now.address = memory.address ∧ now.direction = memory.direction ∧
      ∃ events, bench.Ran after events ∧ (∀ event ∈ events, SetsWord event) ∧
        ∀ observer : Observer, observer.wires = bench.wires →
          let seen := observer.sights master.dataLines events
          (∀ sight ∈ seen, sight.rose = true) ∧
          seen.map (·.wires.word master.dataLines) <+: words.map (· % 2 ^ master.dataLines) ∧
          (result = .ok () → seen.map (·.wires.word master.dataLines) =
            words.map (· % 2 ^ master.dataLines)) := by
  induction words generalizing memory bench with
  | nil =>
    cases ran
    refine ⟨rfl, rfl, [], Bench.Ran.refl _, by simp, fun observer _ => ?_⟩
    simp [Observer.sights]
  | cons word words ih =>
    change ((master.writeWord word >>= fun _ => words.forM master.writeWord).run.run memory).run
      bench = _ at ran
    rcases run_then_cases ran with ⟨_, between, middle, one, rest⟩ | ⟨error, one, rfl⟩
    · rcases writeWord_ran one with ⟨-, rfl, bits, latched, which⟩ | ⟨failed, -⟩
      · -- Whichever lines were driven, the data lines show the word now: the next one relies on it.
        have shown (bit : Nat) (inRow : bit < master.dataLines) :
            middle.wires.level (.data bit) = wordBit word bit := by
          rw [latched.wires]
          exact shows.latched inRow which
        have showsNext : Shows master { memory with word := some word } middle.wires := by
          rintro other ⟨⟩
          exact shown
        obtain ⟨address, direction, events, others, sets, noted⟩ := ih showsNext rest
        refine ⟨address, direction, _, latched.trans others, ?_, fun observer here => ?_⟩
        · intro event member
          rcases List.mem_append.mp member with first | later
          · exact setsWord_of_mem_latchEvents first
          · exact sets event later
        · have there : (observer.afterAll master.dataLines (latchEvents bits word)).wires =
              middle.wires := by
            rw [Observer.wires_afterAll, here, latched.wires]
          have spelled : (observer.wires.afterAll (latchEvents bits word)).word master.dataLines =
              word % 2 ^ master.dataLines := by
            rw [here, ← latched.wires]
            exact Wires.row_eq narrow shown
          obtain ⟨rose, begins, ends⟩ := noted _ there
          simp only [Observer.sights_append, sights_latch, List.singleton_append, List.map_cons,
            spelled, List.forall_mem_cons, List.prefix_cons_inj, List.cons.injEq, true_and]
          exact ⟨rose, begins, ends⟩
      · cases failed
    · rcases writeWord_ran one with ⟨failed, -⟩ | ⟨-, address, direction, events, some, within⟩
      · cases failed
      · refine ⟨address, direction, events, some, fun event member => (within event member).2,
          fun observer _ => ?_⟩
        rw [Observer.sights_of_still _ fun event member => (within event member).1]
        simp

/-- What the lines of a call may do: they are set for a word, or the data lines are switched. -/
def Carries (event : Event) : Prop :=
  SetsWord event ∨ TurnsData event

theorem Carries.levelAfter {event : Event} (carries : Carries event) (bit : Nat) (level : Bool) :
    event.levelAfter (.address bit) level = level := by
  rcases carries with sets | ⟨other, direction, outcome, rfl⟩
  · exact sets.levelAfter bit level
  · exact Event.levelAfter_turn_of_ne (by simp) direction outcome level

/-- What a write does to the lines once they may be driven: what was asked for is spelled out at the
rising edges of the strobe, and only then is the write a success. -/
structure Spelled (master : LineMaster) (wires : Wires) (words : List Nat)
    (result : Except MasterFailure Unit) (events : List Event) : Prop where
  carries : ∀ event ∈ events, Carries event
  sights : ∀ observer : Observer, observer.wires = wires →
    let seen := observer.sights master.dataLines events
    (∀ sight ∈ seen, sight.rose = true ∧ sight.wires.Driving master.dataLines) ∧
    seen.map (·.wires.word master.dataLines) <+: words.map (· % 2 ^ master.dataLines) ∧
    (result = .ok () →
      seen.map (·.wires.word master.dataLines) = words.map (· % 2 ^ master.dataLines))

/-- Nothing is seen of a call that latches nothing. -/
theorem Spelled.of_still {wires : Wires} {words : List Nat} {result : Except MasterFailure Unit}
    {events : List Event} (carries : ∀ event ∈ events, Carries event)
    (still : ∀ event ∈ events, event.latches = false) (failed : result = .ok () → words = []) :
    Spelled master wires words result events where
  carries := carries
  sights observer _ := by
    rw [Observer.sights_of_still observer still]
    exact ⟨by simp, by simp, fun succeeded => by rw [failed succeeded]; rfl⟩

theorem turnEvents_still {count : Nat} {direction : Direction} {event : Event}
    (member : event ∈ turnEvents count direction) : TurnsData event ∧ event.latches = false := by
  obtain ⟨bit, -, rfl⟩ := List.mem_map.mp member
  exact ⟨⟨bit, direction, .done, rfl⟩, rfl⟩

/-- The words of a write on lines that are outputs. -/
theorem spelled_of_driving (narrow : master.dataLines ≤ 32) {words : List Nat}
    {result : Except MasterFailure Unit} (shows : Shows master memory bench.wires)
    (driving : bench.wires.Driving master.dataLines)
    (ran : ((words.forM master.writeWord).run.run memory).run bench = ((result, now), after)) :
    now.address = memory.address ∧ now.direction = memory.direction ∧
      after.wires.Driving master.dataLines ∧
      ∃ events, bench.Ran after events ∧ Spelled master bench.wires words result events := by
  obtain ⟨address, direction, events, some, sets, noted⟩ := writeWords_ran narrow shows ran
  refine ⟨address, direction, fun bit inRow => ?_, events, some, fun event member =>
    Or.inl (sets event member), fun observer here => ?_⟩
  · rw [some.wires, Wires.direction_afterAll_of_still fun event member =>
      (sets event member).directionAfter _]
    exact driving bit inRow
  · obtain ⟨rose, begins, ends⟩ := noted observer here
    refine ⟨fun sight member => ⟨rose sight member, fun bit inRow => ?_⟩, begins, ends⟩
    rw [Observer.direction_of_mem_sights (fun event member => (sets event member).directionAfter _)
      member, here]
    exact driving bit inRow

/-- Events in which nothing is latched may come before the words of a write. -/
theorem Spelled.preceded {wires : Wires} {words : List Nat} {result : Except MasterFailure Unit}
    {first later : List Event} (carries : ∀ event ∈ first, Carries event)
    (still : ∀ event ∈ first, event.latches = false)
    (spelled : Spelled master (wires.afterAll first) words result later) :
    Spelled master wires words result (first ++ later) where
  carries event member := (List.mem_append.mp member).elim (carries event) (spelled.carries event)
  sights observer here := by
    rw [Observer.sights_append, Observer.sights_of_still observer still, List.nil_append]
    exact spelled.sights _ (by rw [Observer.wires_afterAll, here])

/-- **A write** keeps the address, leaves lines that it takes for outputs as outputs, and spells its
words. -/
theorem write_ran (narrow : master.dataLines ≤ 32) {words : Words}
    {result : Except MasterFailure Unit}
    (settled : memory.direction = .output → bench.wires.Driving master.dataLines)
    (ran : ((master.write words).run.run memory).run bench = ((result, now), after)) :
    now.address = memory.address ∧
      (now.direction = .output → after.wires.Driving master.dataLines) ∧
      ∃ events, bench.Ran after events ∧ Spelled master bench.wires words.values result events := by
  have idle {failure : MasterFailure} (stopped : ((result, now), after) =
      ((.error failure, memory), bench)) : now.address = memory.address ∧
      (now.direction = .output → after.wires.Driving master.dataLines) ∧
      ∃ events, bench.Ran after events ∧ Spelled master bench.wires words.values result events := by
    cases stopped
    exact ⟨rfl, settled, [], Bench.Ran.refl _, Spelled.of_still (by simp) (by simp) (by simp)⟩
  have opened : ((master.write words).run.run memory).run bench =
      if master.hasWriteStrobe = true then
        if words.element = busElement master.dataLines then
          ((master.turnData .output >>= fun _ =>
            modify (fun memory => { memory with word := none }) >>= fun _ =>
              words.values.forM master.writeWord).run.run memory).run bench
        else ((.error .widthMismatch, memory), bench)
      else ((.error .notWritable, memory), bench) := by
    unfold write checkElement
    cases master.hasWriteStrobe with
    | false => rfl
    | true =>
      by_cases fits : words.element = busElement master.dataLines
      · simp only [fits]
        rfl
      · simp only [fits]
        rfl
  rw [opened] at ran
  split at ran
  · split at ran
    · rcases run_then_cases ran with ⟨_, turned, middle, switched, rest⟩ | ⟨error, switched, rfl⟩
      · change ((words.values.forM master.writeWord).run.run { turned with word := none }).run
          middle = _ at rest
        -- The word was dropped before the first strobe, so nothing needs to be known of the lines.
        have fresh (wires : Wires) : Shows master { turned with word := none } wires := by
          rintro word ⟨⟩
        rcases turnData_ran (by decide) switched with
          ⟨output, -, rfl, rfl⟩ | ⟨-, rfl, all⟩ | ⟨failed, -⟩
        · obtain ⟨address, -, driving, spelled⟩ :=
            spelled_of_driving narrow (fresh _) (settled output) rest
          exact ⟨address, fun _ => driving, spelled⟩
        · have driving : middle.wires.Driving master.dataLines := by
            intro bit inRow
            rw [all.wires, Wires.direction_turnEvents _ _ _ inRow]
          obtain ⟨address, -, stays, events, some, spelled⟩ :=
            spelled_of_driving narrow (fresh _) driving rest
          refine ⟨address, fun _ => stays, _, all.trans some, ?_⟩
          rw [all.wires] at spelled
          exact Spelled.preceded (fun event member => Or.inr (turnEvents_still member).1)
            (fun event member => (turnEvents_still member).2) spelled
        · cases failed
      · rcases turnData_ran (by decide) switched with
          ⟨-, failed, -⟩ | ⟨failed, -⟩ | ⟨-, rfl, events, some, turns⟩
        · cases failed
        · cases failed
        · refine ⟨rfl, by simp, events, some, Spelled.of_still (fun event member =>
            Or.inr (turns event member)) (fun event member => ?_) (by simp)⟩
          obtain ⟨bit, direction, outcome, rfl⟩ := turns event member
          rfl
    · exact idle ran.symm
  · exact idle ran.symm

end Writes

/-! ### Reads -/

section Reads

variable {master : LineMaster} {memory now : LineMemory} {bench after : Bench}

/-- What a read does to lines: the data lines are switched and sampled, the read strobe is set. -/
def Reads (event : Event) : Prop :=
  TurnsData event ∨ event.Samples ∨ ∃ level outcome, event = .line .readStrobe (.set level) outcome

theorem Reads.levelAfter {event : Event} (reads : Reads event) (bit : Nat) (level : Bool) :
    event.levelAfter (.address bit) level = level := by
  rcases reads with ⟨other, direction, outcome, rfl⟩ | ⟨other, outcome, rfl⟩ | ⟨new, outcome, rfl⟩
  · exact Event.levelAfter_turn_of_ne (by simp) direction outcome level
  · rfl
  · exact Event.levelAfter_set_of_ne (by simp) new outcome level

theorem Reads.still {event : Event} (reads : Reads event) : event.latches = false := by
  rcases reads with ⟨bit, direction, outcome, rfl⟩ | ⟨bit, outcome, rfl⟩ | ⟨level, outcome, rfl⟩ <;>
    rfl

theorem keeps_readWord (master : LineMaster) : Keeps Reads master.readWord.run := by
  have strobe (level : Bool) : Keeps Reads (useLines (setLine .readStrobe level)).run := by
    intro memory bench result now after ran
    obtain ⟨same, ⟨-, done⟩ | ⟨-, outcome, -, some⟩⟩ := useLine_ran ran
    · exact ⟨same, _, done, by simp [Reads]⟩
    · exact ⟨same, _, some, by simp [Reads]⟩
  have samples : Keeps Reads (useLines (sampleLines master.dataLines)).run := by
    intro memory bench result now after ran
    obtain ⟨same, answer, sampled, -⟩ := useLines_ran ran
    obtain ⟨-, events, some, all⟩ := sampleLines_ran sampled
    exact ⟨same, events, some, fun event member => Or.inr (Or.inl (all event member))⟩
  exact (strobe false).andThen fun _ => samples.andThen fun word => (strobe true).andThen fun _ =>
    Keeps.pure _

theorem keeps_readWords (master : LineMaster) (count : Nat) :
    Keeps Reads (master.readWords count) := by
  induction count with
  | zero => exact Keeps.pure _
  | succ count ih =>
    refine (keeps_readWord master).bind fun outcome => ?_
    cases outcome with
    | error failure => exact Keeps.pure _
    | ok word => exact ih.bind fun reading => Keeps.pure _

/-- What a read comes to once it was checked: a switch, and then its words. -/
theorem run_read_eq {element : Element} {count : Nat} :
    ((master.read element count).run memory).run bench =
      if master.hasReadStrobe = true then
        if element = busElement master.dataLines then
          ((((master.turnData .input).run >>= fun prepared => match prepared with
            | .error failure => pure (Reading.failed failure)
            | .ok () => master.readWords count) : ActionM (Reading MasterFailure)).run memory).run
              bench
        else ((.failed .widthMismatch, memory), bench)
      else ((.failed .notReadable, memory), bench) := by
  unfold read checkElement
  cases master.hasReadStrobe with
  | false => rfl
  | true =>
    by_cases fits : element = busElement master.dataLines
    · simp only [fits]
      rfl
    · simp only [fits]
      rfl

/-- **A read** keeps the address and latches nothing. Afterwards the lines are taken for outputs only
if nothing was touched. -/
theorem read_ran {element : Element} {count : Nat} {reading : Reading MasterFailure}
    (ran : ((master.read element count).run memory).run bench = ((reading, now), after)) :
    now.address = memory.address ∧ (now.direction = .output → now = memory ∧ after = bench) ∧
      ∃ events, bench.Ran after events ∧ ∀ event ∈ events, Reads event := by
  rw [run_read_eq] at ran
  split at ran
  · split at ran
    · rw [StateT.run_bind, StateT.run_bind] at ran
      match switched : ((master.turnData .input).run.run memory).run bench with
      | ((.error failure, between), middle) =>
        rw [switched] at ran
        cases ran
        rcases turnData_ran (by decide) switched with
          ⟨-, failed, -⟩ | ⟨failed, -⟩ | ⟨-, rfl, events, some, turns⟩
        · cases failed
        · cases failed
        · exact ⟨rfl, by simp, events, some, fun event member => Or.inl (turns event member)⟩
      | ((.ok (), between), middle) =>
        rw [switched] at ran
        obtain ⟨rfl, events, others, reads⟩ := keeps_readWords master count _ _ _ _ _ ran
        rcases turnData_ran (by decide) switched with
          ⟨input, -, rfl, rfl⟩ | ⟨-, rfl, all⟩ | ⟨failed, -⟩
        · exact ⟨rfl, by simp [input], events, others, reads⟩
        · refine ⟨rfl, by simp, _, all.trans others, fun event member => ?_⟩
          rcases List.mem_append.mp member with first | later
          · exact Or.inl (turnEvents_still first).1
          · exact reads event later
        · cases failed
    · cases ran
      exact ⟨rfl, fun _ => ⟨rfl, rfl⟩, [], Bench.Ran.refl _, by simp⟩
  · cases ran
    exact ⟨rfl, fun _ => ⟨rfl, rfl⟩, [], Bench.Ran.refl _, by simp⟩

end Reads

/-! ### Histories -/

/-- A call of the master, which may fail. -/
def call (master : LineMaster) : MasterCall → ActionM (Except MasterFailure Unit)
  | .latch address => (master.latchAddress address).run
  | .write words => (master.write words).run
  | .read element count => do
    let reading ← master.read element count
    return reading.outcome

/-- Where a history of calls has led. -/
structure Trail where
  memory : LineMemory
  bench : Bench
  /-- The address of the last call that latched one, if that call succeeded. -/
  latched : Option Nat := none

namespace Trail

/-- The address that the callers may rely on after a call. -/
def latchedAfter (latched : Option Nat) : MasterCall → Except MasterFailure Unit → Option Nat
  | .latch address, .ok () => some address
  | .latch _, .error _ => none
  | _, _ => latched

/-- What the next call answers. -/
def answer (master : LineMaster) (trail : Trail) (call : MasterCall) : Except MasterFailure Unit :=
  (((master.call call).run trail.memory).run trail.bench).1.1

/-- Where the next call leads. -/
def after (master : LineMaster) (trail : Trail) (call : MasterCall) : Trail where
  memory := (((master.call call).run trail.memory).run trail.bench).1.2
  bench := (((master.call call).run trail.memory).run trail.bench).2
  latched := latchedAfter trail.latched call (trail.answer master call)

end Trail

/-- A master that was just made, after a history of calls on a bench. -/
def trail (master : LineMaster) (bench : Bench) (calls : List MasterCall) : Trail :=
  calls.foldl (Trail.after master) { memory := {}, bench }

/-- **What holds between calls**: the remembered address is the one that callers rely on, the address
lines show it, and lines that are taken for outputs are outputs. -/
structure Settled (master : LineMaster) (trail : Trail) : Prop where
  latched : trail.latched = trail.memory.address
  address : ∀ address, trail.memory.address = some address → ∀ bit, bit < master.addressLines →
    trail.bench.wires.level (.address bit) = wordBit address bit
  direction : trail.memory.direction = .output → trail.bench.wires.Driving master.dataLines

/-- **A call shows what it should**: at each rising edge of the write strobe the data lines are outputs
and the address lines show the address that callers rely on, and the words are those of the call. -/
structure ShowsCall (master : LineMaster) (trail : Trail) (call : MasterCall) (events : List Event) :
    Prop where
  ran : trail.bench.Ran (trail.after master call).bench events
  edges : ∀ sight ∈ Observer.sights master.dataLines { wires := trail.bench.wires } events,
    sight.rose = true ∧ sight.wires.Driving master.dataLines ∧
      ∀ address, trail.latched = some address → ∀ bit, bit < master.addressLines →
        sight.wires.level (.address bit) = wordBit address bit
  begins : (Observer.sights master.dataLines { wires := trail.bench.wires } events).map
      (·.wires.word master.dataLines) <+: call.written.map (· % 2 ^ master.dataLines)
  ends : trail.answer master call = .ok () →
    (Observer.sights master.dataLines { wires := trail.bench.wires } events).map
      (·.wires.word master.dataLines) = call.written.map (· % 2 ^ master.dataLines)

section History

variable {master : LineMaster} {trail : Trail}

/-- A call that asks for no words and latches none shows nothing. -/
theorem ShowsCall.of_still {call : MasterCall} {events : List Event} (nothing : call.written = [])
    (ran : trail.bench.Ran (trail.after master call).bench events)
    (still : ∀ event ∈ events, event.latches = false) : ShowsCall master trail call events where
  ran := ran
  edges := by simp [Observer.sights_of_still _ still]
  begins := by simp [Observer.sights_of_still _ still]
  ends _ := by simp [Observer.sights_of_still _ still, nothing]

/-- Where a call leads, read off its run. -/
theorem Trail.after_eq (call : MasterCall) {result : Except MasterFailure Unit} {now : LineMemory}
    {later : Bench}
    (called : ((master.call call).run trail.memory).run trail.bench = ((result, now), later)) :
    trail.answer master call = result ∧
      trail.after master call = ⟨now, later, latchedAfter trail.latched call result⟩ := by
  have answered : trail.answer master call = result := congrArg (·.1.1) called
  refine ⟨answered, ?_⟩
  rw [← answered, after]
  congr 1
  · exact congrArg (·.1.2) called
  · exact congrArg (·.2) called

/-- Address lines that no event moves go on showing the address. -/
theorem Settled.address_of_still (settled : Settled master trail) {after : Bench}
    {events : List Event} (ran : trail.bench.Ran after events)
    (still : ∀ event ∈ events, ∀ bit level, event.levelAfter (.address bit) level = level)
    {address : Nat} (shown : trail.memory.address = some address) {bit : Nat}
    (inRow : bit < master.addressLines) :
    after.wires.level (.address bit) = wordBit address bit := by
  rw [ran.wires, Wires.level_afterAll_of_still fun event member => still event member bit]
  exact settled.address address shown bit inRow

/-- Data lines that no event switches stay what they are taken for. -/
theorem Settled.direction_of_still (settled : Settled master trail) {after : Bench}
    {events : List Event} (ran : trail.bench.Ran after events)
    (still : ∀ event ∈ events, ∀ name direction, event.directionAfter name direction = direction)
    (output : trail.memory.direction = .output) : after.wires.Driving master.dataLines := by
  intro bit inRow
  rw [ran.wires, Wires.direction_afterAll_of_still fun event member => still event member _]
  exact settled.direction output bit inRow

theorem Settled.latch (settled : Settled master trail) (address : Nat) :
    Settled master (trail.after master (.latch address)) ∧
      ∃ events, ShowsCall master trail (.latch address) events := by
  match called : ((master.latchAddress address).run.run trail.memory).run trail.bench with
  | ((result, now), later) =>
    obtain ⟨-, led⟩ := Trail.after_eq (.latch address) called
    rw [led]
    rcases latchAddress_ran called with
      ⟨shown, rfl, rfl, rfl⟩ | ⟨rfl, rfl, all⟩ | ⟨rfl, rfl, events, some, sets⟩
    · refine ⟨⟨shown.symm, settled.address, settled.direction⟩, [], .of_still rfl ?_ (by simp)⟩
      rw [led]
      exact Bench.Ran.refl _
    · have drives {event : Event}
          (member : event ∈ driveEvents .address master.addressLines address) :
          SetsAddress event := by
        obtain ⟨bit, -, rfl⟩ := List.mem_map.mp member
        exact ⟨bit, _, _, rfl⟩
      refine ⟨⟨rfl, ?_, settled.direction_of_still all fun event member =>
        (drives member).directionAfter⟩, _, .of_still rfl (by rw [led]; exact all) ?_⟩
      · rintro _ ⟨⟩ bit inRow
        rw [all.wires]
        exact Wires.level_driveEvents _ (by simp) inRow
      · exact fun event member => (drives member).still
    · exact ⟨⟨rfl, by simp, settled.direction_of_still some fun event member =>
        (sets event member).directionAfter⟩, events, .of_still rfl (by rw [led]; exact some)
          fun event member => (sets event member).still⟩

theorem Settled.write (settled : Settled master trail) (narrow : master.dataLines ≤ 32)
    (words : Words) :
    Settled master (trail.after master (.write words)) ∧
      ∃ events, ShowsCall master trail (.write words) events := by
  match called : ((master.write words).run.run trail.memory).run trail.bench with
  | ((result, now), later) =>
    obtain ⟨answered, led⟩ := Trail.after_eq (.write words) called
    obtain ⟨kept, driving, events, ran, spelled⟩ := write_ran narrow settled.direction called
    have still (event : Event) (member : event ∈ events) := (spelled.carries event member).levelAfter
    obtain ⟨edges, begins, ends⟩ := spelled.sights { wires := trail.bench.wires } rfl
    refine ⟨?_, events, ?_, fun sight noted => ?_, begins, fun succeeded => ends ?_⟩
    · rw [led]
      refine ⟨by rw [kept, ← settled.latched]; rfl, fun address shown bit inRow => ?_, driving⟩
      exact settled.address_of_still ran still (kept ▸ shown) inRow
    · rw [led]
      exact ran
    · refine ⟨(edges sight noted).1, (edges sight noted).2, fun address latched bit inRow => ?_⟩
      rw [Observer.level_of_mem_sights (fun event member => still event member bit) noted]
      exact settled.address address (settled.latched ▸ latched) bit inRow
    · rw [← answered, succeeded]

theorem Settled.read (settled : Settled master trail) (element : Element) (count : Nat) :
    Settled master (trail.after master (.read element count)) ∧
      ∃ events, ShowsCall master trail (.read element count) events := by
  match read : ((master.read element count).run trail.memory).run trail.bench with
  | ((reading, now), later) =>
    have called : ((master.call (.read element count)).run trail.memory).run trail.bench =
        ((reading.outcome, now), later) := by
      rw [call, StateT.run_bind, StateT.run_bind, read]
      rfl
    obtain ⟨-, led⟩ := Trail.after_eq _ called
    obtain ⟨kept, idle, events, ran, reads⟩ := read_ran read
    refine ⟨?_, events, .of_still rfl (by rw [led]; exact ran) fun event member =>
      (reads event member).still⟩
    rw [led]
    refine ⟨by rw [kept, ← settled.latched]; rfl, fun address shown bit inRow => ?_, fun output => ?_⟩
    · exact settled.address_of_still ran (fun event member => (reads event member).levelAfter)
        (kept ▸ shown) inRow
    · obtain ⟨rfl, rfl⟩ := idle output
      exact settled.direction output

/-- **One call** keeps what holds between calls and shows what it should. -/
theorem Settled.call (settled : Settled master trail) (narrow : master.dataLines ≤ 32)
    (call : MasterCall) :
    Settled master (trail.after master call) ∧ ∃ events, ShowsCall master trail call events := by
  cases call with
  | latch address => exact settled.latch address
  | write words => exact settled.write narrow words
  | read element count => exact settled.read element count

/-- **Every history of calls** leads to where a call shows what it should. -/
theorem settled_trail (narrow : master.dataLines ≤ 32) (bench : Bench) (calls : List MasterCall) :
    Settled master (master.trail bench calls) := by
  have run {start : Trail} (settled : Settled master start) :
      Settled master (calls.foldl (Trail.after master) start) := by
    induction calls generalizing start with
    | nil => exact settled
    | cons call calls ih => exact ih (settled.call narrow call).1
  exact run ⟨rfl, by simp, by simp⟩

end History

theorem dataLines_le_of_create {addressLines dataLines : Nat} {hasWriteStrobe hasReadStrobe : Bool}
    {master : LineMaster}
    (made : create addressLines dataLines hasWriteStrobe hasReadStrobe = .ok master) :
    addressLines ≤ 32 ∧ dataLines ≤ 32 ∧ master.addressLines = addressLines ∧
      master.dataLines = dataLines := by
  unfold create maxBusWidth at made
  split at made
  · cases made
  · split at made
    · cases made
    · split at made
      · cases made
      · split at made
        · cases made
        · cases made
          exact ⟨by omega, by omega, rfl, rfl⟩

/-- **A master made of lines drives them as if every line were driven every time.** After every
history of calls in which any use of a line may fail, a further call shows at each rising edge of the
write strobe all data lines as outputs and, if the last call that latched an address succeeded, this
address. The words at these edges are the first ones of the call, cut to the lines, and all of them
if the call succeeds. Whenever the last call that latched an address has succeeded, the address lines
show the address, whether or not that call touched a line. -/
theorem drives_every_line {addressLines dataLines : Nat} {hasWriteStrobe hasReadStrobe : Bool}
    {master : LineMaster}
    (made : create addressLines dataLines hasWriteStrobe hasReadStrobe = .ok master) (bench : Bench)
    (calls : List MasterCall) (call : MasterCall) :
    let before := master.trail bench calls
    let after := before.after master call
    ∃ events, before.bench.Ran after.bench events ∧
      let seen := Observer.sights dataLines { wires := before.bench.wires } events
      (∀ sight ∈ seen, sight.rose = true ∧ sight.wires.Driving dataLines ∧
        ∀ address, before.latched = some address →
          sight.wires.row .address addressLines = address % 2 ^ addressLines) ∧
      seen.map (·.wires.word dataLines) <+: call.written.map (· % 2 ^ dataLines) ∧
      (before.answer master call = .ok () →
        seen.map (·.wires.word dataLines) = call.written.map (· % 2 ^ dataLines)) ∧
      ∀ address, after.latched = some address →
        after.bench.wires.row .address addressLines = address % 2 ^ addressLines := by
  obtain ⟨fewAddresses, fewData, rfl, rfl⟩ := dataLines_le_of_create made
  have settled := settled_trail fewData bench calls
  obtain ⟨settledAfter, events, shown⟩ := settled.call fewData call
  refine ⟨events, shown.ran, fun sight noted => ?_, shown.begins, shown.ends, fun address latched => ?_⟩
  · obtain ⟨rose, driving, addressed⟩ := shown.edges sight noted
    exact ⟨rose, driving, fun address latched =>
      Wires.row_eq fewAddresses fun bit inRow => addressed address latched bit inRow⟩
  · exact Wires.row_eq fewAddresses fun bit inRow =>
      settledAfter.address address (settledAfter.latched ▸ latched) bit inRow

/-- Data line 1 refuses its first level, so that a word is left half driven. The next write is seen
whole all the same, at the address latched in between. -/
theorem drives_every_line_after_refusal :
    let master : LineMaster := ⟨2, 3, true, true⟩
    let bench : Bench := { data := [{}, { failsAt := (· == 1) }] }
    let half := master.trail bench [.latch 2]
    let before := master.trail bench [.latch 2, .write (.ofList .byte [5]), .latch 1]
    create 2 3 true true = .ok master ∧
      half.answer master (.write (.ofList .byte [5])) = .error .line ∧
      before.latched = some 1 ∧
      ∃ events,
        before.bench.Ran (before.after master (.write (.ofList .byte [13, 13, 2]))).bench events ∧
        let seen := Observer.sights 3 { wires := before.bench.wires } events
        seen.map (·.wires.word 3) = [5, 5, 2] ∧
        ∀ sight ∈ seen, sight.wires.Driving 3 ∧ sight.wires.row .address 2 = 1 := by
  intro master bench half before
  have made : create 2 3 true true = .ok master := rfl
  obtain ⟨events, ran, edges, -, ends, -⟩ := drives_every_line made bench
    [.latch 2, .write (.ofList .byte [5]), .latch 1] (.write (.ofList .byte [13, 13, 2]))
  refine ⟨made, by decide +kernel, by decide +kernel, events, ran, ?_, fun sight noted => ?_⟩
  · exact ends (by decide +kernel)
  · obtain ⟨-, driving, addressed⟩ := edges sight noted
    exact ⟨driving, addressed 1 (by decide +kernel)⟩

end LineMaster

end PanelLink.Addressed
