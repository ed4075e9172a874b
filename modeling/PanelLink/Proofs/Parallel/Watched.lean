/-
**A parallel link on lines that work, and an observer of the lines.**

Where no line fails, the link and an observer who only sees the lines know the same: the word latched
last, unless the data lines were switched since. Every step of an access keeps it so, and what is
noted in a step can be read off its words.

* `Watched`: a link, its bench and an observer who agree;
* `Gives`: an action leads from one watched link to another, with a value and with what is noted;
* `Exact`: what is noted shows one word on outputs, driven only where it differs;
* `gives_turnData`, `gives_latchWords`, `gives_whileSelected`: the steps of an access;
* **`gives_sendPhase`**: a phase shows the digits of its elements and nothing else;
* **`gives_readElements`**: elements are read from the words that the panel presents next.
-/

import PanelLink.Proofs.Bench.Sights
import PanelLink.Proofs.Parallel.Latching
import PanelLink.Proofs.Pieces

namespace PanelLink

/-- A line that carries no word: neither a data line nor the write strobe. -/
def LineName.Aside (name : LineName) : Prop :=
  name ≠ .writeStrobe ∧ ∀ bit, name ≠ .data bit

/-- Setting a line that carries no word is nothing to the observer but a level. -/
theorem Observer.after_setAside {name : LineName} (aside : name.Aside) (lines : Nat)
    (observer : Observer) (level : Bool) :
    observer.after lines (.line name (.set level) .done) =
      { observer with wires := observer.wires.after (.line name (.set level) .done) } := by
  cases name with
  | writeStrobe => exact absurd rfl aside.1
  | data bit => exact absurd rfl (aside.2 bit)
  | _ => rfl

/-- The lines that carry no word are as before, and so is what the panel presents next. -/
structure Wires.Beside (wires after : Wires) : Prop where
  level : ∀ name, name.Aside → after.level name = wires.level name
  samples : after.samples = wires.samples

namespace Wires.Beside

theorem refl (wires : Wires) : wires.Beside wires :=
  ⟨fun _ _ => rfl, rfl⟩

theorem trans {wires middle after : Wires} (first : wires.Beside middle) (later : middle.Beside after) :
    wires.Beside after :=
  ⟨fun name aside => (later.level name aside).trans (first.level name aside),
    later.samples.trans first.samples⟩

end Wires.Beside

namespace Parallel

/-- **A link and an observer who know the same.** -/
structure Watched (link : Link) where
  memory : Memory
  bench : Bench
  observer : Observer
  wired : 0 < link.lines
  narrow : link.lines ≤ 24
  working : bench.Working
  wires : observer.wires = bench.wires
  /-- The observer has seen the word that the link remembers. -/
  before : observer.before = memory.word.map (· % 2 ^ link.lines)
  driven : observer.driven = []
  /-- The data lines show the word that the link remembers. -/
  shown : ∀ word, memory.word = some word →
    ∀ bit, bit < link.lines → bench.wires.level (.data bit) = wordBit word bit
  directed : memory.direction ≠ .unset →
    ∀ bit, bit < link.lines → bench.wires.direction (.data bit) = memory.direction

variable {link : Link} {α β : Type}

/-- A link that was just made, and an observer who has seen nothing yet. -/
def Watched.start (wired : 0 < link.lines) (narrow : link.lines ≤ 24) {bench : Bench}
    (working : bench.Working) : Watched link where
  memory := {}
  bench := bench
  observer := { wires := bench.wires }
  wired := wired
  narrow := narrow
  working := working
  wires := rfl
  before := rfl
  driven := rfl
  shown _ remembered := by cases remembered
  directed known := absurd rfl known

namespace Watched

/-- The watched link after a line that carries no word was set. -/
def set (start : Watched link) {name : LineName} (aside : name.Aside) {level : Bool} {after : Bench}
    (ran : start.bench.Ran after [.line name (.set level) .done]) : Watched link where
  memory := start.memory
  bench := after
  observer := start.observer.after link.lines (.line name (.set level) .done)
  wired := start.wired
  narrow := start.narrow
  working := ran.working start.working
  wires := by rw [Observer.wires_after, ran.wires, start.wires]; rfl
  before := by rw [Observer.after_setAside aside]; exact start.before
  driven := by rw [Observer.after_setAside aside]; exact start.driven
  shown word remembered bit inRow := by
    rw [ran.wires]
    exact (if_neg (aside.2 bit)).trans (start.shown word remembered bit inRow)
  directed known bit inRow := by
    rw [ran.wires]
    exact start.directed known bit inRow

/-- The watched link after its data lines were switched. -/
def turn (start : Watched link) {direction : Direction} {after : Bench}
    (ran : start.bench.Ran after (turnEvents link.lines direction)) : Watched link where
  memory := { word := none, direction := direction }
  bench := after
  observer := start.observer.afterAll link.lines (turnEvents link.lines direction)
  wired := start.wired
  narrow := start.narrow
  working := ran.working start.working
  wires := by rw [Observer.wires_afterAll, ran.wires, start.wires]
  before := by rw [Observer.afterAll_turnEvents _ _ start.wired]; rfl
  driven := by rw [Observer.afterAll_turnEvents _ _ start.wired]; exact start.driven
  shown _ remembered := by cases remembered
  directed _ bit inRow := by
    rw [ran.wires]
    exact Wires.direction_turnEvents _ _ _ inRow

/-- The watched link after its data lines were sampled. -/
def sample (start : Watched link) {after : Bench} {events : List Event}
    (ran : start.bench.Ran after events) (samples : ∀ event ∈ events, event.Samples) :
    Watched link where
  memory := start.memory
  bench := after
  observer := start.observer
  wired := start.wired
  narrow := start.narrow
  working := ran.working start.working
  wires := by rw [ran.wires, Wires.afterAll_samples _ samples, start.wires]
  before := start.before
  driven := start.driven
  shown := by
    rw [ran.wires, Wires.afterAll_samples _ samples]
    exact start.shown
  directed := by
    rw [ran.wires, Wires.afterAll_samples _ samples]
    exact start.directed

/-- The data lines that are set for a word. -/
def changed (start : Watched link) (word : Nat) : List Nat :=
  (List.range link.lines).filter (differs start.memory.word word)

/-- Once the lines that differ are set, the data lines show the word. -/
theorem level_latched (start : Watched link) (word : Nat) {bit : Nat} (inRow : bit < link.lines) :
    (start.bench.wires.afterAll (latchEvents (start.changed word) word)).level (.data bit) =
      wordBit word bit := by
  rw [(latched_latchEvents _ _ _).data]
  split
  · rfl
  · rename_i still
    have same : ¬differs start.memory.word word bit = true := fun drives =>
      still (List.mem_filter.mpr ⟨List.mem_range.mpr inRow, drives⟩)
    cases remembered : start.memory.word with
    | none => exact absurd (by rw [remembered]; rfl) same
    | some shown =>
      rw [remembered] at same
      rw [start.shown shown remembered bit inRow, eq_of_not_differs same]

theorem word_latched (start : Watched link) (word : Nat) :
    (start.bench.wires.afterAll (latchEvents (start.changed word) word)).word link.lines =
      word % 2 ^ link.lines :=
  Wires.row_eq (start.narrow.trans (by decide)) fun _ inRow => start.level_latched word inRow

/-- The watched link after a word was latched. -/
def latch (start : Watched link) (word : Nat) {after : Bench}
    (ran : start.bench.Ran after (latchEvents (start.changed word) word)) : Watched link where
  memory := { start.memory with word := some word }
  bench := after
  observer := start.observer.afterAll link.lines (latchEvents (start.changed word) word)
  wired := start.wired
  narrow := start.narrow
  working := ran.working start.working
  wires := by rw [Observer.wires_afterAll, ran.wires, start.wires]
  before := by
    rw [afterAll_latch, start.wires, start.word_latched]
    rfl
  driven := by rw [afterAll_latch]
  shown := by
    rintro _ ⟨⟩ bit inRow
    rw [ran.wires]
    exact start.level_latched word inRow
  directed known bit inRow := by
    rw [ran.wires, (latched_latchEvents _ _ _).direction]
    exact start.directed known bit inRow

end Watched

/-! ### Actions on a watched link -/

/-- From one watched link to another, these sights are noted. -/
def Watched.Noted (start last : Watched link) (seen : List Sight) : Prop :=
  ∃ events, start.bench.Ran last.bench events ∧
    last.observer = start.observer.afterAll link.lines events ∧
    seen = start.observer.sights link.lines events

theorem Watched.Noted.refl (start : Watched link) : start.Noted start [] :=
  ⟨[], Bench.Ran.refl _, rfl, rfl⟩

theorem Watched.Noted.trans {start middle last : Watched link} {seen later : List Sight}
    (noted : start.Noted middle seen) (notedOn : middle.Noted last later) :
    start.Noted last (seen ++ later) := by
  obtain ⟨events, ran, follows, rfl⟩ := noted
  obtain ⟨others, ranOn, followsOn, rfl⟩ := notedOn
  refine ⟨events ++ others, ran.trans ranOn, ?_, ?_⟩
  · rw [followsOn, follows, Observer.afterAll_append]
  · rw [Observer.sights_append, follows]

/-- **The action leads from one watched link to another**, with a value, and these sights are
noted. -/
structure Gives (action : LinkM α) (start : Watched link) (value : α) (last : Watched link)
    (seen : List Sight) : Prop where
  ran : (action.run start.memory).run start.bench = ((value, last.memory), last.bench)
  noted : start.Noted last seen

namespace Gives

theorem pure (start : Watched link) (value : α) : Gives (Pure.pure value) start value start [] :=
  ⟨rfl, Watched.Noted.refl start⟩

theorem bind {first : LinkM α} {next : α → LinkM β} {start middle last : Watched link} {value : α}
    {result : β} {seen later : List Sight} (gives : Gives first start value middle seen)
    (givesOn : Gives (next value) middle result last later) :
    Gives (first >>= next) start result last (seen ++ later) where
  ran := by
    rw [StateT.run_bind, StateT.run_bind, gives.ran]
    exact givesOn.ran
  noted := gives.noted.trans givesOn.noted

/-- Of two actions in a row the second one runs if the first one succeeds. -/
theorem andThen {ε : Type} {first : ExceptT ε LinkM α} {next : α → ExceptT ε LinkM β}
    {start middle last : Watched link} {value : α} {result : Except ε β} {seen later : List Sight}
    (gives : Gives first.run start (.ok value) middle seen)
    (givesOn : Gives (next value).run middle result last later) :
    Gives (first >>= next).run start result last (seen ++ later) where
  ran := (run_then_ok gives.ran).trans givesOn.ran
  noted := gives.noted.trans givesOn.noted

/-- A checked argument. -/
theorem checked {ε : Type} (start : Watched link) (argument : Except ε α) :
    Gives (liftM argument : ExceptT ε LinkM α).run start argument start [] where
  ran := by cases argument <;> rfl
  noted := Watched.Noted.refl start

/-- A value made of the value of an action. -/
theorem ret {action : LinkM α} {start last : Watched link} {value : α} {seen : List Sight}
    (gives : Gives action start value last seen) (restate : α → β) :
    Gives (action >>= fun value => Pure.pure (restate value)) start (restate value) last seen where
  ran := by rw [StateT.run_bind, StateT.run_bind, gives.ran]; rfl
  noted := gives.noted

/-- A value made of the value of an action that succeeds. -/
theorem andReturn {ε : Type} {action : ExceptT ε LinkM α} {start last : Watched link} {value : α}
    {seen : List Sight} (gives : Gives action.run start (.ok value) last seen) (restate : α → β) :
    Gives (action >>= fun value => Pure.pure (restate value)).run start (.ok (restate value)) last
      seen where
  ran := (run_then_ok gives.ran).trans rfl
  noted := gives.noted

/-- The outcome of a phase as the outcome of an access. -/
theorem outcome {action : LinkM (Reading AccessError)} {start last : Watched link}
    {reading : Reading AccessError} {seen : List Sight}
    (gives : Gives action start reading last seen) :
    Gives (liftM action >>= fun reading => ExceptT.mk (Pure.pure reading.outcome) :
      ExceptT AccessError LinkM Unit).run start reading.outcome last seen where
  ran := by
    have lifted :
        ((liftM action : ExceptT AccessError LinkM _).run.run start.memory).run start.bench =
          ((.ok reading, last.memory), last.bench) := by
      change ((Except.ok ((action.run start.memory).run start.bench).1.1,
        ((action.run start.memory).run start.bench).1.2),
        ((action.run start.memory).run start.bench).2) = _
      rw [gives.ran]
    exact (run_then_ok lifted).trans rfl
  noted := gives.noted

/-- After an error nothing more is done. -/
theorem stop {ε : Type} {first : ExceptT ε LinkM α} {next : α → ExceptT ε LinkM β}
    {start last : Watched link} {error : ε} {seen : List Sight}
    (gives : Gives first.run start (.error error) last seen) :
    Gives (first >>= next).run start (.error error) last seen where
  ran := run_then_error gives.ran
  noted := gives.noted

end Gives

/-- **Setting a line that carries no word** sets its level. -/
theorem gives_setLine (start : Watched link) {name : LineName} (aside : name.Aside) (level : Bool) :
    ∃ last : Watched link, Gives (Link.useLines (setLine name level)).run start (.ok ()) last [] ∧
      last.memory = start.memory ∧
      last.bench.wires = start.bench.wires.after (.line name (.set level) .done) := by
  cases used : (setLine name level).run.run start.bench with
  | mk answer after =>
    rcases usesOnce_setLine name level start.bench answer after used with
      ⟨rfl, ran⟩ | ⟨-, broken, -⟩
    · have still : (Event.line name (.set level) .done).latches = false := by
        unfold Event.latches
        split
        · rename_i same
          cases same
          exact absurd rfl aside.1
        · rfl
      refine ⟨start.set aside ran, ⟨run_useLines used _, _, ran, rfl, ?_⟩, rfl, ran.wires⟩
      rw [Observer.sights_of_still _ (by simpa using still)]
    · exact absurd start.working broken

/-- **Switching the data lines** moves no other line. -/
theorem gives_turnData (start : Watched link) (direction : Direction) (known : direction ≠ .unset) :
    ∃ last : Watched link, Gives (link.turnData direction).run start (.ok ()) last [] ∧
      last.memory.direction = direction ∧ start.bench.wires.Beside last.bench.wires := by
  cases switched : (switchLines link.lines start.memory.direction direction).run start.bench with
  | mk answer middle =>
    obtain ⟨now, outcome⟩ := answer
    have opened : ((link.turnData direction).run.run start.memory).run start.bench = _ :=
      run_get_then.trans (run_lift_then switched)
    rcases switchLines_ran known switched with
      ⟨same, rfl, rfl, rfl⟩ | ⟨-, rfl, rfl, all⟩ | ⟨-, -, -, broken, -⟩
    · exact ⟨start, ⟨opened, Watched.Noted.refl start⟩, same, .refl _⟩
    · have turns {event : Event} (member : event ∈ turnEvents link.lines now) :
          ∃ bit, event = .line (.data bit) (.turn now) .done := by
        obtain ⟨bit, -, rfl⟩ := List.mem_map.mp member
        exact ⟨bit, rfl⟩
      refine ⟨start.turn all, ⟨opened, _, all, rfl, ?_⟩, rfl, ?_⟩
      · rw [Observer.sights_of_still]
        intro event member
        obtain ⟨bit, rfl⟩ := turns member
        rfl
      · show start.bench.wires.Beside middle.wires
        rw [all.wires]
        refine ⟨fun name aside => Wires.level_afterAll_of_still fun event member level => ?_,
          (Wires.queue_afterAll_of_still _ fun event member => ?_).2⟩
        · obtain ⟨bit, rfl⟩ := turns member
          exact Event.levelAfter_turn_of_ne (aside.2 bit).symm now .done level
        · obtain ⟨bit, rfl⟩ := turns member
          rfl
    · exact absurd start.working broken

/-! ### Words -/

/-- **One word, shown exactly**: at a rising edge all data lines are outputs, and those were set that
differ from the word before, or all if there is none. -/
structure Exact (lines : Nat) (sight : Sight) : Prop where
  rose : sight.rose = true
  driving : sight.wires.Driving lines
  driven : ∀ bit, bit ∈ sight.driven ↔ bit < lines ∧
    ∀ before, sight.before = some before → before.testBit bit ≠ (sight.wires.word lines).testBit bit

/-- The lines that are set for a word are those at which it differs from what was seen before. -/
theorem Watched.mem_changed (start : Watched link) (word bit : Nat) :
    bit ∈ start.changed word ↔ bit < link.lines ∧ ∀ before, start.observer.before = some before →
      before.testBit bit ≠ (word % 2 ^ link.lines).testBit bit := by
  unfold changed
  rw [List.mem_filter, List.mem_range]
  refine and_congr_right fun inRow => ?_
  have visible (word : Nat) : (word % 2 ^ link.lines).testBit bit = wordBit word bit := by
    rw [wordBit_of_lt (inRow.trans_le (start.narrow.trans (by decide)))]
    simp [inRow]
  rw [start.before, visible]
  cases start.memory.word with
  | none => simp [differs]
  | some shown => simp [differs_some_iff, visible]

/-- Doing something for some of the items. -/
theorem forM_filter {m : Type → Type} [Monad m] [LawfulMonad m] {ι : Type} (chosen : ι → Bool)
    (action : ι → m PUnit) (items : List ι) :
    (items.forM fun item => if chosen item then action item else pure ()) =
      (items.filter chosen).forM action := by
  induction items with
  | nil => rfl
  | cons item items ih =>
    change ((if chosen item then action item else pure ()) >>= fun _ => items.forM _) = _
    rw [ih]
    by_cases here : chosen item
    · rw [List.filter_cons_of_pos here, if_pos here]
      rfl
    · rw [List.filter_cons_of_neg here, if_neg here, pure_bind]

/-- **Latching a word** shows it once and moves no other line. -/
theorem gives_latchWord (start : Watched link) (output : start.memory.direction = .output)
    (word : Nat) :
    ∃ (last : Watched link) (sight : Sight),
      Gives (link.latchWord word).run start (.ok ()) last [sight] ∧
      last.memory.direction = .output ∧ start.bench.wires.Beside last.bench.wires ∧
      Exact link.lines sight ∧ sight.wires.word link.lines = word % 2 ^ link.lines ∧
      start.bench.wires.Beside sight.wires := by
  -- On lines that work each of the three steps goes its whole way.
  match low : (setLine .writeStrobe false).run.run start.bench with
  | (fallen, lowered) =>
    rcases usesOnce_setLine _ _ _ _ _ low with ⟨rfl, fell⟩ | ⟨-, broken, -⟩
    swap
    · exact absurd start.working broken
    have chosen : link.driveChanged start.memory.word word =
        (start.changed word).forM fun bit => setLine (.data bit) (wordBit word bit) :=
      forM_filter _ _ _
    match drive : (link.driveChanged start.memory.word word).run.run lowered with
    | (driven, drawn) =>
      rw [chosen] at drive
      rcases forM_ran (fun bit => usesOnce_setLine (.data bit) (wordBit word bit)) drive with
        ⟨rfl, drew⟩ | ⟨-, broken, -⟩
      swap
      · exact absurd (fell.working start.working) broken
      rw [← chosen] at drive
      match high : (setLine .writeStrobe true).run.run drawn with
      | (risen, raised) =>
        rcases usesOnce_setLine _ _ _ _ _ high with ⟨rfl, rose⟩ | ⟨-, broken, -⟩
        swap
        · exact absurd ((fell.trans drew).working start.working) broken
        have all : start.bench.Ran raised (latchEvents (start.changed word) word) :=
          fell.trans (drew.trans rose)
        have latched := latched_latchEvents start.bench.wires (start.changed word) word
        have beside : start.bench.wires.Beside
            (start.bench.wires.afterAll (latchEvents (start.changed word) word)) :=
          ⟨fun name aside => latched.others name aside.1 aside.2, latched.samples⟩
        have word_eq := start.word_latched word
        refine ⟨start.latch word all, _, ⟨?_, _, all, rfl, (sights_latch _ _ _ _).symm⟩, output, ?_,
          ⟨rfl, fun bit inRow => ?_, fun bit => ?_⟩, ?_, ?_⟩
        · unfold Link.latchWord
          rw [run_then_ok (run_useLines low start.memory)]
          exact (run_then_ok (run_useLines drive start.memory)).trans (run_useLines high _)
        · show start.bench.wires.Beside raised.wires
          rw [all.wires]
          exact beside
        · show (start.observer.wires.afterAll _).direction _ = _
          rw [start.wires, latched.direction, start.directed (by rw [output]; decide) bit inRow, output]
        · show bit ∈ start.observer.driven ++ start.changed word ↔ _
          rw [start.driven, List.nil_append, start.mem_changed, start.wires, word_eq]
        · rw [start.wires, word_eq]
        · rw [start.wires]
          exact beside

/-- **Latching words** shows each of them once, in order. -/
theorem gives_latchWords (start : Watched link) (output : start.memory.direction = .output)
    (words : List Nat) :
    ∃ (last : Watched link) (seen : List Sight),
      Gives (words.forM link.latchWord).run start (.ok ()) last seen ∧
      start.bench.wires.Beside last.bench.wires ∧
      seen.map (·.wires.word link.lines) = words.map (· % 2 ^ link.lines) ∧
      ∀ sight ∈ seen, Exact link.lines sight ∧ start.bench.wires.Beside sight.wires := by
  induction words generalizing start with
  | nil => exact ⟨start, [], Gives.pure start _, .refl _, rfl, by simp⟩
  | cons word words ih =>
    obtain ⟨middle, sight, one, stays, beside, exactly, spelled, along⟩ :=
      gives_latchWord start output word
    obtain ⟨last, seen, others, besideAll, spelledAll, exactlyAll⟩ := ih middle stays
    refine ⟨last, sight :: seen, one.andThen others, beside.trans besideAll, ?_, ?_⟩
    · rw [List.map_cons, List.map_cons, spelled, spelledAll]
    · refine List.forall_mem_cons.mpr ⟨⟨exactly, along⟩, fun other member => ?_⟩
      exact ⟨(exactlyAll other member).1, beside.trans (exactlyAll other member).2⟩

/-! ### Phases -/

/-- The lines around a phase: the selector tells which one it is, and the chip is selected. -/
structure Framed (link : Link) (selector : Selector) (wires : Wires) : Prop where
  selector : wires.level .selector = selector.isData
  chipSelect : link.hasChipSelect = true → wires.level .chipSelect = false

theorem aside_selector : LineName.selector.Aside :=
  ⟨by simp, by simp⟩

theorem aside_chipSelect : LineName.chipSelect.Aside :=
  ⟨by simp, by simp⟩

theorem Framed.beside {selector : Selector} {wires after : Wires} (framed : Framed link selector wires)
    (beside : wires.Beside after) : Framed link selector after where
  selector := (beside.level _ aside_selector).trans framed.selector
  chipSelect wired := (beside.level _ aside_chipSelect).trans (framed.chipSelect wired)

/-- Driving the chip select, which is active low, if it is wired. -/
theorem gives_driveChipSelect (start : Watched link) (active : Bool) :
    ∃ last : Watched link, Gives (link.driveChipSelect active).run start (.ok ()) last [] ∧
      last.memory = start.memory ∧ last.bench.wires.samples = start.bench.wires.samples ∧
      (link.hasChipSelect = true → last.bench.wires.level .chipSelect = !active) := by
  unfold Link.driveChipSelect
  split
  · obtain ⟨last, gives, same, set⟩ := gives_setLine start aside_chipSelect (!active)
    refine ⟨last, gives, same, ?_, fun _ => ?_⟩
    · rw [set]
      rfl
    · rw [set]
      rfl
  · rename_i unwired
    exact ⟨start, Gives.pure start _, rfl, rfl, fun wired => absurd wired unwired⟩

/-- **A phase between the edges of the chip select** does what its body does in the frame, and shows
what the body shows. -/
theorem gives_whileSelected (start : Watched link) (selector : Selector)
    (body : LinkM (Reading AccessError)) :
    ∃ chosen : Watched link, chosen.memory = start.memory ∧
      chosen.bench.wires.samples = start.bench.wires.samples ∧
      Framed link selector chosen.bench.wires ∧
      ∀ {reading last seen}, Gives body chosen reading last seen →
        ∃ after : Watched link, Gives (link.whileSelected selector body) start reading after seen ∧
          after.memory = last.memory ∧ after.bench.wires.samples = last.bench.wires.samples := by
  obtain ⟨active, selects, sameActive, samplesActive, low⟩ := gives_driveChipSelect start true
  obtain ⟨chosen, set, sameChosen, levels⟩ := gives_setLine active aside_selector selector.isData
  refine ⟨chosen, sameChosen.trans sameActive, ?_, ⟨?_, fun wired => ?_⟩,
    fun {reading last seen} gives => ?_⟩
  · rw [levels]
    exact samplesActive
  · rw [levels]
    rfl
  · rw [levels]
    exact low wired
  · obtain ⟨after, released, sameAfter, samplesAfter, -⟩ := gives_driveChipSelect last false
    have whole : Gives (link.whileSelected selector body) start (reading.followedBy (.ok ())) after
        ([] ++ ([] ++ (seen ++ ([] ++ [])))) :=
      selects.bind (set.bind (gives.bind (released.bind (Gives.pure after _))))
    rw [List.nil_append, List.nil_append, List.append_nil, List.append_nil] at whole
    refine ⟨after, ?_, sameAfter, samplesAfter⟩
    obtain ⟨values, outcome⟩ := reading
    cases outcome <;> exact whole

/-- **A phase** shows the digits of its elements in its frame. -/
theorem gives_sendPhase (start : Watched link) (selector : Selector) (words : Words) {width : Width}
    (carried : width.Carried link.lines) :
    ∃ (last : Watched link) (seen : List Sight),
      Gives (link.sendPhase selector words width).run start (.ok ()) last seen ∧
      last.bench.wires.samples = start.bench.wires.samples ∧
      seen.map (·.wires.word link.lines) = words.values.flatMap (digits width link.lines) ∧
      ∀ sight ∈ seen, Exact link.lines sight ∧ Framed link selector sight.wires := by
  have narrow : link.lines ≤ 32 := start.narrow.trans (by decide)
  let pieces := words.values.flatMap (piecesOf (digitCount width link.lines) link.lines)
  obtain ⟨turned, turns, output, besideTurned⟩ := gives_turnData start .output (by decide)
  obtain ⟨chosen, sameChosen, samplesChosen, framed, within⟩ := gives_whileSelected turned selector
    (do return { values := [], outcome := ← (pieces.forM link.latchWord).run })
  obtain ⟨latched, seen, latches, besideLatched, spelled, exactly⟩ :=
    gives_latchWords chosen (by rw [sameChosen, output]) pieces
  obtain ⟨last, phase, -, samplesLast⟩ := within (latches.ret _)
  have counted : checked (piecesPerElement width link.lines) = .ok (digitCount width link.lines) := by
    rw [piecesPerElement_of_carried start.wired carried]
    rfl
  refine ⟨last, seen, ?_, ?_, ?_, fun sight member => ?_⟩
  · unfold Link.sendPhase
    rw [counted]
    exact (Gives.checked start (.ok _)).andThen (turns.andThen phase.outcome)
  · rw [samplesLast, besideLatched.samples, samplesChosen, besideTurned.samples]
  · rw [spelled, show pieces = _ from flatMap_piecesOf narrow width words, List.map_flatMap]
    exact List.flatMap_congr fun value _ => map_mod_digits width link.lines value
  · exact ⟨(exactly sight member).1, framed.beside (exactly sight member).2⟩

/-- A phase at any other width is refused before a line is touched. -/
theorem gives_sendPhase_refused (start : Watched link) (selector : Selector) (words : Words)
    {width : Width} (apart : ¬width.Carried link.lines) :
    Gives (link.sendPhase selector words width).run start
      (.error (.invalidArgument .widthNotDivisible)) start [] := by
  unfold Link.sendPhase
  rw [piecesPerElement_of_not_carried start.wired apart]
  exact (Gives.checked start _).stop

/-! ### Reading -/

theorem aside_readStrobe : LineName.readStrobe.Aside :=
  ⟨by simp, by simp⟩

/-- Sampling finds the word on the data lines. -/
theorem gives_sampleLines (start : Watched link) :
    ∃ last : Watched link, Gives (Link.useLines (sampleLines link.lines)).run start
        (.ok (start.bench.wires.sampled link.lines)) last [] ∧
      last.memory = start.memory ∧ last.bench.wires = start.bench.wires := by
  match used : (sampleLines link.lines).run.run start.bench with
  | (answer, after) =>
    obtain ⟨rfl | ⟨-, broken⟩, events, ran, samples⟩ := sampleLines_ran used
    · refine ⟨start.sample ran samples, ⟨run_useLines used _, events, ran, ?_, ?_⟩, rfl, ?_⟩
      · exact (Observer.afterAll_samples _ _ samples).symm
      · rw [Observer.sights_of_still]
        intro event member
        obtain ⟨bit, outcome, rfl⟩ := samples event member
        rfl
      · exact ran.wires.trans (Wires.afterAll_samples _ samples)
    · exact absurd start.working broken

/-- **Reading a word** obtains what the panel presents next, and shows nothing. -/
theorem gives_readWord (start : Watched link) (input : start.memory.direction = .input) :
    ∃ (word : Nat) (last : Watched link), Gives link.readWord.run start (.ok word) last [] ∧
      last.memory = start.memory ∧
      ∀ {next : Nat} {later : List Nat}, start.bench.wires.samples = next :: later →
        word = next % 2 ^ link.lines ∧ last.bench.wires.samples = later := by
  obtain ⟨low, falls, sameLow, lowered⟩ := gives_setLine start aside_readStrobe false
  obtain ⟨sampled, samples, sameSampled, still⟩ := gives_sampleLines low
  obtain ⟨last, rises, sameLast, raised⟩ := gives_setLine sampled aside_readStrobe true
  refine ⟨low.bench.wires.sampled link.lines, last, ?_, by rw [sameLast, sameSampled, sameLow],
    fun {next later} queue => ⟨?_, ?_⟩⟩
  · unfold Link.readWord
    exact falls.andThen (samples.andThen (rises.andReturn _))
  · rw [Wires.sampled_of_input (start.narrow.trans (by decide)) fun bit inRow => ?_]
    · rw [lowered]
      simp [Wires.after, Event.fetches, queue]
    · rw [low.directed (by rw [sameLow, input]; decide) bit inRow, sameLow, input]
  · rw [raised, still, lowered]
    simp [Wires.after, Event.fetches, queue]

theorem gives_readWords (start : Watched link) (input : start.memory.direction = .input)
    (count : Nat) :
    ∃ (words : List Nat) (last : Watched link),
      Gives (link.readWords count).run start (.ok words) last [] ∧ last.memory = start.memory ∧
      ∀ {handed later : List Nat}, handed.length = count →
        start.bench.wires.samples = handed ++ later →
        words = handed.map (· % 2 ^ link.lines) ∧ last.bench.wires.samples = later := by
  induction count generalizing start with
  | zero =>
    refine ⟨[], start, Gives.pure start _, rfl, fun {handed later} none queue => ?_⟩
    rw [List.eq_nil_of_length_eq_zero none] at queue ⊢
    exact ⟨rfl, queue⟩
  | succ count ih =>
    obtain ⟨word, middle, one, same, obtained⟩ := gives_readWord start input
    obtain ⟨words, last, others, sameLast, obtainedAll⟩ := ih middle (by rw [same, input])
    refine ⟨word :: words, last, ?_, sameLast.trans same, fun {handed later} length queue => ?_⟩
    · exact one.andThen (others.andReturn _)
    · obtain ⟨next, handed, rfl⟩ := List.exists_cons_of_length_eq_add_one length
      obtain ⟨rfl, rest⟩ := obtained queue
      obtain ⟨rfl, final⟩ := obtainedAll (Nat.succ_injective length) rest
      exact ⟨rfl, final⟩

/-- **Reading elements** joins the words that the panel presents next. Words that are digits of
elements on the lines give the elements back, as far as the digits reach. -/
theorem gives_readElements (start : Watched link) (input : start.memory.direction = .input)
    (width : Width) (count : Nat) :
    ∃ (read : List Nat) (last : Watched link),
      Gives (link.readElements (digitCount width link.lines) count) start (.complete read) last [] ∧
      ∀ {values handed later : List Nat}, values.length = count →
        handed.map (· % 2 ^ link.lines) = values.flatMap (digits width link.lines) →
        start.bench.wires.samples = handed ++ later →
        read = values.map (· % 2 ^ (link.lines * digitCount width link.lines)) ∧
          last.bench.wires.samples = later := by
  induction count generalizing start with
  | zero =>
    refine ⟨[], start, Gives.pure start _, fun {values handed later} none shown queue => ?_⟩
    rw [List.eq_nil_of_length_eq_zero none] at shown ⊢
    rw [List.map_eq_nil_iff.mp shown] at queue
    exact ⟨rfl, queue⟩
  | succ count ih =>
    obtain ⟨words, middle, one, same, obtained⟩ :=
      gives_readWords start input (digitCount width link.lines)
    obtain ⟨read, last, others, obtainedAll⟩ := ih middle (by rw [same, input])
    refine ⟨joinPieces link.lines words :: read, last, ?_,
      fun {values handed later} length shown queue => ?_⟩
    · exact one.bind (others.ret _)
    · obtain ⟨value, values, rfl⟩ := List.exists_cons_of_length_eq_add_one length
      obtain ⟨first, others, rfl, digitsLong, here, there⟩ := exists_front_of_digits shown
      rw [List.append_assoc] at queue
      obtain ⟨rfl, rest⟩ := obtained digitsLong queue
      obtain ⟨rfl, final⟩ := obtainedAll (Nat.succ_injective length) there rest
      refine ⟨?_, final⟩
      rw [List.map_cons, joinPieces_of_digits (start.narrow.trans (by decide))]
      rw [List.map_map, ← here]
      simp

end Parallel

end PanelLink
