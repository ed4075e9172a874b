/-
**Register writes on the SPI wires, selector line or opening byte.**

A register write is its register number and then its payload, each as one phase.

* `PhaseOnWire`: what an observer of the wires sees of a phase: its words, and the selector with
  every message;
* `Link.onWire_of_isPhase`: every phase that succeeds is seen so;
* **`write_on_wire`**: a write that succeeds is exactly these two phases, whatever the limits of the
  link.
-/

import PanelLink.Proofs.Bench.Replay
import PanelLink.Proofs.Spi.WireForm

namespace PanelLink.Spi

/-- **A phase on the wires**, its elements travelling at a width. -/
structure PhaseOnWire (link : Link) (selector : Selector) (words : Words) (width : Width)
    (events : List Event) : Prop where
  /-- The words clocked, segment by segment and message by message, are the elements in wire
  form. -/
  clocked : link.mode.clockedIn events = wireForm link.mask width words.values
  /-- Their bits are the bits of the elements: none lost, repeated or moved. -/
  stream : (link.mode.clockedIn events).flatMap ClockedWord.stream =
    words.values.flatMap (bitsOf width.bits)
  /-- A line for the selector is at its level with every message, whatever the levels before. -/
  selectorLine : ∀ name, link.selectorLine = .line name → ∀ levels : Levels,
    ∀ moment ∈ levels.history events, moment.1.message?.isSome → moment.2 name = selector.isData
  /-- An opening byte for the selector, and for writing, is the first segment of every message. -/
  opening : ∀ layout, link.mode = .opened layout → ∀ message ∈ messagesIn events,
    ∃ first rest, message = first :: rest ∧ first.clocked = [⟨8, layout.value selector false⟩]

/-! ### The selector -/

theorem levelAfter_of_mem_messageEvents {handleOf : Slice → Handle} {opening : Option Segment}
    {segment : Words → Segment} {mapping : Bool} {message : List Slice} {event : Event}
    (member : event ∈ messageEvents handleOf opening segment mapping message) (name : LineName)
    (level : Bool) : event.levelAfter name level = level := by
  unfold messageEvents at member
  cases mapping with
  | false =>
    cases List.mem_singleton.mp member
    rfl
  | true =>
    rcases List.mem_append.mp member with mapped | later
    · obtain ⟨slice, -, rfl⟩ := List.mem_map.mp mapped
      rfl
    · rcases List.mem_cons.mp later with rfl | unmapped
      · rfl
      · obtain ⟨handle, -, rfl⟩ := List.mem_map.mp unmapped
        rfl

namespace Link

/-- The selector line takes its level before the first message and keeps it. -/
theorem selectorLine_of_history {link : Link} (carried : link.mode ≠ .threeWire)
    (selector : Selector) (clock : Option Nat) (blocks : List Block) {name : LineName}
    (wired : link.selectorLine = .line name) (levels : Levels) {moment : Event × Levels}
    (member : moment ∈ levels.history (link.phaseEvents selector clock blocks))
    (transfer : moment.1.message?.isSome) : moment.2 name = selector.isData := by
  have driven : link.selectorLine.driven selector.isData =
      [.line name (.set selector.isData) .done] := by
    rw [wired]
    rfl
  rw [phaseEvents, if_neg carried, driven, List.singleton_append, Levels.history] at member
  rcases List.mem_cons.mp member with rfl | later
  · cases transfer
  · have still (event : Event) (inBlocks : event ∈ blocks.flatMap (link.blockEvents selector clock))
        (level : Bool) : event.levelAfter name level = level := by
      obtain ⟨block, -, inBlock⟩ := List.mem_flatMap.mp inBlocks
      obtain ⟨message, -, inMessage⟩ := List.mem_flatMap.mp inBlock
      exact levelAfter_of_mem_messageEvents inMessage name level
    rw [Levels.eq_of_mem_history still later]
    exact if_pos rfl

/-- Every message of a phase begins with the opening of the phase. -/
theorem opening_of_mem_messagesIn {link : Link} {selector : Selector} {clock : Option Nat}
    {blocks : List Block} {message : List Segment}
    (member : message ∈ messagesIn (link.phaseEvents selector clock blocks)) :
    ∃ rest, message = (link.opening selector false clock).toList ++ rest := by
  have quiet : messagesIn (if link.mode = .threeWire then [] else
      link.selectorLine.driven selector.isData) = [] := by
    by_cases threeWire : link.mode = .threeWire
    · rw [if_pos threeWire]
      rfl
    · rw [if_neg threeWire]
      cases link.selectorLine <;> rfl
  rw [phaseEvents, messagesIn_append, quiet, List.nil_append, messagesIn_flatMap] at member
  obtain ⟨block, -, inBlock⟩ := List.mem_flatMap.mp member
  rw [blockEvents, messagesIn_flatMap] at inBlock
  obtain ⟨runs, -, inMessage⟩ := List.mem_flatMap.mp inBlock
  rw [messagesIn_messageEvents] at inMessage
  exact ⟨_, List.mem_singleton.mp inMessage⟩

theorem clocked_opening (layout : OpeningByte) (selector : Selector) (reading : Bool)
    (clock : Option Nat) :
    Segment.clocked
        { payload := .transmit (Words.ofList .byte [layout.value selector reading])
          bits := 8
          clock } =
      [⟨8, layout.value selector reading⟩] := by
  cases layout with
  | standard id => cases id <;> cases selector <;> cases reading <;> rfl
  | alternate => cases selector <;> cases reading <;> rfl

/-- **A phase that succeeds is seen on the wires.** -/
theorem onWire_of_isPhase {link : Link} (carried : link.mode ≠ .threeWire) {selector : Selector}
    {words : Words} {width : Width} {events : List Event}
    (phase : link.IsPhase selector words width events) :
    PhaseOnWire link selector words width events := by
  obtain ⟨clock, places, blocks, encoded, rfl⟩ := phase
  have plain : link.encoder.encode words width places = .ok blocks := by
    unfold Encoder.phase at encoded
    split at encoded
    · rename_i threeWire
      exact absurd threeWire carried
    · exact encoded
  obtain ⟨form, whole⟩ := Encoder.clocked_of_encode plain
  have clocked : link.mode.clockedIn (link.phaseEvents selector clock blocks) =
      wireForm link.mask width words.values :=
    (link.clockedIn_phaseEvents selector clock blocks).trans form
  refine ⟨clocked, ?_, ?_, ?_⟩
  · rw [clocked]
    exact bits_wireForm whole
  · intro name wired levels moment member transfer
    exact selectorLine_of_history carried selector clock blocks wired levels member transfer
  · intro layout opened message member
    obtain ⟨rest, rfl⟩ := opening_of_mem_messagesIn member
    rw [Link.opening, opened]
    exact ⟨_, rest, rfl, clocked_opening layout selector false clock⟩

end Link

/-- **A write on the wires.** Over a selector line or an opening byte, a register write that succeeds
adds exactly the phase of its register number at the default width and, if it has a payload, the
phase of the payload at its own width. -/
theorem write_on_wire {link : Link} (carried : link.mode ≠ .threeWire) (settings : BankSettings)
    (register : Nat) (request : Option WriteRequest) {bench after : Bench}
    (ran : (RegisterBank.write ⟨link.channel, settings⟩ register request).run.run bench =
      (.ok (), after)) :
    ∃ select data, after.log = (select ++ data).reverse ++ bench.log ∧
      PhaseOnWire link .command (registerWord register settings.width) settings.width select ∧
      DataPhase request (fun present => PhaseOnWire link present.selector present.words
        (present.effectiveWidth settings.width)) data := by
  obtain ⟨select, data, log, selected, sent⟩ := RegisterBank.log_write ran
  refine ⟨select, data, log, Link.onWire_of_isPhase carried selected, sent.imp fun present => ?_⟩
  exact Link.onWire_of_isPhase carried

/-- A link whose limits are as tight as they may be, over a controller of byte words. -/
def tightLink : Link where
  mode := .opened (.standard true)
  selectorLine := .absent
  reset := .absent
  config :=
    { segmentLimit := 4, scratchLength := 9, splitsAtPages := true, mapsBuffers := true
      mappingThreshold := 2 }
  mask := .bytesOnly
  clock := 8000000
  canMap := true
  handleOf := Slice.inPlace
  layout := .paged

/-- Three 16-bit elements that begin just before the end of a page. -/
def threeHalves : WriteRequest where
  words := Words.ofList .half [0x1234, 0x5678, 0x9ABC]
  width := some .bits16
  address := 4093

/-- The elements written to register 34 through the tightest limits. -/
theorem write_on_wire_tightLink :
    tightLink.mode ≠ .threeWire ∧ ∃ after select data,
      (RegisterBank.write ⟨tightLink.channel, {}⟩ 34 (some threeHalves)).run.run {} =
        (.ok (), after) ∧
      after.log = (select ++ data).reverse ++ [] ∧
      PhaseOnWire tightLink .command (registerWord 34 .bits8) .bits8 select ∧
      PhaseOnWire tightLink .data threeHalves.words .bits16 data := by
  have carried : tightLink.mode ≠ .threeWire := by decide
  have succeeds : Succeeds tightLink.canMap
      (RegisterBank.write ⟨tightLink.channel, {}⟩ 34 (some threeHalves)) := by
    refine RegisterBank.succeeds_write rfl ⟨_, rfl⟩ fun present payload => ?_
    cases payload
    exact ⟨_, rfl⟩
  obtain ⟨_, after, ran, -⟩ := succeeds {} (Bench.faultless_empty _)
  obtain ⟨select, data, log, selected, sent⟩ := write_on_wire carried _ _ _ ran
  exact ⟨carried, after, select, data, ran, log, selected, sent⟩

end PanelLink.Spi
