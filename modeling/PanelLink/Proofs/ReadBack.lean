/-
**Reading undoes writing.**

A bus that hands back the words which a phase put on its data lines gives a read the elements that
were written, as far as their width reaches. On parallel lines the words are those at the rising edges
of the write strobe, and the panel presents them at the read strobe. On an addressed bus they are the
words of the master's calls, and the master finds them in its queue.

* `recovered_of_digits`, `recovered_of_native`: elements read through digits and as they are;
* `Parallel.Puts`, `Parallel.Obtains`, `Addressed.Puts`, `Addressed.Obtains`: what a phase puts on a
  bus, and what a read obtains from it;
* **`reading_undoes_writing`**: on both buses, for every width, every run and every buffer.
-/

import PanelLink.Proofs.Addressed.PhaseReads
import PanelLink.Proofs.Parallel.Observed

namespace PanelLink

/-! ### Elements in a buffer -/

theorem Element.modulus_eq (element : Element) : element.modulus = 2 ^ element.bits := by
  rw [element.modulus_eq_shiftLeft, Nat.one_shiftLeft]

section Buffer

variable {width : Width} {words buffer : Words} {busBits : Nat}

/-- **Elements that are read through their digits** are those that were written. -/
theorem recovered_of_digits (sized : buffer.length = words.length)
    (room : min words.element.bits width.bits ≤ buffer.element.bits)
    (carried : width.Carried busBits) :
    (buffer.overwrite (words.values.map (· % 2 ^ (busBits * digitCount width busBits)))).values.map
        (· % 2 ^ width.bits) =
      words.values.map (· % 2 ^ width.bits) := by
  have span : 2 ^ width.bits ∣ 2 ^ (busBits * digitCount width busBits) :=
    pow_dvd_pow 2 carried.bits_le_mul
  rw [Words.overwrite_all (by rw [List.length_map, sized]; rfl), List.map_map, List.map_map]
  refine List.map_congr_left fun value member => ?_
  show value % _ % buffer.element.modulus % _ = _
  -- The buffer holds either every element written or every bit of the width.
  rcases min_le_iff.mp room with same | wide
  · have small : value % 2 ^ (busBits * digitCount width busBits) < buffer.element.modulus := by
      refine (Nat.mod_le _ _).trans_lt ((words.bounded value member).trans_le ?_)
      rw [Element.modulus_eq, Element.modulus_eq]
      exact Nat.pow_le_pow_right (by decide) same
    rw [Nat.mod_eq_of_lt small, Nat.mod_mod_of_dvd _ span]
  · have fits : 2 ^ width.bits ∣ buffer.element.modulus := by
      rw [Element.modulus_eq]
      exact pow_dvd_pow 2 wide
    rw [Nat.mod_mod_of_dvd _ fits, Nat.mod_mod_of_dvd _ span]

/-- **Elements that are read as they are** agree with those that were written. -/
theorem recovered_of_native (sized : buffer.length = words.length) (fits : width.bits ≤ busBits)
    (holds : 2 ^ busBits ∣ buffer.element.modulus) {handed : List Nat}
    (shown : handed.map (· % 2 ^ busBits) = words.values.flatMap (digits width busBits)) :
    (buffer.overwrite (handed.map buffer.element.truncate)).values.map (· % 2 ^ width.bits) =
      words.values.map (· % 2 ^ width.bits) := by
  have span : 2 ^ width.bits ∣ 2 ^ busBits := pow_dvd_pow 2 fits
  have single : digits width busBits = fun value => [value % 2 ^ busBits] :=
    funext (digits_of_bits_le fits)
  rw [single, ← List.map_eq_flatMap] at shown
  have length : handed.length = words.values.length := by
    rw [← List.length_map, shown, List.length_map]
  rw [Words.overwrite_all (by rw [List.length_map, length, sized]; rfl), List.map_map, List.map_map]
  have low := congrArg (List.map (· % 2 ^ width.bits)) shown
  rw [List.map_map, List.map_map] at low
  have cut (values : List Nat) : values.map ((· % 2 ^ width.bits) ∘ (· % 2 ^ busBits)) =
      values.map (· % 2 ^ width.bits) :=
    List.map_congr_left fun value _ => Nat.mod_mod_of_dvd value span
  rw [cut, cut] at low
  rw [← low]
  refine List.map_congr_left fun word _ => ?_
  show word % buffer.element.modulus % buffer.element.modulus % _ = _
  rw [Nat.mod_mod, Nat.mod_mod_of_dvd _ (span.trans holds)]

end Buffer

/-- The request is for as many elements as the buffer has, at this width. -/
structure ReadRequest.Fills (request : ReadRequest) (context : Context) (buffer : Words)
    (width : Width) : Prop where
  element : request.element = buffer.element
  count : request.count = buffer.length
  width : request.effectiveWidth context.width = width

/-! ### What a bus carries -/

namespace Parallel

/-- After a history, a phase puts these words on the data lines: an observer sees them at the rising
edges of the write strobe. -/
def Puts (link : Link) (bench : Bench) (history : List Access) (selector : Selector) (words : Words)
    (width : Width) (sent : List Nat) : Prop :=
  ∃ past events now after, bench.Ran (link.performAll bench history).2 past ∧
    ((link.sendPhase selector words width).run.run (link.performAll bench history).1).run
      (link.performAll bench history).2 = ((.ok (), now), after) ∧
    (link.performAll bench history).2.Ran after events ∧
    sent = ((Observer.afterAll link.lines { wires := bench.wires } past).sights link.lines events).map
      (·.wires.word link.lines)

/-- After a history, a read obtains these elements, and later words are still to be presented. -/
def Obtains (link : Link) (bench : Bench) (history : List Access) (context : Context) (register : Nat)
    (request : ReadRequest) (received later : List Nat) : Prop :=
  ∃ now after, ((link.read context register request).run (link.performAll bench history).1).run
      (link.performAll bench history).2 = ((.complete received, now), after) ∧
    after.samples = later

variable {lines : Nat} {hasReadStrobe hasChipSelect : Bool} {reset : Connection} {link : Link}

/-- **What a phase puts on the data lines** are the digits of its elements, and nothing else. -/
theorem puts_iff (made : Link.create lines hasReadStrobe hasChipSelect reset = .ok link)
    {bench : Bench} (working : bench.Working) (history : List Access) (selector : Selector)
    (words : Words) {width : Width} (carried : width.Carried lines) (sent : List Nat) :
    Puts link bench history selector words width sent ↔
      sent = words.values.flatMap (digits width lines) := by
  obtain ⟨wired, narrow, rfl, -, -⟩ := lines_of_create made
  obtain ⟨last, -, performed, past, ranPast, watched, -⟩ :=
    (Watched.start wired narrow working).accesses history
  obtain ⟨final, seen, gives, -, spelled, -⟩ := gives_sendPhase last selector words carried
  obtain ⟨events, ran, -, rfl⟩ := gives.noted
  have here : link.performAll bench history = (last.memory, last.bench) := performed
  have follows : last.observer = Observer.afterAll link.lines { wires := bench.wires } past := watched
  unfold Puts
  rw [here, ← spelled, follows]
  constructor
  · rintro ⟨others, theirs, now, after, ranOthers, sends, ranTheirs, rfl⟩
    cases gives.ran.symm.trans sends
    rw [ranPast.unique ranOthers, ran.unique ranTheirs]
  · intro same
    exact ⟨past, events, final.memory, final.bench, ranPast, gives.ran, ran, same⟩

/-- A read obtains the elements whose digits the panel presents. -/
theorem obtains_elements (made : Link.create lines hasReadStrobe hasChipSelect reset = .ok link)
    (readable : hasReadStrobe = true) {bench : Bench} (working : bench.Working)
    (history : List Access) (context : Context) (register : Nat) (request : ReadRequest)
    (known : context.width.Carried lines)
    (carried : (request.effectiveWidth context.width).Carried lines) {values handed later : List Nat}
    (length : values.length = request.count)
    (shown : handed.map (· % 2 ^ lines) =
      values.flatMap (digits (request.effectiveWidth context.width) lines))
    (queue : (link.performAll bench history).2.samples = handed ++ later) :
    Obtains link bench history context register request
      (values.map (· % 2 ^ (lines * digitCount (request.effectiveWidth context.width) lines)))
      later := by
  obtain ⟨wired, narrow, rfl, rfl, -⟩ := lines_of_create made
  obtain ⟨last, -, performed, -⟩ := (Watched.start wired narrow working).accesses history
  have here : link.performAll bench history = (last.memory, last.bench) := performed
  rw [here] at queue
  obtain ⟨⟨obtained, outcome⟩, final, seen, gives, ended, -, recovers⟩ :=
    gives_read last context register request
  have verdict : link.verdict (.read context register request) = .ok () := by
    simp only [Link.verdict, readable, Link.carries, if_pos known, if_pos carried]
    rfl
  have succeeds : outcome = .ok () := ended.trans verdict
  obtain ⟨rfl, rest⟩ := recovers succeeds length shown queue
  subst succeeds
  unfold Obtains
  rw [here]
  exact ⟨final.memory, final.bench, gives.ran, rest⟩

end Parallel

namespace Addressed

/-- A phase puts these words on the data lines: they are the words that the master is asked to
write. -/
def Puts (recorder : Recorder) (window : Window) (bench : Bench) (selector : Selector) (words : Words)
    (width : Width) (sent : List Nat) : Prop :=
  ∃ after calls, (sendPhase ⟨recorder.master, window⟩ selector words width).run.run bench =
      (.ok (), after) ∧
    after.masterCalls = bench.masterCalls ++ calls ∧
    sent = (calls.flatMap MasterCall.written).map (· % 2 ^ recorder.dataWidth)

/-- A read obtains these elements, and later words are still in the queue of the master. -/
def Obtains (link : Link) (recorder : Recorder) (registry : Registry) (bench : Bench)
    (context : Context) (register : Nat) (request : ReadRequest) (received later : List Nat) : Prop :=
  ∃ after, ((link.read recorder.master context register request).run registry).run bench =
      ((.complete received, registry), after) ∧
    after.masterIncoming = later

/-- **What a phase puts on the data lines** are the digits of its elements, and nothing else. -/
theorem puts_iff (recorder : Recorder) {window : Window} (writable : recorder.writable = true)
    (wired : 0 < recorder.dataWidth) (narrow : recorder.dataWidth ≤ 32)
    (held : ∀ selector, window.holdsOffset (phaseOffset selector) = true) {bench : Bench}
    (obliging : bench.Obliging) (selector : Selector) (words : Words) {width : Width}
    (carried : width.Carried recorder.dataWidth) (sent : List Nat) :
    Puts recorder window bench selector words width sent ↔
      sent = words.values.flatMap (digits width recorder.dataWidth) := by
  let phase : Phase := ⟨selector, words, width⟩
  obtain ⟨after, ran, called⟩ := makes_sendPhase writable wired held phase carried bench obliging
  have spelled : ((phase.calls recorder.dataWidth window).flatMap MasterCall.written).map
      (· % 2 ^ recorder.dataWidth) = words.values.flatMap (digits width recorder.dataWidth) := by
    rw [← onLines_phaseWrites narrow words width, onLines, Phase.calls, List.flatMap_assoc]
    simp [MasterCall.written, phase]
  constructor
  · rintro ⟨others, calls, ranToo, calledToo, rfl⟩
    cases ran.symm.trans ranToo
    rw [← spelled, List.append_cancel_left (calledToo.symm.trans called.made)]
  · rintro rfl
    exact ⟨after, _, ran, called.made, spelled.symm⟩

end Addressed

/-! ### Both buses -/

/-- **Reading undoes writing.** Take any elements, a width that the bus carries, and a buffer for as
many elements that has room for what travels. On parallel lines that work, after any history, a phase
puts some words on the data lines. If the panel presents words next that are the same on the lines, a
read after any other history obtains from them elements that agree with those written in all bits of
the width, and leaves exactly the later words. On an addressed bus whose master does what it is asked,
through any live window, it is the same with the words of the master's calls and of its queue. -/
theorem reading_undoes_writing (words buffer : Words) (width : Width)
    (sized : buffer.length = words.length)
    (room : min words.element.bits width.bits ≤ buffer.element.bits) :
    (∀ {lines hasReadStrobe hasChipSelect reset link},
      Parallel.Link.create lines hasReadStrobe hasChipSelect reset = .ok link →
      hasReadStrobe = true → width.Carried lines →
      ∀ {bench : Bench}, bench.Working → ∀ history selector,
        (∃ sent, Parallel.Puts link bench history selector words width sent) ∧
        ∀ {sent}, Parallel.Puts link bench history selector words width sent →
        ∀ {other : Bench}, other.Working → ∀ {past context register request handed later},
          ReadRequest.Fills request context buffer width → context.width.Carried lines →
          handed.map (· % 2 ^ lines) = sent →
          (link.performAll other past).2.samples = handed ++ later →
          ∃ received, Parallel.Obtains link other past context register request received later ∧
            (buffer.overwrite received).values.map (· % 2 ^ width.bits) =
              words.values.map (· % 2 ^ width.bits)) ∧
    ∀ (recorder : Addressed.Recorder) {calls slot reset link window},
      Addressed.Link.bind (Addressed.Registry.afterAll recorder.addressWidth calls) recorder.master
        slot reset = .ok link →
      (Addressed.Registry.afterAll recorder.addressWidth calls).window? slot = some window →
      recorder.readable = true → width.Carried recorder.dataWidth →
      ∀ {bench : Bench}, bench.Obliging → ∀ selector,
        (∃ sent, Addressed.Puts recorder window bench selector words width sent) ∧
        ∀ {sent}, Addressed.Puts recorder window bench selector words width sent →
        ∀ {other : Bench}, other.Obliging → ∀ {context register request handed later},
          ReadRequest.Fills request context buffer width →
          context.width.Carried recorder.dataWidth →
          handed.map (· % 2 ^ recorder.dataWidth) = sent →
          other.masterIncoming = handed ++ later →
          ∃ received, Addressed.Obtains link recorder
              (Addressed.Registry.afterAll recorder.addressWidth calls) other context register request
              received later ∧
            (buffer.overwrite received).values.map (· % 2 ^ width.bits) =
              words.values.map (· % 2 ^ width.bits) := by
  constructor
  · intro lines hasReadStrobe hasChipSelect reset link made readable carried bench working history
      selector
    have puts := Parallel.puts_iff made working history selector words carried
    refine ⟨⟨_, (puts _).mpr rfl⟩, fun {sent} put => ?_⟩
    intro other workingOther past context register request handed later fills known shown queue
    obtain ⟨element, count, rfl⟩ := fills
    rw [(puts sent).mp put] at shown
    exact ⟨_, Parallel.obtains_elements made readable workingOther past context register request known
      carried (sized.symm.trans count.symm) shown queue, recovered_of_digits sized room carried⟩
  · intro recorder calls slot reset link window bound live readable carried bench obliging selector
    obtain ⟨rfl, writable, wired, narrow, -⟩ := Addressed.Link.bind_eq_ok bound
    have held := Addressed.Registry.holdsOffset_of_afterAll live
    have puts := Addressed.puts_iff recorder writable wired narrow held obliging selector words carried
    refine ⟨⟨_, (puts _).mpr rfl⟩, fun {sent} put => ?_⟩
    intro other obligingOther context register request handed later fills known shown queue
    obtain ⟨element, count, rfl⟩ := fills
    rw [(puts sent).mp put] at shown
    obtain ⟨received, after, ran, final, recovered⟩ := Addressed.run_read
      ⟨slot, reset, recorder.dataWidth, recorder.readable⟩ readable readable writable wired narrow
      live held register request known carried obligingOther (sized.symm.trans count.symm) shown queue
    refine ⟨received, ⟨after, ran, final⟩, ?_⟩
    rcases recovered with rfl | ⟨native, rfl⟩
    · exact recovered_of_digits sized room carried
    · obtain ⟨fits, busSized⟩ := Addressed.goesAsIs_iff.mp native
      rw [element] at busSized ⊢
      refine recovered_of_native sized fits ?_ shown
      rw [busSized]
      exact Addressed.dvd_busElement narrow

/-- Two elements of 16 bits over eight data lines; of the first word that comes back only the low
eight bits are on the lines. -/
theorem reading_undoes_writing_twoElements :
    let words := Words.ofList .half [0x1234, 0xABCD]
    let buffer := Words.ofList .half [0, 0]
    let context : Context := ⟨.bits8, ⟨0⟩⟩
    let request : ReadRequest := ⟨.data, .half, 2, some .bits16⟩
    let handed := [0x312, 0x34, 0xAB, 0xCD, 7]
    buffer.length = words.length ∧ min words.element.bits 16 ≤ buffer.element.bits ∧
      (∃ received, Parallel.Obtains ⟨8, true, false, .absent⟩ { samples := handed } [] context 0x2E
          request received [7] ∧
        (buffer.overwrite received).values.map (· % 2 ^ 16) = [0x1234, 0xABCD]) ∧
      ∃ received, Addressed.Obtains ⟨0, .absent, 8, true⟩ ⟨8, 8, true, true⟩
          (Addressed.Registry.afterAll 8 [.enlist 16 4]) { masterIncoming := handed } context 0x2E
          request received [7] ∧
        (buffer.overwrite received).values.map (· % 2 ^ 16) = [0x1234, 0xABCD] := by
  intro words buffer context request handed
  have sized : buffer.length = words.length := rfl
  have room : min words.element.bits 16 ≤ buffer.element.bits := by decide
  obtain ⟨parallel, addressed⟩ := reading_undoes_writing words buffer .bits16 sized room
  have fills : request.Fills context buffer .bits16 := ⟨rfl, rfl, rfl⟩
  have carried : Width.bits16.Carried 8 := by decide
  have known : Width.bits8.Carried 8 := by decide
  refine ⟨sized, room, ?_, ?_⟩
  · have made : Parallel.Link.create 8 true false .absent = .ok ⟨8, true, false, .absent⟩ := rfl
    have working : Bench.Working { samples := handed } := by
      intro name
      cases name <;> exact ⟨fun _ => rfl, rfl⟩
    obtain ⟨-, back⟩ := parallel made rfl carried Parallel.working_fresh [] .data
    have put := (Parallel.puts_iff made Parallel.working_fresh [] .data words carried
      [0x12, 0x34, 0xAB, 0xCD]).mpr (by decide)
    have shown : [0x312, 0x34, 0xAB, 0xCD].map (· % 2 ^ 8) = [0x12, 0x34, 0xAB, 0xCD] := rfl
    exact back put working fills known shown rfl
  · have bound : Addressed.Link.bind (Addressed.Registry.afterAll 8 [.enlist 16 4])
        (Addressed.Recorder.master ⟨8, 8, true, true⟩) 0 .absent = .ok ⟨0, .absent, 8, true⟩ := by
      decide +kernel
    have live : (Addressed.Registry.afterAll 8 [.enlist 16 4]).window? 0 = some ⟨16, 3⟩ := by
      decide +kernel
    have obliging : Bench.Obliging {} := fun _ _ => rfl
    have waiting : Bench.Obliging { masterIncoming := handed } := fun _ _ => rfl
    have held := Addressed.Registry.holdsOffset_of_afterAll live
    obtain ⟨-, back⟩ := addressed ⟨8, 8, true, true⟩ bound live rfl carried obliging .data
    have put := (Addressed.puts_iff ⟨8, 8, true, true⟩ rfl (by decide) (by decide) held obliging
      .data words carried [0x12, 0x34, 0xAB, 0xCD]).mpr (by decide)
    have shown : [0x312, 0x34, 0xAB, 0xCD].map (· % 2 ^ 8) = [0x12, 0x34, 0xAB, 0xCD] := rfl
    exact back put waiting fills known shown rfl

end PanelLink
