/-
**How a register is selected for reading.**

A write spells its register number by tagging, padding and repacking it. A read puts the number into a
segment of its own, or begins with the phase of a write.

* `Link.selectForm`: the words that select a register for writing;
* `Link.clocked_selectSegment`: the segment of a read holds the same words, unless a 3-wire link has
  register numbers of 16 bits;
* `Mode.SelectsAlike`: a read that clocks out the words of a write without a payload, and no others;
* **`selects_as_write`**: every read that is accepted is such a read;
* `selects_low_byte`: a 3-wire read clocks out the low byte of its register number alone.
-/

import PanelLink.Proofs.Spi.ReadQueue

namespace PanelLink

/-! ### Bytes of small numbers -/

/-- The bytes of a number that fits the last of them. -/
theorem bigEndian_of_lt (count : Nat) {number : Nat} (small : number < 256) :
    bigEndian (count + 1) number = List.replicate count 0 ++ [number] := by
  induction count with
  | zero => exact congrArg (fun byte => [byte]) (Nat.mod_eq_of_lt small)
  | succ count ih =>
    have above : number >>> (8 * (count + 1)) = 0 := by
      rw [Nat.shiftRight_eq_div_pow, Nat.div_eq_of_lt]
      have wide : 8 ≤ 8 * (count + 1) := by omega
      exact Nat.lt_of_lt_of_le small (Nat.pow_le_pow_right (n := 2) (by decide) wide)
    rw [bigEndian, ih, above]
    rfl

/-- Both bytes of a number are those of its low half. -/
theorem bigEndian_two_mod (number : Nat) : bigEndian 2 (number % 65536) = bigEndian 2 number := by
  have high : (number % 65536) >>> 8 % 256 = number >>> 8 % 256 := by
    rw [Nat.shiftRight_eq_div_pow, Nat.shiftRight_eq_div_pow]
    show number % 65536 / 256 % 256 = number / 256 % 256
    omega
  have low : number % 65536 % 256 = number % 256 := Nat.mod_mod_of_dvd _ (by decide)
  show [(number % 65536) >>> 8 % 256, number % 65536 % 256] = [number >>> 8 % 256, number % 256]
  rw [high, low]

/-- A command of one byte is packed into that byte with eight zeros in front. -/
theorem NineBit.pack_padded_command {byte : Nat} (small : byte < 256) :
    pack.all (padded .command [byte]) = List.replicate 8 0 ++ [byte] := by
  have group : portions groupWords (padded .command [byte]) = [List.replicate 7 0 ++ [byte]] :=
    (portions_of_ne_nil groupWords (List.cons_ne_nil _ _)).trans
      (congrArg (List.cons _) (portions_nil groupWords))
  have number : stream (List.replicate 7 0 ++ [byte]) = byte := by
    show 0 * 512 + byte % 512 = byte
    omega
  show (portions groupWords _).flatMap packGroup = _
  rw [group, List.flatMap_singleton, packGroup, number]
  exact bigEndian_of_lt 8 small

theorem Reading.eq_complete {ε : Type} {reading : Reading ε} {values : List Nat}
    (took : reading.values = values) (succeeds : reading.outcome = .ok ()) :
    reading = .complete values :=
  congrArg₂ Reading.mk took succeeds

namespace Spi

/-! ### The words that select a register -/

namespace Link

variable (link : Link)

/-- **The words that select a register**: its number at the default width and, over three wires, the
nine-bit words of that, with their padding where these are packed. -/
def selectForm (width : Width) (register : Nat) : List ClockedWord :=
  let word := registerWord register width
  let tagged := NineBit.wordsFor .command word
  if link.mode = .threeWire then
    wireForm link.mask .bits9
      (if link.mask.contains .bits9 then tagged else NineBit.padded .command tagged)
  else wireForm link.mask width word.values

/-- The phase that selects a register clocks these words. -/
theorem clockedIn_select {link : Link} {width : Width} {register : Nat} {events : List Event}
    (phase : link.IsPhase .command (registerWord register width) width events) :
    link.mode.clockedIn events = link.selectForm width register := by
  unfold selectForm
  by_cases threeWire : link.mode = .threeWire
  · obtain ⟨chunks, tagged, clocked⟩ := clockedIn_of_isPhase threeWire phase
    rw [if_pos threeWire, threeWire, clocked, Encoder.flatten_tag tagged]
    rfl
  · rw [if_neg threeWire]
    exact (onWire_of_isPhase threeWire phase).clocked

/-- Over three wires a register number of one byte is one nine-bit word, or one padded group. -/
theorem selectForm_threeWire {link : Link} (threeWire : link.mode = .threeWire) (register : Nat) :
    link.selectForm .bits8 register =
      if link.mask.contains .bits9 then [⟨9, register % 256⟩]
      else (List.replicate 8 0 ++ [register % 256]).map (⟨8, ·⟩) := by
  have small : register % 256 < 256 := Nat.mod_lt _ (by decide)
  have tagged : NineBit.wordsFor .command (registerWord register .bits8) = [register % 256] :=
    congrArg (fun byte => [byte]) (Nat.mod_eq_of_lt small)
  unfold selectForm wireForm
  rw [if_pos threeWire, tagged]
  by_cases native : link.mask.contains .bits9 = true
  · rw [if_pos native, if_pos native, if_pos native]
    rfl
  · rw [if_neg native, if_neg native, if_neg native]
    exact congrArg (List.map _) (NineBit.pack_padded_command small)

variable {link} {width : Width} {register : Nat} {select : Segment}

/-- Over three wires the segment holds the low byte of the register number, at any default width. -/
theorem clocked_selectSegment_threeWire (threeWire : link.mode = .threeWire)
    (selected : link.selectSegment width register = .ok select) :
    select.clocked = link.selectForm .bits8 register := by
  rw [selectForm_threeWire threeWire]
  unfold selectSegment at selected
  rw [if_pos threeWire] at selected
  by_cases native : link.mask.contains .bits9 = true
  · rw [if_pos native] at selected ⊢
    cases selected
    have small : register % 256 % 65536 = register % 256 := by omega
    exact congrArg (fun value => [(⟨9, value⟩ : ClockedWord)]) small
  · rw [if_neg native] at selected ⊢
    cases selected
    rfl

/-- **The segment that selects a register** for reading holds the words that select it for writing. -/
theorem clocked_selectSegment (bytes : link.mask.contains .bits8 = true)
    (bytewise : ¬(link.mode = .threeWire ∧ width = .bits16)) (readable : width = .bits8 ∨ width = .bits16)
    (selected : link.selectSegment width register = .ok select) :
    select.clocked = link.selectForm width register := by
  by_cases threeWire : link.mode = .threeWire
  · rcases readable with rfl | rfl
    · exact clocked_selectSegment_threeWire threeWire selected
    · exact absurd ⟨threeWire, rfl⟩ bytewise
  · unfold selectSegment at selected
    unfold selectForm wireForm
    rw [if_neg threeWire] at selected ⊢
    rcases readable with rfl | rfl
    · cases selected
      rw [if_pos bytes]
      rfl
    · dsimp only at selected
      by_cases native : link.mask.contains .bits16 = true
      · rw [if_pos native] at selected ⊢
        cases selected
        rfl
      · rw [if_neg native] at selected ⊢
        cases selected
        have kept : (Words.ofList .byte (bigEndian 2 register)).values = bigEndian 2 register :=
          (List.map_congr_left fun byte member =>
            Element.truncate_of_lt (lt_of_mem_bigEndian member)).trans (List.map_id _)
        have form : byteForm .bits16 (registerWord register .bits16).values = bigEndian 2 register :=
          (List.append_nil _).trans (bigEndian_two_mod register)
        rw [form]
        exact congrArg (List.map _) kept

/-! ### The two phases -/

variable (link) (context : Context)

/-- The script that selects a register for writing. -/
def selecting (register : Nat) : Script AccessError :=
  link.phaseScript .command (context.writeClock .command link.clock)
    (registerWord register context.width) context.width link.selectPlaces

variable {link context}

/-- A phase that is not refused shows the events of a phase. -/
theorem isPhase_of_verdict {selector : Selector} {clock : Option Nat} {words : Words}
    {width : Width} {places : Places}
    (succeeds : (link.phaseScript selector clock words width places).verdict = .ok ()) :
    link.IsPhase selector words width (link.phaseScript selector clock words width places).events := by
  replace succeeds : (link.encoder.phase link.mode selector words width places).map (fun _ => ()) =
      .ok () := succeeds
  cases encoded : link.encoder.phase link.mode selector words width places with
  | error error =>
    rw [encoded] at succeeds
    cases succeeds
  | ok blocks =>
    have line : (link.selectorMoves selector).map Move.event =
        if link.mode = .threeWire then [] else link.selectorLine.driven selector.isData := by
      unfold selectorMoves
      split
      · rfl
      · cases link.selectorLine <;> rfl
    have block (block : Block) :
        ((link.outgoing selector clock block).flatMap link.messageMoves).map Move.event =
          link.blockEvents selector clock block := by
      rw [List.map_flatMap, outgoing, List.flatMap_map]
      exact List.flatMap_congr fun slices _ => link.map_event_messageMoves _
    refine ⟨clock, places, blocks, encoded, ?_⟩
    rw [Script.events, phaseScript, planned, encoded, List.map_append, line, List.flatMap_assoc,
      List.map_flatMap]
    exact congrArg _ (List.flatMap_congr fun item _ => block item)

/-- Without a payload a write is the script that selects its register. -/
theorem run_write_none (register : Nat) (succeeds : (link.selecting context register).verdict = .ok ())
    {bench : Bench} (faultless : bench.Faultless link.canMap) :
    ∃ after, (link.write context register none).run.run bench = (.ok (), after) ∧
      after.log = (link.selecting context register).events.reverse ++ bench.log := by
  obtain ⟨after, ran, tried⟩ := Script.run_of_accepts AccessError.linkFailed
    (link.selecting context register)
    (faultless.accepts fun event member => link.canMap_of_mem_phaseScript member)
  rw [succeeds, selecting, ← sendPhase_eq_play] at ran
  refine ⟨after, ?_, tried.log⟩
  unfold write selectRegister
  rw [run_bind_ok ran]
  rfl

/-- A read that obtains elements has a plan that succeeds, and it shows the events of its plan. -/
theorem plan_of_complete {register : Nat} {request : ReadRequest} {bench after : Bench}
    {values : List Nat} (faultless : bench.Faultless link.canMap)
    (ran : (link.read context register request).run bench = (.complete values, after)) :
    ∃ plan, link.readPlan context register request = .ok plan ∧ plan.lead.verdict = .ok () ∧
      after.log = plan.events.reverse ++ bench.log := by
  rw [read_eq] at ran
  cases planned : link.readPlan context register request with
  | error error =>
    rw [planned] at ran
    cases ran
  | ok plan =>
    obtain ⟨outcome, last, carried, verdict, tried⟩ := plan.run_of_accepts
      (faultless.accepts fun event member => canMap_of_mem_readPlan planned member)
    rw [planned] at ran
    dsimp only at ran
    rw [ReadPlan.run_read carried] at ran
    cases outcome with
    | error error => cases ran
    | ok obtained =>
      cases ran
      exact ⟨plan, rfl, verdict.symm, tried.log⟩

/-- The stretch that receives the elements clocks nothing out. -/
theorem clocked_stretch (request : ReadRequest) (width : Width) :
    (link.stretch request width).clocked = [] := by
  unfold stretch
  split <;> rfl

end Link

/-! ### Reads and writes side by side -/

/-- **A read that selects its register as a write without a payload does.** -/
structure Mode.SelectsAlike (mode : Mode) (reading writing : List Event) : Prop where
  /-- All words that the read clocks out, beside bytes that open messages, are those of the write, each
  with as many bits. -/
  clocked : mode.clockedIn reading = mode.clockedIn writing
  /-- Where a byte opens each message, the messages of the write come first as they are, and one more
  message opens with a byte for reading and receives. -/
  opened : ∀ layout, mode = .opened layout → ∃ opening receiving selector,
    messagesIn reading = messagesIn writing ++ [[opening, receiving]] ∧
      opening.clocked = [⟨8, layout.value selector true⟩] ∧ receiving.clocked = []

namespace Link

variable {link : Link} {context : Context} {register : Nat} {request : ReadRequest}

/-- The messages of a plain read: one for each phase, or one for both. -/
theorem messagesIn_plainRead (width : Width) (select : Segment) :
    messagesIn (link.plainRead request width select).events =
      match request.selector with
      | .command => [[select, link.stretch request width]]
      | .data => [[{ select with changesSelect := true }], [link.stretch request width]] := by
  have quiet (selector : Selector) : messagesIn ((link.lineMoves selector).map Move.event) = [] := by
    unfold lineMoves
    cases link.selectorLine.line? <;> rfl
  have turn (message : List Segment) (moves : List Move) :
      messagesIn ((Move.transfer message [] :: moves).map Move.event) =
        message :: messagesIn (moves.map Move.event) := rfl
  unfold ReadPlan.events ReadPlan.last plainRead selectMoves Script.events
  rw [messagesIn_append, List.map_append, messagesIn_append, quiet, List.nil_append]
  cases request.selector with
  | command => rfl
  | data =>
    dsimp only
    rw [turn, quiet]
    rfl

/-- A plain read clocks out its selecting segment and nothing else. -/
theorem clockedIn_plainRead (direct : link.mode.opening? = none) (width : Width) (select : Segment) :
    link.mode.clockedIn (link.plainRead request width select).events = select.clocked := by
  have whole (message : List Segment) : link.mode.payload message = message := by
    rw [Mode.payload, direct]
    rfl
  have still : ({ select with changesSelect := true } : Segment).clocked = select.clocked := rfl
  unfold Mode.clockedIn
  rw [messagesIn_plainRead, funext whole]
  cases request.selector <;> simp only [List.flatMap_cons, List.flatMap_nil, List.append_nil,
    clocked_stretch, still]

/-- A plain read that has a plan clocks out the segment that selects its register. -/
theorem clockedIn_of_plainPlan (direct : link.mode.opening? = none) {plan : ReadPlan}
    (planned : link.plainPlan context register request = .ok plan) :
    ∃ select, link.selectSegment context.width register = .ok select ∧
      link.mode.clockedIn plan.events = select.clocked := by
  obtain ⟨-, -, select, selected, rfl⟩ := plainPlan_eq_ok.mp planned
  exact ⟨select, selected, clockedIn_plainRead direct _ select⟩

/-- A register number that is not 16 bits over three wires can be carried. -/
theorem carries_register (checked : NineBit.groupBytes ≤ link.config.scratchLength)
    (bytes : link.mask.contains .bits8 = true) {width : Width}
    (bytewise : ¬(link.mode = .threeWire ∧ width = .bits16))
    (readable : width = .bits8 ∨ width = .bits16) : link.encoder.Carries link.mode width 1 := by
  have line : link.mask.contains width = true ∨ Encoder.Repackable width 1 :=
    by
    rcases readable with rfl | rfl
    · exact Or.inl bytes
    · exact Or.inr (Or.inl rfl)
  cases mode : link.mode with
  | fourWire => exact line
  | opened layout => exact line
  | threeWire =>
    have eight : width = .bits8 := readable.resolve_right fun sixteen => bytewise ⟨mode, sixteen⟩
    have group : (1 + 7) / 8 * 8 ≤ link.config.scratchLength := Nat.le_of_lt checked
    exact ⟨Or.inl eight, Or.inr (Or.inl ⟨eight, Or.inr group⟩)⟩

/-- Without opening bytes a read clocks out what selects its register for writing, and that is not
refused. -/
theorem selects_of_plainPlan (direct : link.mode.opening? = none)
    (checked : NineBit.groupBytes ≤ link.config.scratchLength)
    (bytes : link.mask.contains .bits8 = true)
    (bytewise : ¬(link.mode = .threeWire ∧ context.width = .bits16))
    (room : link.encoder.HasRoom link.mode context.width) {plan : ReadPlan}
    (planned : link.plainPlan context register request = .ok plan) :
    (link.selecting context register).verdict = .ok () ∧
      link.mode.SelectsAlike plan.events (link.selecting context register).events := by
  obtain ⟨-, readable, -⟩ := plainPlan_eq_ok.mp planned
  obtain ⟨select, selected, clocked⟩ := clockedIn_of_plainPlan direct planned
  have sends : link.Sends context.width 1 := ⟨carries_register checked bytes bytewise readable, room⟩
  have fits : (registerWord register context.width).element = context.width.element := rfl
  have succeeds : (link.selecting context register).verdict = .ok () :=
    verdict_of_sends fits sends _ _ _
  have written : link.mode.clockedIn (link.selecting context register).events =
      link.selectForm context.width register := clockedIn_select (isPhase_of_verdict succeeds)
  refine ⟨succeeds, ?_, fun layout opened => ?_⟩
  · rw [clocked, written]
    exact clocked_selectSegment bytes bytewise readable selected
  · rw [opened] at direct
    cases direct

/-- Where a byte opens each message, a read begins with the phase that selects its register for
writing. -/
theorem selects_of_openedPlan {layout : OpeningByte} (opened : link.mode = .opened layout)
    {plan : ReadPlan} (planned : link.openedPlan layout context register request = .ok plan)
    (succeeds : plan.lead.verdict = .ok ()) :
    (link.selecting context register).verdict = .ok () ∧
      link.mode.SelectsAlike plan.events (link.selecting context register).events := by
  obtain ⟨-, -, rfl⟩ := openedPlan_eq_ok.mp planned
  have messages : messagesIn (link.openedRead layout context register request).events =
      messagesIn (link.selecting context register).events ++
        [(link.openedRead layout context register request).last] := by
    rw [ReadPlan.events, succeeds, messagesIn_append]
    rfl
  refine ⟨succeeds, ?_, fun other same => ?_⟩
  · have last : link.mode.payload (link.openedRead layout context register request).last =
        [(link.openedRead layout context register request).receiving] := by
      rw [opened]
      rfl
    rw [Mode.clockedIn, messages, List.flatMap_append, List.flatMap_singleton, last]
    exact List.append_nil _
  · obtain rfl : layout = other := Mode.opened.inj (opened.symm.trans same)
    exact ⟨_, _, request.selector, messages,
      clocked_opening layout request.selector true _, rfl⟩

end Link

/-- **A read selects its register as a write does.** Over any link that can be created, a read that is
accepted and meets no fault clocks out, message openings apart, exactly the words of a write of its
register without a payload, which is not refused either; with opening bytes it begins with the very
messages of that write. Register numbers of 16 bits over three wires are left out: a write splits them
into two words. -/
theorem selects_as_write {advertised : Advertised} {layout : Layout} {mode : Mode}
    {selectorLine reset : Connection} {config : Config} {link : Link}
    (created : Link.create advertised layout mode selectorLine reset config = .ok link) {context : Context}
    (bytewise : ¬(mode = .threeWire ∧ context.width = .bits16))
    (room : link.encoder.HasRoom mode context.width) (register : Nat) (request : ReadRequest)
    {bench after other : Bench} {values : List Nat} (faultless : bench.Faultless link.canMap)
    (otherFaultless : other.Faultless link.canMap)
    (ran : (link.read context register request).run bench = (.complete values, after)) :
    ∃ reading writing afterWrite, after.log = reading.reverse ++ bench.log ∧
      (link.write context register none).run.run other = (.ok (), afterWrite) ∧
      afterWrite.log = writing.reverse ++ other.log ∧ mode.SelectsAlike reading writing := by
  obtain ⟨rfl, -, scratch, bytes⟩ := Link.checked_of_create created
  obtain ⟨plan, planned, succeeds, log⟩ := Link.plan_of_complete faultless ran
  have selects : (link.selecting context register).verdict = .ok () ∧
      link.mode.SelectsAlike plan.events (link.selecting context register).events := by
    unfold Link.readPlan at planned
    cases mode : link.mode with
    | opened layout =>
      rw [mode] at planned
      rw [← mode]
      exact Link.selects_of_openedPlan mode planned succeeds
    | _ =>
      have direct : link.mode.opening? = none := by
        rw [mode]
        rfl
      rw [mode] at planned
      rw [← mode]
      exact Link.selects_of_plainPlan direct scratch bytes bytewise room planned
  obtain ⟨afterWrite, written, writeLog⟩ := Link.run_write_none register selects.1 otherFaultless
  exact ⟨plan.events, _, afterWrite, log, written, writeLog, selects.2⟩

/-- Register 218 read over a 3-wire link whose nine-bit words are packed: the padded group of a write. -/
theorem selects_as_write_packed :
    let link := threeWireLink .bytesOnly
    let context : Context := { width := .bits8, deviations := ⟨0⟩ }
    let read := (link.read context 218 { element := .byte, count := 1 }).run { incoming := [66] }
    Link.create { clock := 8000000, mask := .bytesOnly, canMap := false } .paged .threeWire .absent
        .absent { segmentLimit := 4, scratchLength := 9 } = .ok link ∧
      ¬(Mode.threeWire = .threeWire ∧ context.width = .bits16) ∧
      link.encoder.HasRoom .threeWire .bits8 ∧ read.1 = .complete [66] ∧
      ∃ reading writing afterWrite, read.2.log = reading.reverse ++ [] ∧
        (link.write context 218 none).run.run {} = (.ok (), afterWrite) ∧
        afterWrite.log = writing.reverse ++ [] ∧
        Mode.threeWire.SelectsAlike reading writing := by
  intro link context read
  have created : Link.create { clock := 8000000, mask := .bytesOnly, canMap := false } .paged .threeWire
      .absent .absent { segmentLimit := 4, scratchLength := 9 } = .ok link := rfl
  have bytewise : ¬(Mode.threeWire = .threeWire ∧ context.width = .bits16) := by decide
  have room : link.encoder.HasRoom .threeWire .bits8 := Or.inr (by decide)
  have faultless : ({ incoming := [66] } : Bench).Faultless link.canMap :=
    (Bench.faultless_empty _).congr rfl rfl rfl fun name => by cases name <;> rfl
  have complete : read.1 = .complete [66] :=
    Reading.eq_complete (by decide +kernel) (by decide +kernel)
  refine ⟨created, bytewise, room, complete, ?_⟩
  exact selects_as_write created bytewise room 218 _ faultless (Bench.faultless_empty _)
    (Prod.ext complete rfl)

/-! ### Register numbers of 16 bits over three wires -/

/-- **A 3-wire read sends the low byte of its register number alone**, whatever the default width. -/
theorem selects_low_byte {link : Link} (threeWire : link.mode = .threeWire) {context : Context}
    (register : Nat) (request : ReadRequest) {bench after : Bench} {values : List Nat}
    (faultless : bench.Faultless link.canMap)
    (ran : (link.read context register request).run bench = (.complete values, after)) :
    ∃ reading, after.log = reading.reverse ++ bench.log ∧
      link.mode.clockedIn reading = link.selectForm .bits8 register := by
  obtain ⟨plan, planned, -, log⟩ := Link.plan_of_complete faultless ran
  have direct : link.mode.opening? = none := by
    rw [threeWire]
    rfl
  unfold Link.readPlan at planned
  rw [threeWire] at planned
  obtain ⟨select, selected, clocked⟩ := Link.clockedIn_of_plainPlan direct planned
  exact ⟨plan.events, log, clocked.trans (Link.clocked_selectSegment_threeWire threeWire selected)⟩

/-- **A register number of two bytes is selected differently.** Over three wires with nine-bit words a
write sends both bytes of register 4660 and a read the low one. Where the words are packed a write of
the two is refused, and a read is not. -/
theorem halfRegister_selects_apart :
    let native := threeWireLink (.ofWidths [.bits8, .bits9])
    let packed := threeWireLink .bytesOnly
    let context : Context := { width := .bits16, deviations := ⟨0⟩ }
    let bench : Bench := { incoming := [86, 120] }
    let read (link : Link) := (link.read context 4660 { element := .half, count := 1 }).run bench
    let write (link : Link) := (link.write context 4660 none).run.run {}
    (∀ link ∈ [native, packed],
      Link.create { clock := 8000000, mask := link.mask, canMap := false } .paged .threeWire .absent
        .absent { segmentLimit := 4, scratchLength := 9 } = .ok link) ∧
      bench.Faultless false ∧
      (read native).1 = .complete [22136] ∧ (write native).1 = .ok () ∧
      native.mode.clockedIn (read native).2.log.reverse = [⟨9, 52⟩] ∧
      native.mode.clockedIn (write native).2.log.reverse = [⟨9, 18⟩, ⟨9, 52⟩] ∧
      ¬native.mode.SelectsAlike (read native).2.log.reverse (write native).2.log.reverse ∧
      (read packed).1 = .complete [22136] ∧
      (write packed).1 = .error (.invalidArgument .incompleteNineBitGroup) := by
  intro native packed context bench read write
  have readClocked : native.mode.clockedIn (read native).2.log.reverse = [⟨9, 52⟩] := by
    decide +kernel
  have writeClocked : native.mode.clockedIn (write native).2.log.reverse = [⟨9, 18⟩, ⟨9, 52⟩] := by
    decide +kernel
  have nativeCreated : Link.create
      { clock := 8000000, mask := .ofWidths [.bits8, .bits9], canMap := false } .paged .threeWire
      .absent .absent { segmentLimit := 4, scratchLength := 9 } = .ok native := rfl
  have packedCreated : Link.create { clock := 8000000, mask := .bytesOnly, canMap := false } .paged
      .threeWire .absent .absent { segmentLimit := 4, scratchLength := 9 } = .ok packed := rfl
  refine ⟨List.forall_mem_cons.mpr ⟨nativeCreated, List.forall_mem_singleton.mpr packedCreated⟩, ?_,
    Reading.eq_complete (by decide +kernel) (by decide +kernel),
    by decide +kernel, readClocked, writeClocked, ?_,
    Reading.eq_complete (by decide +kernel) (by decide +kernel), by decide +kernel⟩
  · exact (Bench.faultless_empty _).congr rfl rfl rfl fun name => by cases name <;> rfl
  · intro alike
    have same := alike.clocked
    rw [readClocked, writeClocked] at same
    cases same

end Spi

end PanelLink
