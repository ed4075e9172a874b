/-
**The script of a write.**

The moves of a write follow from the link, the settings and the request alone.

* `Outgoing`: a message on its way: its phase, the block that it takes its slices from, and the slices;
* `Link.planned`: the messages of a phase, in order;
* `Link.messageMoves`: one message with the mappings around it;
* `Link.sendPhase_eq_play`, **`RegisterBank.write_eq_play`**: a phase and a write are their scripts;
* **`Panel.updateWindow_eq_play`**: so is the update of a window, over its three writes.
-/

import PanelLink.Display.Panel
import PanelLink.Proofs.Spi.Moves
import PanelLink.Proofs.Spi.WireForm

namespace PanelLink

/-! ### Actions for each item -/

theorem forM_flatMap {m : Type → Type} [Monad m] [LawfulMonad m] {α β : Type} (items : List α)
    (parts : α → List β) (action : β → m PUnit) :
    (items.flatMap parts).forM action = items.forM fun item => (parts item).forM action := by
  induction items with
  | nil => rfl
  | cons item items ih =>
    have joined : (parts item ++ items.flatMap parts).forM action =
        (parts item).forM action >>= fun _ => (items.flatMap parts).forM action :=
      List.forM_append
    rw [List.flatMap_cons, joined, ih]
    rfl

namespace Spi

variable {ε ε' : Type}

/-! ### One message -/

/-- A message on its way. -/
structure Outgoing where
  /-- The selector of its phase. -/
  selector : Selector
  clock : Option Nat
  /-- The words handed over in one go, of which the message takes some. -/
  block : Block
  /-- The slices of the block that are the segments of the message. -/
  slices : List Slice

/-- Mappings made one after the other; each of them, if it is refused, lets go of those before. -/
def mapMoves (handleOf : Slice → Handle) : List Handle → List Slice → List Move
  | _, [] => []
  | held, slice :: rest =>
    .map slice (handleOf slice) held :: mapMoves handleOf (handleOf slice :: held) rest

theorem map_event_mapMoves (handleOf : Slice → Handle) (held : List Handle) (slices : List Slice) :
    (mapMoves handleOf held slices).map Move.event =
      slices.map fun slice => .mapped slice (some (handleOf slice)) := by
  induction slices generalizing held with
  | nil => rfl
  | cons slice rest ih =>
    exact congrArg (Event.mapped slice (some (handleOf slice)) :: ·) (ih (handleOf slice :: held))

namespace Link

variable (link : Link)

/-- The segments of a message. -/
def segments (outgoing : Outgoing) : List Segment :=
  (link.opening outgoing.selector false outgoing.clock).toList ++ outgoing.slices.map fun slice =>
    { payload := .transmit slice.words
      bits := outgoing.block.bits
      clock := outgoing.clock
      mapping :=
        if link.mapsBlock outgoing.selector outgoing.block then some (link.handleOf slice) else none }

/-- The handles of the mappings of a message, if it is mapped. -/
def handles (outgoing : Outgoing) : List Handle :=
  outgoing.slices.map link.handleOf

/-- A message with its mappings made before it and released after it, the latest first. -/
def messageMoves (outgoing : Outgoing) : List Move :=
  if link.mapsBlock outgoing.selector outgoing.block then
    mapMoves link.handleOf [] outgoing.slices ++
      .transfer (link.segments outgoing) (link.handles outgoing).reverse ::
        (link.handles outgoing).reverse.map .release
  else [.transfer (link.segments outgoing) []]

end Link

/-- What follows mappings that were all made is done with the mappings held. -/
theorem mapBuffers_bind_eq (handleOf : Slice → Handle)
    {finish : List Handle × Bool → ExceptT AccessError BenchM Unit}
    (fails : ∀ held, finish (held, false) = abandon held (.linkFailed .dmaMapping))
    (held : List Handle) (slices : List Slice) :
    (ExceptT.lift (mapBuffers handleOf held slices) >>= finish : ExceptT AccessError BenchM Unit) =
      (mapMoves handleOf held slices).forM (Move.perform .linkFailed) >>= fun _ =>
        finish ((slices.map handleOf).reverse ++ held, true) := by
  induction slices generalizing held with
  | nil => rfl
  | cons slice rest ih =>
    rw [List.map_cons, List.reverse_cons, List.append_assoc, List.singleton_append]
    show _ = (Move.perform _ _ >>= fun _ =>
      (mapMoves handleOf (handleOf slice :: held) rest).forM _) >>= _
    rw [bind_assoc, ← ih (handleOf slice :: held)]
    refine ExceptT.ext (StateT.ext fun bench => ?_)
    have same : mapBuffer (fun _ => handleOf slice) slice = mapBuffer handleOf slice := rfl
    rw [run_lift_bind, run_mapBuffers_cons, Move.perform, bind_assoc, run_lift_bind, same]
    cases mapped : (mapBuffer handleOf slice).run.run bench with
    | mk outcome middle =>
      cases outcome with
      | error failure =>
        show (finish (held, false)).run.run middle = _
        rw [fails]
        obtain ⟨after, abandoned, -⟩ := run_abandon held (AccessError.linkFailed .dmaMapping) middle
        rw [abandoned]
        exact (run_bind_error abandoned).symm
      | ok handle =>
        obtain ⟨rfl, -⟩ := log_mapBuffer handleOf mapped
        rfl

/-- A message without mappings. -/
theorem exchange_eq (segments : List Segment) :
    (((exchange segments).adapt fun _ => AccessError.linkFailed .bus) >>= fun _ => pure ()) =
      [Move.transfer segments []].forM (Move.perform AccessError.linkFailed) := by
  refine ExceptT.ext (StateT.ext fun bench => ?_)
  show _ = ((Move.perform _ _ >>= fun _ => pure ()) : ExceptT AccessError BenchM Unit).run.run bench
  rw [ExceptT.run_bind, StateT.run_bind, ExceptT.run_adapt, StateT.run_map, Move.perform,
    bind_assoc, run_lift_bind]
  rcases (exchange segments).run.run bench with ⟨failure | received, after⟩ <;> rfl

/-- A message after which mappings are released, whether or not it went out. -/
theorem exchange_release_eq (segments : List Segment) (held : List Handle) :
    (ExceptT.lift (exchange segments).run >>= fun sent =>
      (held.forM fun handle => ExceptT.lift (unmapBuffer handle)) >>= fun _ =>
        match sent with
        | .error _ => throw (AccessError.linkFailed .bus)
        | _ => pure ()) =
      (Move.transfer segments held :: held.map .release).forM
        (Move.perform AccessError.linkFailed) := by
  have releases : (held.map Move.release).forM (Move.perform AccessError.linkFailed) =
      held.forM fun handle => ExceptT.lift (unmapBuffer handle) := List.forM_map
  show _ = Move.perform _ _ >>= fun _ => (held.map Move.release).forM _
  rw [releases, Move.perform, bind_assoc]
  refine bind_congr fun sent => ?_
  cases sent with
  | error failure =>
    show _ = abandon held _ >>= _
    unfold abandon
    rw [bind_assoc]
    rfl
  | ok received => exact bind_pure _

namespace Link

variable (link : Link)

/-- **A message** is its moves. -/
theorem sendMessage_eq (outgoing : Outgoing) :
    sendMessage link.handleOf (link.opening outgoing.selector false outgoing.clock)
        (fun words =>
          { payload := .transmit words, bits := outgoing.block.bits, clock := outgoing.clock })
        (link.mapsBlock outgoing.selector outgoing.block) outgoing.slices =
      (link.messageMoves outgoing).forM (Move.perform .linkFailed) := by
  unfold messageMoves segments
  cases link.mapsBlock outgoing.selector outgoing.block with
  | false => exact exchange_eq _
  | true =>
    have joined (first later : List Move) :
        (first ++ later).forM (Move.perform AccessError.linkFailed) =
          first.forM (Move.perform .linkFailed) >>= fun _ => later.forM (Move.perform .linkFailed) :=
      List.forM_append
    rw [if_pos rfl, joined]
    refine (mapBuffers_bind_eq link.handleOf (fun held => rfl) [] outgoing.slices).trans
      (bind_congr fun _ => ?_)
    dsimp only
    rw [List.append_nil, List.reverse_reverse, mappedSegments_map]
    exact exchange_release_eq _ _

/-! ### One phase -/

/-- The messages of a block, in order. -/
def outgoing (selector : Selector) (clock : Option Nat) (block : Block) : List Outgoing :=
  (link.cutter.messages (link.opening selector false clock).isSome block).map
    ({ selector, clock, block, slices := · })

theorem sendBlock_eq (selector : Selector) (clock : Option Nat) (block : Block) :
    link.sendBlock selector clock block =
      ((link.outgoing selector clock block).flatMap link.messageMoves).forM
        (Move.perform .linkFailed) := by
  rw [forM_flatMap, outgoing]
  have each : ((link.cutter.messages (link.opening selector false clock).isSome block).map
      ({ selector, clock, block, slices := · } : List Slice → Outgoing)).forM
        (fun sent => (link.messageMoves sent).forM (Move.perform AccessError.linkFailed)) =
      (link.cutter.messages (link.opening selector false clock).isSome block).forM fun slices =>
        (link.messageMoves { selector, clock, block, slices }).forM (Move.perform .linkFailed) :=
    List.forM_map
  rw [each]
  exact congrArg _ (funext fun slices => link.sendMessage_eq { selector, clock, block, slices })

/-- **The messages of a phase**, in order; a phase that is refused has none. -/
def planned (selector : Selector) (clock : Option Nat) (words : Words) (width : Width)
    (places : Places) : List Outgoing :=
  match link.encoder.phase link.mode selector words width places with
  | .ok blocks => blocks.flatMap (link.outgoing selector clock)
  | .error _ => []

/-- The move of the selector line, if a phase has one. -/
def selectorMoves (selector : Selector) : List Move :=
  if link.mode = .threeWire then []
  else match link.selectorLine.line? with
    | some name => [.drive name selector.isData]
    | none => []

theorem driveSelector_eq (selector : Selector) :
    (if link.mode = .threeWire then pure () else link.driveSelector selector) =
      (link.selectorMoves selector).forM (Move.perform .linkFailed) := by
  unfold selectorMoves driveSelector
  by_cases threeWire : link.mode = .threeWire
  · rw [if_pos threeWire, if_pos threeWire]
    rfl
  · rw [if_neg threeWire, if_neg threeWire]
    cases link.selectorLine with
    | absent => rfl
    | unconnected => rfl
    | line name => exact (bind_pure _).symm

/-- **The script of a phase.** -/
def phaseScript (selector : Selector) (clock : Option Nat) (words : Words) (width : Width)
    (places : Places) : Script AccessError where
  moves := link.selectorMoves selector ++
    (link.planned selector clock words width places).flatMap link.messageMoves
  verdict :=
    (link.encoder.phase link.mode selector words width places).map fun _ => ()

/-- **A phase** is its script. -/
theorem sendPhase_eq_play (selector : Selector) (clock : Option Nat) (words : Words)
    (width : Width) (places : Places) :
    link.sendPhase selector clock words width places =
      (link.phaseScript selector clock words width places).play .linkFailed := by
  have joined (first later : List Move) :
      (first ++ later).forM (Move.perform AccessError.linkFailed) =
        first.forM (Move.perform .linkFailed) >>= fun _ => later.forM (Move.perform .linkFailed) :=
    List.forM_append
  rw [sendPhase_eq, driveSelector_eq, Script.play, phaseScript, planned, joined, bind_assoc]
  refine bind_congr fun _ => ?_
  cases link.encoder.phase link.mode selector words width places with
  | error error => rfl
  | ok blocks =>
    have sent : blocks.forM (link.sendBlock selector clock) =
        ((blocks.flatMap (link.outgoing selector clock)).flatMap link.messageMoves).forM
          (Move.perform .linkFailed) := by
      rw [List.flatMap_assoc, forM_flatMap]
      exact congrArg _ (funext fun block => link.sendBlock_eq selector clock block)
    show _ = _ >>= fun _ => pure ()
    rw [← sent]
    exact (bind_pure _).symm

/-- What a message asks for: mappings are made only if the controller has them. -/
theorem canMap_of_mem_messageMoves {sent : Outgoing} {move : Move}
    (member : move ∈ link.messageMoves sent) (maps : move.event.triesMapping = true) :
    link.canMap = true := by
  unfold messageMoves at member
  split at member
  · rename_i mapped
    simp only [mapsBlock, Bool.and_eq_true] at mapped
    exact mapped.1.2
  · cases List.mem_singleton.mp member
    cases maps

theorem canMap_of_mem_phaseScript {selector : Selector} {clock : Option Nat} {words : Words}
    {width : Width} {places : Places} {event : Event}
    (member : event ∈ (link.phaseScript selector clock words width places).events)
    (maps : event.triesMapping = true) : link.canMap = true := by
  obtain ⟨move, inMoves, rfl⟩ := List.mem_map.mp member
  rcases List.mem_append.mp inMoves with lead | sent
  · unfold selectorMoves at lead
    split at lead
    · cases lead
    · split at lead
      · cases List.mem_singleton.mp lead
        cases maps
      · cases lead
  · obtain ⟨outgoing, -, inMessage⟩ := List.mem_flatMap.mp sent
    exact link.canMap_of_mem_messageMoves inMessage maps

end Link

end Spi

/-! ### One write -/

/-- **The script of a write** through a bank. -/
def Spi.Link.writeScript (link : Spi.Link) (settings : BankSettings) (register : Nat)
    (request : Option WriteRequest) : Spi.Script AccessError :=
  let bank : RegisterBank BenchM := { channel := link.channel, config := settings }
  let phase (selector : Selector) (words : Words) (width : Width) (places : Spi.Places) :=
    link.phaseScript selector (bank.context.writeClock selector link.clock) words width places
  match bank.resolve request with
  | .error error => .settled (.error error)
  | .ok resolved =>
    (phase .command (registerWord register settings.width) settings.width link.selectPlaces).andThen <|
      match WriteRequest.nonempty? resolved with
      | some present =>
        phase present.selector present.words (present.effectiveWidth settings.width)
          (link.payloadPlaces present)
      | none => .settled (.ok ())

/-- **A write is its script.** -/
theorem RegisterBank.write_eq_play (link : Spi.Link) (settings : BankSettings) (register : Nat)
    (request : Option WriteRequest) :
    RegisterBank.write ⟨link.channel, settings⟩ register request =
      (link.writeScript settings register request).play .linkFailed := by
  unfold RegisterBank.write Spi.Link.writeScript
  dsimp only
  cases (RegisterBank.mk link.channel settings).resolve request with
  | error error => rfl
  | ok resolved =>
    rw [Spi.Script.play_andThen]
    show link.write _ register resolved = _
    unfold Spi.Link.write Spi.Link.selectRegister
    rw [Spi.Link.sendPhase_eq_play]
    refine bind_congr fun _ => ?_
    cases WriteRequest.nonempty? resolved with
    | none => rfl
    | some present => exact link.sendPhase_eq_play _ _ _ _ _

/-- A write asks for mappings only if the controller has them. -/
theorem Spi.Link.canMap_of_mem_writeScript (link : Spi.Link) {settings : BankSettings}
    {register : Nat} {request : Option WriteRequest} {event : Event}
    (member : event ∈ (link.writeScript settings register request).events)
    (maps : event.triesMapping = true) : link.canMap = true := by
  unfold writeScript at member
  dsimp only at member
  split at member
  · cases member
  · rcases Spi.Script.mem_events_andThen member with selecting | sending
    · exact link.canMap_of_mem_phaseScript selecting maps
    · split at sending
      · exact link.canMap_of_mem_phaseScript sending maps
      · cases sending

/-! ### One update of a window -/

/-- The script of a write of plain numbers. -/
def Spi.Link.numbersScript (link : Spi.Link) (settings : BankSettings) (address register : Nat)
    (numbers : List Nat) : Spi.Script AccessError :=
  if maxNumbers < numbers.length then .settled (.error .resourceExhausted)
  else
    let width := if settings.width.bits ≤ 8 then Width.bits8 else Width.bits16
    link.writeScript settings register
      (some { words := Words.ofList width.element numbers, width := some width, address })

theorem RegisterBank.writeNumbers_eq_play (link : Spi.Link) (settings : BankSettings)
    (address register : Nat) (numbers : List Nat) :
    RegisterBank.writeNumbers ⟨link.channel, settings⟩ address register numbers =
      (link.numbersScript settings address register numbers).play .linkFailed := by
  unfold RegisterBank.writeNumbers Spi.Link.numbersScript
  by_cases many : maxNumbers < numbers.length
  · rw [if_pos many, if_pos many]
    rfl
  · rw [if_neg many, if_neg many]
    exact RegisterBank.write_eq_play link settings register _

namespace Display

/-- The script of a range of lines written to a register. -/
def Frame.script (frame : Frame) (link : Spi.Link) (settings : BankSettings)
    (register first last : Nat) : Spi.Script DisplayError :=
  match frame.lineRange? first last with
  | .error error => .settled (.error error)
  | .ok words =>
    (link.writeScript settings register
      (some
        { words
          width := some frame.format.wireWidth
          address :=
            frame.address + first * frame.elementsPerLine * frame.format.element.bytes })).mapError
      .register

theorem Frame.send_eq_play (frame : Frame) (link : Spi.Link) (settings : BankSettings)
    (register first last : Nat) :
    frame.send ⟨link.channel, settings⟩ register first last =
      (frame.script link settings register first last).play (.register ∘ .linkFailed) := by
  unfold Frame.send Frame.script
  cases frame.lineRange? first last with
  | error error => rfl
  | ok words =>
    show ExceptT.adapt DisplayError.register (RegisterBank.write ⟨link.channel, settings⟩ _ _) = _
    rw [RegisterBank.write_eq_play, Spi.Script.adapt_play]

/-- **The script of an update**: the columns, the lines and then the pixels of a window. -/
def Panel.updateScript (panel : Panel) (link : Spi.Link) (settings : BankSettings)
    (staging : PanelRegister → Nat) (first last : Nat) : Spi.Script DisplayError :=
  if last < first ∨ panel.frame.rows ≤ last then .settled (.error (.invalidLineRange first last))
  else
    let bounds (register : PanelRegister) (low high : Nat) :=
      (link.numbersScript settings (staging register) register.number
        (boundBytes low ++ boundBytes high)).mapError DisplayError.register
    (bounds .columnAddress 0 (panel.frame.columns - 1)).andThen <|
      (bounds .pageAddress first last).andThen <|
        panel.frame.script link settings PanelRegister.memoryWrite.number first last

theorem Panel.writeRegister_eq_play (link : Spi.Link) (settings : BankSettings)
    (staging : PanelRegister → Nat) (register : PanelRegister) (numbers : List Nat) :
    writeRegister ⟨link.channel, settings⟩ staging register numbers =
      ((link.numbersScript settings (staging register) register.number numbers).mapError
        DisplayError.register).play (.register ∘ .linkFailed) := by
  rw [writeRegister, RegisterBank.writeNumbers_eq_play, Spi.Script.adapt_play]

/-- **An update is its script.** -/
theorem Panel.updateWindow_eq_play (panel : Panel) (link : Spi.Link) (settings : BankSettings)
    (staging : PanelRegister → Nat) (first last : Nat) :
    panel.updateWindow ⟨link.channel, settings⟩ staging first last =
      (panel.updateScript link settings staging first last).play (.register ∘ .linkFailed) := by
  unfold Panel.updateWindow Panel.updateScript
  by_cases invalid : last < first ∨ panel.frame.rows ≤ last
  · rw [if_pos invalid, if_pos invalid]
    rfl
  · rw [if_neg invalid, if_neg invalid, Spi.Script.play_andThen, Spi.Script.play_andThen,
      ← writeRegister_eq_play, ← writeRegister_eq_play, ← Frame.send_eq_play]

/-- An update asks for mappings only if the controller has them. -/
theorem Panel.canMap_of_mem_updateScript (panel : Panel) {link : Spi.Link}
    {settings : BankSettings} {staging : PanelRegister → Nat} {first last : Nat} {event : Event}
    (member : event ∈ (panel.updateScript link settings staging first last).events)
    (maps : event.triesMapping = true) : link.canMap = true := by
  have numbers {address register : Nat} {given : List Nat}
      (inNumbers : event ∈ (link.numbersScript settings address register given).events) :
      link.canMap = true := by
    unfold Spi.Link.numbersScript at inNumbers
    split at inNumbers
    · cases inNumbers
    · exact link.canMap_of_mem_writeScript inNumbers maps
  unfold updateScript at member
  split at member
  · cases member
  · rcases Spi.Script.mem_events_andThen member with columns | later
    · exact numbers columns
    · rcases Spi.Script.mem_events_andThen later with rows | pixels
      · exact numbers rows
      · unfold Frame.script at pixels
        split at pixels
        · cases pixels
        · exact link.canMap_of_mem_writeScript pixels maps

end Display

end PanelLink
