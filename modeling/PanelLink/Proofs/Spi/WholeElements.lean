/-
**Which messages hold whole elements.**

A message is one assertion of the chip select. Where it ends depends on the limits of the link and not
on the elements, so a message may end inside an element or a group of nine-bit words.

* `Mode.Whole`: a message holds whole units;
* `Link.MessagesAligned`: what the limits, the size of a phase and the place of its words have to
  satisfy;
* **`whole_planned_iff`**: the messages of a phase are whole exactly if they do;
* `messagesAligned_select`: they do for the phase that selects a register, and
  `messagesAligned_of_scratch_le`: for every phase if a scratch-full fits into a segment;
* **`whole_elements_iff`**: the messages of a write;
* `group_cut`: a write that succeeds and cuts a group of nine-bit words.
-/

import PanelLink.Proofs.Spi.BlockLengths
import PanelLink.Proofs.Spi.MessageBoundaries
import PanelLink.Proofs.Spi.WriteEnds

namespace PanelLink.Spi

/-- **A message holds whole units**; the byte that opens it is not counted. -/
def Mode.Whole (mode : Mode) (unit : Nat) (message : List Segment) : Prop :=
  unit ∣ ((mode.payload message).flatMap Segment.clocked).length

/-- Blocks of whole units are cut between units exactly if the longest of them is. -/
theorem Measured.dvd_iff {blocks : List Block} {element : Element} {start unit longest : Nat}
    (measured : Measured blocks element start unit longest) (cutter : Cutter) (opened : Bool) :
    (∀ block ∈ blocks, ∀ message ∈ cutter.messages opened block,
        unit ∣ (Cutter.wordsIn message).length) ↔
      cutter.Aligned element start opened unit longest := by
  have each {block : Block} (member : block ∈ blocks) :
      (∀ message ∈ cutter.messages opened block, unit ∣ (Cutter.wordsIn message).length) ↔
        cutter.Aligned element start opened unit block.words.length := by
    rw [Cutter.dvd_messages_iff cutter opened (measured.whole block member),
      measured.element block member, measured.address block member]
  refine ⟨fun whole => ?_, fun aligned block member => ?_⟩
  · -- Every cut in a block is a cut in the longest one, and there is such a block.
    obtain ⟨block, member, reaches⟩ := measured.attained
    rw [← reaches]
    exact (each member).mp (whole block member)
  · exact (each member).mpr (aligned.mono (measured.bound block member))

namespace Link

variable (link : Link)

/-- **The limits of a link suit a phase** of so many elements at such places: none of its messages ends
inside a unit. -/
def MessagesAligned (width : Width) (count : Nat) (places : Places) : Prop :=
  link.cutter.Aligned (link.encoder.handedElement link.mode width)
    (link.encoder.handedAddress link.mode width places) link.mode.opening?.isSome
    (link.encoder.unit link.mode width) (link.encoder.longestBlock link.mode width count)

theorem length_clocked_segments (sent : Outgoing) :
    ((link.mode.payload (link.segments sent)).flatMap Segment.clocked).length =
      (Cutter.wordsIn sent.slices).length := by
  unfold segments Cutter.wordsIn
  rw [payload_opening, List.flatMap_map]
  show (sent.slices.flatMap fun slice =>
    slice.words.values.map fun value => (⟨sent.block.bits, value⟩ : ClockedWord)).length = _
  rw [← List.map_flatMap, List.length_map]

/-- The messages of blocks hold whole units if the parts of the blocks do. -/
theorem whole_outgoing_iff (unit : Nat) (selector : Selector) (clock : Option Nat)
    (blocks : List Block) :
    (∀ message ∈ (blocks.flatMap (link.outgoing selector clock)).map link.segments,
        link.mode.Whole unit message) ↔
      ∀ block ∈ blocks, ∀ slices ∈ link.cutter.messages link.mode.opening?.isSome block,
        unit ∣ (Cutter.wordsIn slices).length := by
  have opened : (link.opening selector false clock).isSome = link.mode.opening?.isSome := by
    rw [opening, Option.isSome_map]
  have each (block : Block) :
      (∀ sent ∈ link.outgoing selector clock block, link.mode.Whole unit (link.segments sent)) ↔
        ∀ slices ∈ link.cutter.messages link.mode.opening?.isSome block,
          unit ∣ (Cutter.wordsIn slices).length := by
    rw [outgoing, opened, List.forall_mem_map]
    refine forall₂_congr fun slices _ => ?_
    rw [Mode.Whole, length_clocked_segments]
  rw [List.forall_mem_map]
  simp only [List.forall_mem_flatMap, each]

variable {link}

/-- **The messages of a phase hold whole units** exactly if the limits suit it. -/
theorem whole_planned_iff {words : Words} {width : Width} (element : words.element = width.element)
    (nonempty : words.values ≠ []) (sends : link.Sends width words.length) (selector : Selector)
    (clock : Option Nat) (places : Places) :
    (∀ message ∈ (link.planned selector clock words width places).map link.segments,
        link.mode.Whole (link.encoder.unit link.mode width) message) ↔
      link.MessagesAligned width words.length places := by
  obtain ⟨carried, room⟩ := sends
  obtain ⟨blocks, encoded⟩ := Encoder.phase_of_carries element carried room selector places
  have planned_eq : link.planned selector clock words width places =
      blocks.flatMap (link.outgoing selector clock) := by
    unfold planned
    rw [encoded]
  rw [planned_eq, whole_outgoing_iff]
  by_cases threeWire : link.mode = .threeWire
  · unfold MessagesAligned
    rw [threeWire] at encoded ⊢
    exact (Encoder.measured_threeWire nonempty encoded).dvd_iff link.cutter _
  · cases native : link.encoder.mask.contains width with
    | true =>
      rw [MessagesAligned, Encoder.unit_of_native threeWire native]
      exact ⟨fun _ => Cutter.aligned_one _ _ _, fun _ _ _ _ _ => Nat.one_dvd _⟩
    | false =>
      have repackable : Encoder.Repackable width words.length := by
        unfold Encoder.Carries at carried
        split at carried
        · exact absurd ‹link.mode = .threeWire› threeWire
        · exact carried.resolve_left (Bool.eq_false_iff.mp native)
      exact (Encoder.measured_repacked threeWire native element nonempty repackable encoded).dvd_iff
        link.cutter _

/-- A phase of a few bytes fits into one message. -/
theorem messagesAligned_of_short (roomy : 4 ≤ link.config.segmentLimit) {width : Width} {count : Nat}
    (short : link.encoder.longestBlock link.mode width count *
        (link.encoder.handedElement link.mode width).bytes + 4 ≤
      4 * Cutter.slots link.mode.opening?.isSome) (places : Places) :
    link.MessagesAligned width count places := by
  have limit : 4 ≤ link.cutter.segmentLimit := roomy
  have reaches := Nat.le_trans short (Cutter.le_reach_slots limit
    (link.encoder.handedElement link.mode width) (link.encoder.handedAddress link.mode width places) _)
  exact Cutter.aligned_of_length_le
    (Nat.le_of_mul_le_mul_right (Nat.le_of_add_le_add_right reaches) (Element.bytes_pos _))

/-- **The phase that selects a register** is never cut inside a unit. -/
theorem messagesAligned_select (roomy : 4 ≤ link.config.segmentLimit) (width : Width)
    (places : Places) : link.MessagesAligned width 1 places := by
  -- A register number makes one group of nine-bit words at most, which is sent without an opening
  -- byte. So four segments have room for it, even if its page ends there.
  by_cases threeWire : link.mode = .threeWire
  · refine messagesAligned_of_short roomy ?_ places
    rw [threeWire, show Cutter.slots Mode.threeWire.opening?.isSome = 4 from rfl]
    cases native : link.encoder.mask.contains .bits9 with
    | true =>
      have few : link.encoder.longestBlock .threeWire width 1 ≤ 4 := by
        rw [Encoder.longestBlock_threeWire_native native]
        exact Nat.le_trans (Nat.min_le_right _ _) (by cases width <;> decide)
      rw [Encoder.handedElement, Encoder.handedWidth, if_pos native,
        show Width.bits9.element.bytes = 2 from rfl]
      omega
    | false =>
      have group : link.encoder.longestBlock .threeWire width 1 ≤ 9 := by
        rw [Encoder.longestBlock_threeWire_packed native]
        exact Nat.le_trans (Nat.min_le_right _ _) (by cases width <;> decide)
      rw [Encoder.handedElement, Encoder.handedWidth, if_neg (Bool.eq_false_iff.mp native),
        show Element.byte.bytes = 1 from rfl]
      omega
  · cases native : link.encoder.mask.contains width with
    | true =>
      rw [MessagesAligned, Encoder.unit_of_native threeWire native]
      exact Cutter.aligned_one _ _ _
    | false =>
      have few : link.encoder.longestBlock link.mode width 1 ≤ 4 := by
        refine Nat.le_trans (link.encoder.longestBlock_le _ _ _) ?_
        rw [Encoder.units_of_repacked threeWire native, Encoder.unit_of_repacked threeWire native]
        cases width <;> decide
      have slots : 3 ≤ Cutter.slots link.mode.opening?.isSome := Cutter.three_le_slots _
      refine messagesAligned_of_short roomy ?_ places
      rw [Encoder.handedElement_of_repacked threeWire native, show Element.byte.bytes = 1 from rfl]
      omega

/-- The messages of a phase hold whole units if the limits suit it; a phase that is refused has
none. -/
theorem whole_planned {words : Words} {width : Width} (element : words.element = width.element)
    (nonempty : words.values ≠ []) {places : Places}
    (aligned : link.MessagesAligned width words.length places) (selector : Selector)
    (clock : Option Nat) :
    ∀ message ∈ (link.planned selector clock words width places).map link.segments,
      link.mode.Whole (link.encoder.unit link.mode width) message := by
  by_cases sends : link.Sends width words.length
  · exact (whole_planned_iff element nonempty sends selector clock places).mpr aligned
  · obtain ⟨-, unplanned, -⟩ := endsAt_of_not_sends element nonempty sends selector clock places
    rw [unplanned]
    exact nofun

/-- **If segments may cross pages**, the limits suit a phase exactly if its longest block fits into one
message or a full message holds whole units. -/
theorem messagesAligned_iff_of_unpaged (unpaged : link.config.splitsAtPages = false)
    (width : Width) (count : Nat) (places : Places) :
    let segment := max (link.config.segmentLimit / (link.encoder.handedElement link.mode width).bytes) 1
    let full := segment * Cutter.slots link.mode.opening?.isSome
    link.MessagesAligned width count places ↔
      link.encoder.longestBlock link.mode width count ≤ full ∨
        link.encoder.unit link.mode width ∣ full :=
  Cutter.aligned_iff_of_unpaged (show link.cutter.splitsAtPages = false from unpaged) _ _ _ _

/-- **A scratch buffer no longer than a segment** suits every phase. -/
theorem messagesAligned_of_scratch_le (unpaged : link.config.splitsAtPages = false)
    (room : NineBit.groupBytes ≤ link.config.scratchLength)
    (within : link.config.scratchLength ≤ link.config.segmentLimit) (width : Width) (count : Nat)
    (places : Places) : link.MessagesAligned width count places := by
  rcases link.encoder.converted_or_in_place link.mode width with cut | ⟨apart, native⟩
  · refine (messagesAligned_iff_of_unpaged unpaged width count places).mpr (Or.inl ?_)
    have slots : 3 ≤ Cutter.slots link.mode.opening?.isSome := Cutter.three_le_slots _
    have halves : link.config.segmentLimit / 2 ≤
        link.config.segmentLimit / (link.encoder.handedElement link.mode width).bytes :=
      Nat.div_le_div_left (Encoder.bytes_handedElement_le cut) (Element.bytes_pos _)
    calc link.encoder.longestBlock link.mode width count
        ≤ link.config.scratchLength := Encoder.longestBlock_le_scratch room cut count
      _ ≤ link.config.segmentLimit / 2 * 3 := by
          change 9 ≤ _ at room
          omega
      _ ≤ _ := Nat.mul_le_mul (Nat.le_trans halves (Nat.le_max_left _ _)) slots
  · rw [MessagesAligned, Encoder.unit_of_native apart native]
    exact Cutter.aligned_one _ _ _

/-! ### The messages of a write -/

/-- **The messages that carry the payload**, if there is one. -/
def payloadMessages (link : Link) (settings : BankSettings) (request : Option WriteRequest) :
    List (List Segment) :=
  match WriteRequest.nonempty? request with
  | some present =>
    (link.planned present.selector
      (Context.writeClock ⟨settings.width, settings.deviations⟩ present.selector link.clock)
      present.words (present.effectiveWidth settings.width) (link.payloadPlaces present)).map
      link.segments
  | none => []

theorem messagesIn_payloadScript (link : Link) (settings : BankSettings)
    (request : Option WriteRequest) :
    messagesIn (link.payloadScript settings request).events = link.payloadMessages settings request := by
  unfold payloadScript payloadMessages
  cases WriteRequest.nonempty? request with
  | none => rfl
  | some present => exact link.messagesIn_phaseScript _ _ _ _ _

end Link

/-- A prefix of two lists in a row is a prefix of each in turn. -/
theorem prefix_append {α : Type} {sent first later : List α} (begins : sent <+: first ++ later) :
    ∃ some_first some_later, sent = some_first ++ some_later ∧ some_first <+: first ∧
      some_later <+: later ∧ (some_later = [] ∨ some_first = first) := by
  obtain ⟨rest, joined⟩ := begins
  rcases List.append_eq_append_iff.mp joined with ⟨left, rfl, -⟩ | ⟨middle, rfl, later_eq⟩
  · exact ⟨sent, [], (List.append_nil sent).symm, List.prefix_append _ _, List.nil_prefix, Or.inl rfl⟩
  · exact ⟨first, middle, rfl, List.prefix_rfl, ⟨rest, later_eq.symm⟩, Or.inr rfl⟩

/-- **What a write has sent, and when its messages hold whole elements.** -/
structure WholeElements (link : Link) (settings : BankSettings) (register : Nat)
    (request : Option WriteRequest) (outcome : Except AccessError Unit)
    (select data : List (List Segment)) : Prop where
  selecting : select <+: link.selectMessages settings register
  sending : data <+: link.payloadMessages settings request
  in_order : data = [] ∨ select = link.selectMessages settings register
  complete : outcome = .ok () →
    select = link.selectMessages settings register ∧ data = link.payloadMessages settings request
  /-- The messages that select the register are always whole. -/
  select_whole : ∀ message ∈ select,
    link.mode.Whole (link.encoder.unit link.mode settings.width) message
  /-- Those of the payload are whole if the limits suit it. -/
  data_whole : ∀ present, WriteRequest.nonempty? request = some present →
    link.MessagesAligned (present.effectiveWidth settings.width) present.words.length
      (link.payloadPlaces present) →
    ∀ message ∈ data,
      link.mode.Whole (link.encoder.unit link.mode (present.effectiveWidth settings.width)) message
  /-- And if the write succeeds, only then. -/
  aligned : outcome = .ok () → ∀ present, WriteRequest.nonempty? request = some present →
    (∀ message ∈ data,
      link.mode.Whole (link.encoder.unit link.mode (present.effectiveWidth settings.width))
        message) →
    link.MessagesAligned (present.effectiveWidth settings.width) present.words.length
      (link.payloadPlaces present)

section Writes

variable {link : Link} {settings : BankSettings} {register : Nat} {request : Option WriteRequest}

/-- A write that fails and has no message. -/
theorem wholeElements_of_silent {outcome : Except AccessError Unit} (fails : outcome ≠ .ok ()) :
    WholeElements link settings register request outcome [] [] where
  selecting := List.nil_prefix
  sending := List.nil_prefix
  in_order := Or.inl rfl
  complete succeeds := absurd succeeds fails
  select_whole := nofun
  data_whole := nofun
  aligned succeeds := absurd succeeds fails

/-- The messages that select a register hold whole elements. -/
theorem whole_select (roomy : 4 ≤ link.config.segmentLimit) :
    ∀ message ∈ link.selectMessages settings register,
      link.mode.Whole (link.encoder.unit link.mode settings.width) message :=
  Link.whole_planned
    (show (registerWord register settings.width).element = settings.width.element from rfl)
    (List.cons_ne_nil _ _) (Link.messagesAligned_select roomy settings.width _) _ _

/-- **The messages of the payload** hold whole elements if the limits suit it, and if it is sent only
then. -/
theorem whole_payload {present : WriteRequest}
    (payload : WriteRequest.nonempty? request = some present) (fit : ElementsFit settings request) :
    let width := present.effectiveWidth settings.width
    let whole := ∀ message ∈ link.payloadMessages settings request,
      link.mode.Whole (link.encoder.unit link.mode width) message
    let aligned := link.MessagesAligned width present.words.length (link.payloadPlaces present)
    (aligned → whole) ∧
      ((link.payloadScript settings request).verdict = .ok () → whole → aligned) := by
  have nonempty := payload_ne_nil payload
  unfold Link.payloadMessages Link.payloadScript
  rw [payload]
  refine ⟨fun aligned => Link.whole_planned (fit present payload) nonempty aligned _ _,
    fun succeeds whole => ?_⟩
  by_cases sends : link.Sends (present.effectiveWidth settings.width) present.words.length
  · exact (Link.whole_planned_iff (fit present payload) nonempty sends _ _ _).mp whole
  · obtain ⟨-, -, error, failed⟩ :=
      Link.endsAt_of_not_sends (fit present payload) nonempty sends present.selector _
        (link.payloadPlaces present)
    cases failed.symm.trans succeeds

/-- What a write has sent whose register is selected. -/
theorem wholeElements_of_selected (roomy : 4 ≤ link.config.segmentLimit)
    (fit : ElementsFit settings request) (selected : link.Sends settings.width 1)
    {outcome : Except AccessError Unit} {sent : List (List Segment)}
    (begins : sent <+: messagesIn (link.writeScript settings register request).events)
    (finished : outcome = .ok () →
      (link.writeScript settings register request).verdict = .ok () ∧
        sent = messagesIn (link.writeScript settings register request).events) :
    ∃ select data, sent = select ++ data ∧
      WholeElements link settings register request outcome select data := by
  obtain ⟨verdict, messages⟩ := writeScript_of_selected register fit selected
  rw [Link.messagesIn_payloadScript] at messages
  rw [messages] at begins finished
  rw [verdict] at finished
  obtain ⟨select, data, rfl, selecting, sending, in_order⟩ := prefix_append begins
  have complete (succeeds : outcome = .ok ()) :
      select = link.selectMessages settings register ∧
        data = link.payloadMessages settings request := by
    have all := (finished succeeds).2
    have lengths := congrArg List.length all
    rw [List.length_append, List.length_append] at lengths
    have short := sending.length_le
    have selects : select = link.selectMessages settings register :=
      selecting.eq_of_length_le (by omega)
    exact ⟨selects, List.append_cancel_left (selects ▸ all)⟩
  refine ⟨select, data, rfl, selecting, sending, in_order, complete,
    fun message member => whole_select roomy message (selecting.subset member),
    fun present payload aligned message member =>
      (whole_payload payload fit).1 aligned message (sending.subset member),
    fun succeeds present payload whole => (whole_payload payload fit).2 (finished succeeds).1 ?_⟩
  rwa [← (complete succeeds).2]

end Writes

/-- **The messages of a write** hold whole elements if the limits of the link suit its payload, and
those of a write that succeeds only then. -/
theorem whole_elements_iff {advertised : Advertised} {layout : Layout} {mode : Mode}
    {selectorLine reset : Connection} {config : Config} {link : Link}
    (created : Link.create advertised layout mode selectorLine reset config = .ok link)
    (settings : BankSettings) (register : Nat) (request : Option WriteRequest) (bench : Bench) :
    ∃ outcome after select data,
      (RegisterBank.write ⟨link.channel, settings⟩ register request).run.run bench =
        (outcome, after) ∧
      after.messages = bench.messages ++ (select ++ data) ∧
      WholeElements link settings register request outcome select data := by
  have roomy : 4 ≤ link.config.segmentLimit := (Link.checked_of_create created).2.1
  rw [RegisterBank.write_eq_play]
  obtain ⟨outcome, after, sent, ran, messages, begins, finished⟩ :=
    Script.messages_of_run AccessError.linkFailed (link.writeScript settings register request) bench
  have silent {error : AccessError}
      (failed : (link.writeScript settings register request).verdict = .error error)
      (unsent : messagesIn (link.writeScript settings register request).events = []) :
      ∃ select data, sent = select ++ data ∧
        WholeElements link settings register request outcome select data := by
    rw [unsent] at begins
    refine ⟨[], [], List.prefix_nil.mp begins, wholeElements_of_silent fun succeeds => ?_⟩
    cases failed.symm.trans (finished succeeds).1
  have split : ∃ select data, sent = select ++ data ∧
      WholeElements link settings register request outcome select data := by
    by_cases fit : ElementsFit settings request
    · by_cases selected : link.Sends settings.width 1
      · exact wholeElements_of_selected roomy fit selected begins finished
      · obtain ⟨-, unsent, error, failed⟩ := writeScript_of_unselected register fit selected
        exact silent failed unsent
    · have refused : link.writeScript settings register request = _ := Link.writeScript_of_misfit fit
      exact silent (congrArg Script.verdict refused)
        (congrArg (fun script => messagesIn script.events) refused)
  obtain ⟨select, data, rfl, whole⟩ := split
  exact ⟨outcome, after, select, data, ran, messages, whole⟩

/-- A 3-wire link with a limit on its segments, over a controller of byte words. -/
def limitedLink (segmentLimit : Nat) : Link where
  mode := .threeWire
  selectorLine := .absent
  reset := .absent
  config := { segmentLimit }
  mask := .bytesOnly
  clock := 10000000
  canMap := false
  handleOf := Slice.inPlace
  layout := .paged

/-- Forty bytes, which are five groups of nine-bit words. -/
def fortyBytes : WriteRequest where
  words := Words.ofList .byte (List.replicate 40 0)
  address := 0

/-- The register and the bytes are sent through any limit. -/
theorem sends_fortyBytes (segmentLimit : Nat) :
    (limitedLink segmentLimit).Sends .bits8 1 ∧ (limitedLink segmentLimit).Sends .bits8 40 := by
  have carried (count : Nat) (short : (count + 7) / 8 * 8 ≤ pageSize) :
      (limitedLink segmentLimit).Sends .bits8 count :=
    ⟨⟨Or.inl rfl, Or.inr (Or.inl ⟨rfl, Or.inr short⟩)⟩,
      Or.inr (show pageSize < bufferLimit by decide)⟩
  exact ⟨carried 1 (by decide), carried 40 (by decide)⟩

/-- The write succeeds and sends both phases. -/
theorem write_fortyBytes (segmentLimit : Nat) :
    ∃ after, (RegisterBank.write ⟨(limitedLink segmentLimit).channel, {}⟩ 44
        (some fortyBytes)).run.run {} = (.ok (), after) ∧
      after.messages = (limitedLink segmentLimit).selectMessages {} 44 ++
        (limitedLink segmentLimit).payloadMessages {} (some fortyBytes) := by
  have fit : ElementsFit {} (some fortyBytes) := fun present payload => by
    cases payload
    rfl
  obtain ⟨selected, sends⟩ := sends_fortyBytes segmentLimit
  obtain ⟨verdict, messages⟩ := writeScript_of_selected 44 fit selected
  have succeeds : ((limitedLink segmentLimit).payloadScript {} (some fortyBytes)).verdict = .ok () :=
    Link.verdict_of_sends rfl sends _ _ _
  have accepts : ({} : Bench).Accepts
      ((limitedLink segmentLimit).writeScript {} 44 (some fortyBytes)).events :=
    (Bench.faultless_empty _).accepts fun event member => Link.canMap_of_mem_writeScript _ member
  obtain ⟨after, ran, tried⟩ := Script.run_of_accepts AccessError.linkFailed _ accepts
  rw [← RegisterBank.write_eq_play, verdict, succeeds] at ran
  refine ⟨after, ran, ?_⟩
  rw [messages_of_tried tried, messages, Link.messagesIn_payloadScript]
  rfl

/-- Through the limits that are used if none are given, every message holds whole groups. -/
theorem whole_elements_default :
    Link.create { clock := 10000000, mask := .bytesOnly, canMap := false } .paged .threeWire .absent
        .absent {} = .ok (limitedLink pageSize) ∧
      ∃ after select data,
        (RegisterBank.write ⟨(limitedLink pageSize).channel, {}⟩ 44 (some fortyBytes)).run.run {} =
          (.ok (), after) ∧
        after.messages = select ++ data ∧
        data = (limitedLink pageSize).payloadMessages {} (some fortyBytes) ∧
        ∀ message ∈ select ++ data, Mode.threeWire.Whole 9 message := by
  have created : Link.create { clock := 10000000, mask := .bytesOnly, canMap := false } .paged
      .threeWire .absent .absent {} = .ok (limitedLink pageSize) := rfl
  obtain ⟨outcome, after, select, data, ran, messages, whole⟩ :=
    whole_elements_iff created {} 44 (some fortyBytes) {}
  obtain ⟨finished, succeeds, -⟩ := write_fortyBytes pageSize
  obtain ⟨rfl, rfl⟩ := Prod.mk.inj (ran.symm.trans succeeds)
  have aligned : (limitedLink pageSize).MessagesAligned .bits8 40
      ((limitedLink pageSize).payloadPlaces fortyBytes) :=
    Link.messagesAligned_of_scratch_le rfl (by decide) (Nat.le_refl _) .bits8 40 _
  refine ⟨created, _, select, data, ran, messages, (whole.complete rfl).2, fun message member => ?_⟩
  rcases List.mem_append.mp member with selecting | sending
  · exact whole.select_whole message selecting
  · exact whole.data_whole fortyBytes rfl aligned message sending

/-- **A group may be cut by a message**: four segments of ten bytes take four groups and four bytes of
the fifth. -/
theorem group_cut :
    Link.create { clock := 10000000, mask := .bytesOnly, canMap := false } .paged .threeWire .absent
        .absent { segmentLimit := 10 } = .ok (limitedLink 10) ∧
      ∃ after, (RegisterBank.write ⟨(limitedLink 10).channel, {}⟩ 44 (some fortyBytes)).run.run {} =
          (.ok (), after) ∧
        ∃ message ∈ after.messages, ¬Mode.threeWire.Whole 9 message := by
  obtain ⟨after, ran, messages⟩ := write_fortyBytes 10
  refine ⟨rfl, after, ran, ?_⟩
  -- Were every message whole, no message would end at forty of the forty-five bytes.
  by_contra uncut
  have whole : ∀ message ∈ (limitedLink 10).payloadMessages {} (some fortyBytes),
      Mode.threeWire.Whole 9 message := fun message member => by
    by_contra cut
    exact uncut ⟨message, messages ▸ List.mem_append_right _ member, cut⟩
  have aligned : (limitedLink 10).MessagesAligned .bits8 40
      ((limitedLink 10).payloadPlaces fortyBytes) :=
    (Link.whole_planned_iff rfl (List.cons_ne_nil _ _) (sends_fortyBytes 10).2 _ _ _).mp whole
  exact absurd (aligned 1 (by decide)) (by decide)

end PanelLink.Spi
