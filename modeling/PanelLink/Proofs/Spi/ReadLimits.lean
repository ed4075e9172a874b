/-
**When the segments of a read keep to the limit.**

What a phase writes is cut into segments within the limit of the link. The messages of a read are not
cut: a register is selected and all elements are received in one segment each.

* `KeepsTo`: no segment of a message is longer than a limit;
* `Link.keepsTo_planned`: what a phase writes is within the limit;
* `Link.FitsRead`: whether the two segments of a read that may be long are within it;
* `Link.keepsTo_readPlan_iff`: the messages of a plan are within the limit exactly then;
* **`reads_within_limit_iff`**: so are those of every read that succeeds, on any bench.
-/

import PanelLink.Proofs.Spi.Cutting
import PanelLink.Proofs.Spi.Selection

namespace PanelLink

/-- Bytes that a segment sends or receives. -/
def Segment.byteLength (segment : Segment) : Nat :=
  match segment.payload with
  | .transmit words => words.byteLength
  | .receive element count => count * element.bytes

namespace Spi

/-- No segment of a message is longer than a limit. -/
def KeepsTo (limit : Nat) (message : List Segment) : Prop :=
  ∀ segment ∈ message, segment.byteLength ≤ limit

namespace Link

variable {link : Link}

/-! ### What is written -/

/-- The byte that opens a message is within any limit. -/
theorem keepsTo_opening (roomy : 4 ≤ link.config.segmentLimit) (selector : Selector) (reading : Bool)
    (clock : Option Nat) :
    KeepsTo link.config.segmentLimit (link.opening selector reading clock).toList := by
  intro segment member
  unfold opening at member
  obtain ⟨layout, -, rfl⟩ := Option.map_eq_some_iff.mp (Option.mem_toList.mp member)
  exact Nat.le_trans (show 1 * 1 ≤ 4 by decide) roomy

/-- A message of a phase takes slices of one of its blocks. -/
theorem exists_of_mem_planned {selector : Selector} {clock : Option Nat} {words : Words}
    {width : Width} {places : Places} {outgoing : Outgoing}
    (member : outgoing ∈ link.planned selector clock words width places) :
    ∃ block slices, outgoing = { selector, clock, block, slices } ∧
      slices ∈ link.cutter.messages (link.opening selector false clock).isSome block := by
  unfold planned at member
  split at member
  · obtain ⟨block, -, inBlock⟩ := List.mem_flatMap.mp member
    obtain ⟨slices, message, rfl⟩ := List.mem_map.mp inBlock
    exact ⟨block, slices, rfl, message⟩
  · cases member

/-- **What a phase writes** is within the limit. -/
theorem keepsTo_planned (roomy : 4 ≤ link.config.segmentLimit) {selector : Selector}
    {clock : Option Nat} {words : Words} {width : Width} {places : Places} {outgoing : Outgoing}
    (member : outgoing ∈ link.planned selector clock words width places) :
    KeepsTo link.config.segmentLimit (link.segments outgoing) := by
  obtain ⟨block, slices, rfl, message⟩ := exists_of_mem_planned member
  intro segment among
  rcases List.mem_append.mp among with first | carrying
  · exact keepsTo_opening roomy selector false clock segment first
  · obtain ⟨slice, inMessage, rfl⟩ := List.mem_map.mp carrying
    exact (Cutter.cuts_runs roomy block).limited slice.words
      (Cutter.mem_runs_of_mem_messages message inMessage)

/-! ### What a read sends and receives -/

/-- **Whether the segments of a read are within the limit**: the nine bytes that select a register over
three wires without nine-bit words, and the elements, which a dummy byte precedes if messages open
with a byte. -/
structure FitsRead (link : Link) (request : ReadRequest) : Prop where
  selecting : link.mode = .threeWire → link.mask.contains .bits9 = false →
    NineBit.groupBytes ≤ link.config.segmentLimit
  receiving : request.count * request.element.bytes + link.mode.opening?.toList.length ≤
    link.config.segmentLimit

variable {context : Context} {register : Nat} {request : ReadRequest}

theorem byteLength_selectSegment (roomy : 4 ≤ link.config.segmentLimit) {width : Width}
    {select : Segment} (selected : link.selectSegment width register = .ok select) :
    select.byteLength ≤ link.config.segmentLimit ↔
      (link.mode = .threeWire → link.mask.contains .bits9 = false →
        NineBit.groupBytes ≤ link.config.segmentLimit) := by
  unfold selectSegment at selected
  by_cases threeWire : link.mode = .threeWire
  · rw [if_pos threeWire] at selected
    cases native : link.mask.contains .bits9 with
    | true =>
      rw [native, if_pos rfl] at selected
      cases selected
      exact iff_of_true (Nat.le_trans (show 1 * 2 ≤ 4 by decide) roomy) (fun _ => nofun)
    | false =>
      rw [native, if_neg Bool.false_ne_true] at selected
      cases selected
      exact ⟨fun fits _ _ => fits, fun fits => fits threeWire rfl⟩
  · rw [if_neg threeWire] at selected
    have short : select.byteLength ≤ 4 := by
      split at selected
      · cases selected
        exact (show 1 * 1 ≤ 4 by decide)
      · split at selected
        · cases selected
          exact (show 1 * 2 ≤ 4 by decide)
        · cases selected
          exact (show 2 * 1 ≤ 4 by decide)
      · cases selected
    exact iff_of_true (Nat.le_trans short roomy) fun same => absurd same threeWire

/-- Elements that come as pairs of bytes are as long as they are. -/
theorem byteLength_stretch {width : Width} (fits : request.element = width.element) :
    (link.stretch request width).byteLength = request.count * request.element.bytes := by
  unfold stretch Segment.byteLength
  by_cases pairs : link.JoinsPairs width
  · rw [if_pos pairs, fits, pairs.1]
    exact Nat.mul_one _
  · rw [if_neg pairs]

/-- **The messages of a plain read** are within the limit exactly if it fits. -/
theorem keepsTo_plainRead_iff (roomy : 4 ≤ link.config.segmentLimit)
    (direct : link.mode.opening? = none) {width : Width} (fits : request.element = width.element)
    {select : Segment} (selected : link.selectSegment width register = .ok select) :
    (∀ message ∈ messagesIn (link.plainRead request width select).events,
      KeepsTo link.config.segmentLimit message) ↔ link.FitsRead request := by
  have both : (∀ message ∈ messagesIn (link.plainRead request width select).events,
      KeepsTo link.config.segmentLimit message) ↔
      select.byteLength ≤ link.config.segmentLimit ∧
        (link.stretch request width).byteLength ≤ link.config.segmentLimit := by
    have still : ({ select with changesSelect := true } : Segment).byteLength = select.byteLength := rfl
    rw [messagesIn_plainRead]
    cases request.selector <;> simp [KeepsTo, still]
  rw [both, byteLength_selectSegment roomy selected, byteLength_stretch fits]
  refine ⟨fun ⟨selecting, receiving⟩ => ⟨selecting, ?_⟩, fun ⟨selecting, receiving⟩ => ⟨selecting, ?_⟩⟩
  · rw [direct]
    exact receiving
  · rw [direct] at receiving
    exact receiving

/-- **The messages of a read that opens with a byte**: those that select the register are within the
limit, and the last one is sent only if the register can be selected. -/
theorem keepsTo_openedRead_iff (roomy : 4 ≤ link.config.segmentLimit) {layout : OpeningByte}
    (opened : link.mode = .opened layout) (halves : request.element = .half) :
    (∀ message ∈ messagesIn (link.openedRead layout context register request).events,
      KeepsTo link.config.segmentLimit message) ↔
      ((link.openedRead layout context register request).lead.verdict = .ok () →
        link.FitsRead request) := by
  have selecting : ∀ message ∈
      messagesIn (link.openedRead layout context register request).lead.events,
      KeepsTo link.config.segmentLimit message := by
    intro message member
    rw [openedRead, messagesIn_phaseScript] at member
    obtain ⟨outgoing, planned, rfl⟩ := List.mem_map.mp member
    exact keepsTo_planned roomy planned
  have last : KeepsTo link.config.segmentLimit
      (link.openedRead layout context register request).last ↔ link.FitsRead request := by
    have short : 1 ≤ link.config.segmentLimit := Nat.le_trans (by decide) roomy
    have bytes : request.count * request.element.bytes + link.mode.opening?.toList.length =
        request.count * 2 + 1 := by
      rw [halves, opened]
      rfl
    have apart : link.mode ≠ .threeWire := by
      rw [opened]
      intro same
      cases same
    have received : (link.openedRead layout context register request).receiving.byteLength =
        request.count * 2 + 1 := Nat.mul_one _
    refine ⟨fun within => ⟨fun same => absurd same apart, ?_⟩, fun fits segment member => ?_⟩
    · rw [bytes, ← received]
      exact within _ (List.mem_cons_of_mem _ List.mem_cons_self)
    · rcases List.mem_cons.mp member with rfl | receives
      · exact short
      · rw [List.mem_singleton.mp receives, received, ← bytes]
        exact fits.receiving
  unfold ReadPlan.events
  rw [messagesIn_append]
  cases (link.openedRead layout context register request).lead.verdict with
  | error error =>
    rw [show messagesIn [] = [] from rfl, List.append_nil]
    refine iff_of_true selecting fun ends => ?_
    cases ends
  | ok done =>
    dsimp only
    rw [← last]
    refine ⟨fun all _ => all _ (List.mem_append_right _ List.mem_cons_self),
      fun within message member => ?_⟩
    rcases List.mem_append.mp member with early | late
    · exact selecting message early
    · rw [List.mem_singleton.mp late]
      exact within rfl

/-- **The messages of a plan** are within the limit exactly if the read fits, unless the register cannot
be selected: then there is no stretch that receives. -/
theorem keepsTo_readPlan_iff (roomy : 4 ≤ link.config.segmentLimit)
    (fits : request.element = (request.effectiveWidth context.width).element) {plan : ReadPlan}
    (planned : link.readPlan context register request = .ok plan) :
    (∀ message ∈ messagesIn plan.events, KeepsTo link.config.segmentLimit message) ↔
      (plan.lead.verdict = .ok () → link.FitsRead request) := by
  have plain (direct : link.mode.opening? = none)
      (planned : link.plainPlan context register request = .ok plan) :
      (∀ message ∈ messagesIn plan.events, KeepsTo link.config.segmentLimit message) ↔
        (plan.lead.verdict = .ok () → link.FitsRead request) := by
    obtain ⟨same, -, select, selected, rfl⟩ := plainPlan_eq_ok.mp planned
    rw [same] at fits
    rw [keepsTo_plainRead_iff roomy direct fits selected]
    exact ⟨fun fits _ => fits, fun fits => fits rfl⟩
  unfold readPlan at planned
  cases mode : link.mode with
  | fourWire => exact plain (by rw [mode]; rfl) (by rwa [mode] at planned)
  | threeWire => exact plain (by rw [mode]; rfl) (by rwa [mode] at planned)
  | opened layout =>
    rw [mode] at planned
    obtain ⟨-, halves, rfl⟩ := openedPlan_eq_ok.mp planned
    exact keepsTo_openedRead_iff roomy mode halves

end Link

/-! ### Runs -/

/-- **On any bench** a plan sends its messages up to some point, and all of them if it succeeds. -/
theorem ReadPlan.messages_of_run (plan : ReadPlan) (bench : Bench) :
    ∃ outcome after sent, plan.carryOut.run.run bench = (outcome, after) ∧
      after.messages = bench.messages ++ sent ∧ sent <+: messagesIn plan.events ∧
      (∀ values, outcome = .ok values →
        plan.lead.verdict = .ok () ∧ sent = messagesIn plan.events) := by
  obtain ⟨led, middle, first, ran, messages, begins, finished⟩ :=
    Script.messages_of_run AccessError.linkFailed plan.lead bench
  unfold events carryOut
  rw [messagesIn_append]
  cases led with
  | error error =>
    exact ⟨_, middle, first, run_bind_error ran, messages, begins.trans (List.prefix_append _ _), nofun⟩
  | ok done =>
    obtain ⟨verdict, rfl⟩ := finished rfl
    rw [verdict, run_bind_ok ran]
    have last := run_exchange_tried middle plan.last
    split at last
    · obtain ⟨after, sent, tried⟩ := last
      have adapted : (Link.exchangeRead plan.last).run.run middle =
          (.error (.linkFailed .bus), after) := by
        unfold Link.exchangeRead
        refine run_bind_error ?_
        rw [ExceptT.run_adapt, StateT.run_map, sent]
        rfl
      refine ⟨_, after, _, run_bind_error adapted, ?_, List.prefix_append _ _, nofun⟩
      rw [messages_of_tried tried, messages]
      exact List.append_nil _
    · obtain ⟨received, after, sent, tried⟩ := last
      have adapted : (Link.exchangeRead plan.last).run.run middle = (.ok received.flatten, after) := by
        have restated : ((exchange plan.last).adapt fun _ => AccessError.linkFailed .bus).run.run
            middle = (.ok received, after) := by
          rw [ExceptT.run_adapt, StateT.run_map, sent]
          rfl
        exact run_bind_ok restated
      refine ⟨_, after, _, run_bind_ok adapted, ?_, List.prefix_rfl, fun _ _ => ⟨rfl, rfl⟩⟩
      rw [messages_of_tried tried, messages, List.append_assoc]

/-- **The segments of a read**, on any bench and whatever is planned to fail, are within the limit of the
link if the read fits, and if the read succeeds only then. -/
theorem reads_within_limit_iff {advertised : Advertised} {layout : Layout} {mode : Mode}
    {selectorLine reset : Connection} {config : Config} {link : Link}
    (created : Link.create advertised layout mode selectorLine reset config = .ok link)
    (settings : BankSettings) (register : Nat) (request : ReadRequest) (bench : Bench) :
    ∃ reading after sent,
      (RegisterBank.read ⟨link.channel, settings⟩ register request).run bench = (reading, after) ∧
      after.messages = bench.messages ++ sent ∧
      (link.FitsRead request → ∀ message ∈ sent, KeepsTo link.config.segmentLimit message) ∧
      (reading.outcome = .ok () → (∀ message ∈ sent, KeepsTo link.config.segmentLimit message) →
        link.FitsRead request) := by
  have roomy : 4 ≤ link.config.segmentLimit := (Link.checked_of_create created).2.1
  have silent (error : AccessError) (action : BenchM (Reading AccessError))
      (refused : action = pure (.failed error)) :
      ∃ reading after sent, action.run bench = (reading, after) ∧
        after.messages = bench.messages ++ sent ∧
        (link.FitsRead request → ∀ message ∈ sent, KeepsTo link.config.segmentLimit message) ∧
        (reading.outcome = .ok () → (∀ message ∈ sent, KeepsTo link.config.segmentLimit message) →
          link.FitsRead request) :=
    ⟨.failed error, bench, [], refused ▸ rfl, (List.append_nil _).symm, fun _ => nofun, nofun⟩
  unfold RegisterBank.read
  dsimp only
  split
  · exact silent _ _ rfl
  split
  · exact silent _ _ rfl
  split
  · exact silent _ _ rfl
  rename_i fits
  show ∃ reading after sent, (link.read _ register _).run bench = _ ∧ _
  rw [Link.read_eq]
  split
  · exact silent _ _ rfl
  · rename_i plan planned
    obtain ⟨outcome, after, sent, ran, messages, begins, finished⟩ := plan.messages_of_run bench
    have within := Link.keepsTo_readPlan_iff roomy (not_not.mp fits) planned
    refine ⟨_, after, sent, ReadPlan.run_read ran, messages, fun suits message member => ?_,
      fun succeeds all => ?_⟩
    · exact within.mpr (fun _ => ⟨suits.selecting, suits.receiving⟩) message (begins.subset member)
    · cases outcome with
      | error error => cases succeeds
      | ok values =>
        obtain ⟨verdict, rfl⟩ := finished values rfl
        obtain ⟨selecting, receiving⟩ := within.mp all verdict
        exact ⟨selecting, receiving⟩

/-- A 4-wire link that takes segments of four bytes. -/
def fourByteLink : Link where
  mode := .fourWire
  selectorLine := .line .selector
  reset := .absent
  config := { segmentLimit := 4 }
  mask := .bytesOnly
  clock := 10000000
  canMap := false
  handleOf := Slice.inPlace
  layout := .paged

/-- Four bytes are received within a limit of four. -/
theorem reads_within_limit_fourBytes :
    Link.create { clock := 10000000, mask := .bytesOnly, canMap := false } .paged .fourWire
        (.line .selector) .absent { segmentLimit := 4 } = .ok fourByteLink ∧
      ∃ reading after,
        (RegisterBank.read ⟨fourByteLink.channel, { readable := true }⟩ 0
          { element := .byte, count := 4 }).run {} = (reading, after) ∧
        reading.outcome = .ok () ∧ ∀ message ∈ after.messages, KeepsTo 4 message := by
  have created : Link.create { clock := 10000000, mask := .bytesOnly, canMap := false } .paged .fourWire
      (.line .selector) .absent { segmentLimit := 4 } = .ok fourByteLink := rfl
  obtain ⟨reading, after, sent, ran, messages, within, -⟩ := reads_within_limit_iff created
    { readable := true } 0 { element := .byte, count := 4 } {}
  have fits : fourByteLink.FitsRead { element := .byte, count := 4 } := ⟨nofun, Nat.le_refl 4⟩
  have succeeds : reading.outcome = .ok () :=
    (congrArg (fun ended => ended.1.outcome) ran).symm.trans (by decide +kernel)
  refine ⟨created, reading, after, ran, succeeds, ?_⟩
  rw [messages]
  exact within fits

/-- **A read is not cut**: five bytes are received in one segment, although the link takes segments of
four bytes, and the read succeeds. -/
theorem long_read_uncut :
    Link.create { clock := 10000000, mask := .bytesOnly, canMap := false } .paged .fourWire
        (.line .selector) .absent { segmentLimit := 4 } = .ok fourByteLink ∧
      ∃ reading after,
        (RegisterBank.read ⟨fourByteLink.channel, { readable := true }⟩ 0
          { element := .byte, count := 5 }).run {} = (reading, after) ∧
        reading.outcome = .ok () ∧
        ∃ message ∈ after.messages, ∃ segment ∈ message,
          fourByteLink.config.segmentLimit < segment.byteLength := by
  refine ⟨rfl, _, _, rfl, ?_, ?_⟩
  · decide +kernel
  · decide +kernel

end Spi

end PanelLink
