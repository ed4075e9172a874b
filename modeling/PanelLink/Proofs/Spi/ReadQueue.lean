/-
**Reads take their elements from one queue, one after the other.**

What the controller receives comes from one queue. A read that succeeds fills its buffer with the next
elements and takes exactly those; a read that fails takes nothing and leaves its buffer alone.

* `ReadPlan.Receives`: a plan only sends up to the stretch that receives, and
  **`ReadPlan.Receives.run_carryOut`**: what it takes, whatever fails;
* `Delivery`: the three ways in which elements come, how much of the queue each takes and what it makes
  of that;
* `ReadCall`: one read of a register into a buffer, and `Served`: calls answered in order from a queue;
* **`reads_in_turn`**: any calls over any link on any bench are answered so, and without faults exactly
  those succeed that the link can carry.
-/

import PanelLink.Proofs.Bench.Incoming
import PanelLink.Proofs.Spi.ReadPlan
import PanelLink.Proofs.Spi.WriteEnds

namespace PanelLink.Spi

variable {ε : Type}

/-! ### Moves that receive nothing -/

/-- The move receives nothing. -/
def Move.Sends : Move → Prop
  | .transfer segments _ => ∀ segment ∈ segments, segment.Sends
  | _ => True

theorem keepsQueue_abandon (held : List Handle) (error : ε) : KeepsQueue (abandon held error) :=
  (KeepsQueue.forM fun _ _ _ => rfl).bind fun _ => KeepsQueue.settled (.error error)

theorem keepsQueue_orAbandon {α φ : Type} (held : List Handle) (error : ε) (outcome : Except φ α) :
    KeepsQueue (orAbandon held error outcome) := by
  cases outcome with
  | ok value => exact KeepsQueue.settled (.ok ())
  | error failure => exact keepsQueue_abandon held error

theorem Move.keepsQueue_perform (restate : LinkFault → ε) {move : Move} (sends : move.Sends) :
    KeepsQueue (move.perform restate) := by
  cases move with
  | drive name level => exact (keepsQueue_setLine name level).adapt _
  | map slice handle held =>
    exact (keepsQueue_mapBuffer _ slice).lift.bind (keepsQueue_orAbandon held _)
  | transfer segments held =>
    exact (keepsQueue_exchange sends).lift.bind (keepsQueue_orAbandon held _)
  | release handle => exact fun _ => rfl

theorem Script.keepsQueue_play (restate : LinkFault → ε) {script : Script ε}
    (sends : ∀ move ∈ script.moves, move.Sends) : KeepsQueue (script.play restate) :=
  (KeepsQueue.forM fun move member => Move.keepsQueue_perform restate (sends move member)).bind
    fun _ => KeepsQueue.settled script.verdict

/-! ### What a plan takes -/

/-- **The plan only sends** up to the stretch that receives so many elements. -/
structure ReadPlan.Receives (plan : ReadPlan) (element : Element) (count : Nat) : Prop where
  leads : ∀ move ∈ plan.lead.moves, move.Sends
  opens : ∀ segment ∈ plan.opening, segment.Sends
  takes : plan.receiving.payload = .receive element count

/-- **What a plan takes from the queue**: if it succeeds the next elements, and if it fails none. -/
theorem ReadPlan.Receives.run_carryOut {plan : ReadPlan} {element : Element} {count : Nat}
    (receives : plan.Receives element count) (bench : Bench) :
    (∃ error after, plan.carryOut.run.run bench = (.error error, after) ∧
      after.incoming = bench.incoming) ∨
    ∃ after, plan.carryOut.run.run bench =
        (.ok (plan.gives (takeIncoming element count bench.incoming)), after) ∧
      after.incoming = bench.incoming.drop count := by
  have kept := Script.keepsQueue_play AccessError.linkFailed receives.leads bench
  unfold carryOut
  match led : (plan.lead.play AccessError.linkFailed).run.run bench with
  | (.error error, middle) =>
    rw [led] at kept
    exact Or.inl ⟨error, middle, run_bind_error led, kept⟩
  | (.ok (), middle) =>
    rw [led] at kept
    have opens : ∀ segment ∈ plan.opening.toList, segment.Sends := fun segment member =>
      receives.opens segment (Option.mem_toList.mp member)
    rw [run_bind_ok led, Link.exchangeRead, bind_assoc, ← kept]
    rcases run_exchange_receiving opens receives.takes middle with
      ⟨after, sent, queue⟩ | ⟨after, sent, queue⟩
    · have adapted : ((exchange plan.last).adapt fun _ => AccessError.linkFailed .bus).run.run middle =
          (.error (.linkFailed .bus), after) := by
        rw [ExceptT.run_adapt, StateT.run_map, last, sent]
        rfl
      exact Or.inl ⟨_, after, run_bind_error adapted, queue⟩
    · have adapted : ((exchange plan.last).adapt fun _ => AccessError.linkFailed .bus).run.run middle =
          (.ok [takeIncoming element count middle.incoming], after) := by
        rw [ExceptT.run_adapt, StateT.run_map, last, sent]
        rfl
      refine Or.inr ⟨after, ?_, queue⟩
      rw [run_bind_ok adapted, pure_bind, List.flatten_singleton]
      rfl

/-! ### How elements come -/

/-- **The ways in which elements come.** -/
inductive Delivery where
  /-- As they are. -/
  | whole
  /-- As two bytes each, the high one first. -/
  | pairs
  /-- As two bytes each, after one that means nothing. -/
  | pairsAfterDummy
  deriving DecidableEq, Repr

namespace Delivery

/-- How many elements of the queue make so many elements. -/
def taken (delivery : Delivery) (count : Nat) : Nat :=
  match delivery with
  | whole => count
  | pairs => 2 * count
  | pairsAfterDummy => 2 * count + 1

/-- **The elements that the queue makes**, zeros standing in for what it does not have. -/
def elements (delivery : Delivery) (element : Element) (count : Nat) (queue : List Nat) : List Nat :=
  (List.range count).map fun place =>
    match delivery with
    | whole => element.truncate (queue.getD place 0)
    | pairs => byteAt (2 * place) * 256 + byteAt (2 * place + 1)
    | pairsAfterDummy => byteAt (2 * place + 1) * 256 + byteAt (2 * place + 2)
where
  byteAt (place : Nat) : Nat := Element.byte.truncate (queue.getD place 0)

theorem elements_pairs (element : Element) (count : Nat) (queue : List Nat) :
    pairs.elements element count queue =
      joinBytePairs.all (takeIncoming .byte (2 * count) queue) := by
  rw [takeIncoming_eq_map, joinBytePairs_range]
  rfl

theorem elements_pairsAfterDummy (element : Element) (count : Nat) (queue : List Nat) :
    pairsAfterDummy.elements element count queue =
      joinBytePairs.all ((takeIncoming .byte (2 * count + 1) queue).drop 1) := by
  rw [takeIncoming_eq_map, List.range_succ_eq_map, List.map_cons, List.drop_succ_cons, List.drop_zero,
    List.map_map, joinBytePairs_range]
  rfl

theorem length_elements (delivery : Delivery) (element : Element) (count : Nat) (queue : List Nat) :
    (delivery.elements element count queue).length = count := by
  rw [elements, List.length_map, List.length_range]

end Delivery

/-- Pairs of bytes are 16-bit elements. -/
def Delivery.Suits (delivery : Delivery) (element : Element) : Prop :=
  delivery = .whole ∨ element = .half

theorem Delivery.Suits.elements_lt {delivery : Delivery} {element : Element}
    (suits : delivery.Suits element) (count : Nat) (queue : List Nat) :
    ∀ value ∈ delivery.elements element count queue, value < element.modulus := by
  have byte (place : Nat) : Delivery.elements.byteAt queue place < 256 := Nat.mod_lt _ (by decide)
  have pair (high low : Nat) :
      elements.byteAt queue high * 256 + elements.byteAt queue low < Element.half.modulus := by
    have := byte high
    have := byte low
    show _ < 65536
    omega
  intro value member
  obtain ⟨place, -, rfl⟩ := List.mem_map.mp member
  cases delivery with
  | whole => exact element.truncate_lt _
  | pairs => exact (suits.resolve_left nofun) ▸ pair _ _
  | pairsAfterDummy => exact (suits.resolve_left nofun) ▸ pair _ _

/-- **The plan delivers what is asked for**: it takes that much of the queue, and gives what that
makes. -/
structure ReadPlan.Delivers (plan : ReadPlan) (delivery : Delivery) (request : ReadRequest) : Prop where
  suits : delivery.Suits request.element
  receives : ∃ element, plan.Receives element (delivery.taken request.count) ∧
    ∀ queue, plan.gives (takeIncoming element (delivery.taken request.count) queue) =
      delivery.elements request.element request.count queue

namespace Link

/-- How elements of a width come over the link. -/
def delivery (link : Link) (width : Width) : Delivery :=
  match link.mode with
  | .opened _ => .pairsAfterDummy
  | _ => if link.JoinsPairs width then .pairs else .whole

variable {link : Link}

theorem sends_segments (outgoing : Outgoing) : ∀ segment ∈ link.segments outgoing, segment.Sends := by
  intro segment member
  rcases List.mem_append.mp member with opens | carries
  · obtain ⟨layout, -, rfl⟩ := Option.map_eq_some_iff.mp (Option.mem_toList.mp opens)
    exact ⟨_, rfl⟩
  · obtain ⟨slice, -, rfl⟩ := List.mem_map.mp carries
    exact ⟨slice.words, rfl⟩

theorem sends_mapMoves (handleOf : Slice → Handle) (held : List Handle) (slices : List Slice) :
    ∀ move ∈ mapMoves handleOf held slices, move.Sends := by
  induction slices generalizing held with
  | nil => exact fun _ member => absurd member List.not_mem_nil
  | cons slice rest ih =>
    intro move member
    rcases List.mem_cons.mp member with rfl | later
    · trivial
    · exact ih (handleOf slice :: held) move later

theorem sends_messageMoves (outgoing : Outgoing) :
    ∀ move ∈ link.messageMoves outgoing, move.Sends := by
  intro move member
  unfold messageMoves at member
  split at member
  · rcases List.mem_append.mp member with maps | later
    · exact sends_mapMoves _ _ _ move maps
    · rcases List.mem_cons.mp later with rfl | releases
      · exact sends_segments outgoing
      · obtain ⟨handle, -, rfl⟩ := List.mem_map.mp releases
        trivial
  · rw [List.mem_singleton.mp member]
    exact sends_segments outgoing

theorem sends_phaseScript (selector : Selector) (clock : Option Nat) (words : Words) (width : Width)
    (places : Places) :
    ∀ move ∈ (link.phaseScript selector clock words width places).moves, move.Sends := by
  intro move member
  rcases List.mem_append.mp member with line | sent
  · unfold selectorMoves at line
    split at line
    · cases line
    · split at line
      · rw [List.mem_singleton.mp line]
        trivial
      · cases line
  · obtain ⟨outgoing, -, inMessage⟩ := List.mem_flatMap.mp sent
    exact sends_messageMoves outgoing move inMessage

theorem sends_selectSegment {width : Width} {register : Nat} {select : Segment}
    (selected : link.selectSegment width register = .ok select) : select.Sends := by
  unfold selectSegment at selected
  split at selected
  · split at selected <;> cases selected <;> exact ⟨_, rfl⟩
  · split at selected
    · cases selected
      exact ⟨_, rfl⟩
    · split at selected <;> cases selected <;> exact ⟨_, rfl⟩
    · cases selected

theorem sends_selectMoves (link : Link) (selector : Selector) {select : Segment} (sends : select.Sends) :
    ∀ move ∈ link.selectMoves selector select, move.Sends := by
  intro move member
  rcases link.mem_selectMoves member with ⟨name, level, rfl⟩ | rfl
  · trivial
  · intro segment member
    rw [List.mem_singleton.mp member]
    exact sends

variable {context : Context} {register : Nat} {request : ReadRequest} {plan : ReadPlan}

theorem opens_plainRead {width : Width} {select : Segment} (sends : select.Sends) :
    ∀ segment ∈ (link.plainRead request width select).opening, segment.Sends := by
  intro segment member
  cases selector : request.selector with
  | data => simp [plainRead, selector] at member
  | command =>
    simp only [plainRead, selector, Option.mem_def, Option.some.injEq] at member
    exact member ▸ sends

/-- A plain read takes bytes in pairs where the controller has no words of 16 bits, and elements as
they are everywhere else. -/
theorem delivers_plainRead {width : Width} {select : Segment} (sends : select.Sends)
    (fits : request.element = width.element) :
    (link.plainRead request width select).Delivers
      (if link.JoinsPairs width then .pairs else .whole) request := by
  have leads := link.sends_selectMoves request.selector sends
  have opens : ∀ segment ∈ (link.plainRead request width select).opening, segment.Sends :=
    opens_plainRead sends
  by_cases pairs : link.JoinsPairs width
  · rw [if_pos pairs]
    have halves : request.element = .half := by rw [fits, pairs.1]; rfl
    refine ⟨Or.inr halves, .byte, ⟨leads, opens, ?_⟩, fun queue => ?_⟩
    · rw [plainRead, stretch, if_pos pairs, Nat.mul_comm]
      rfl
    · rw [plainRead, if_pos pairs, Delivery.elements_pairs]
      exact if_pos halves
  · rw [if_neg pairs]
    refine ⟨Or.inl rfl, request.element, ⟨leads, opens, ?_⟩, fun queue => ?_⟩
    · rw [plainRead, stretch, if_neg pairs]
      rfl
    · rw [plainRead, if_neg pairs, takeIncoming_eq_map]
      rfl

theorem delivers_openedRead (layout : OpeningByte) (halves : request.element = .half) :
    (link.openedRead layout context register request).Delivers .pairsAfterDummy request := by
  refine ⟨Or.inr halves, .byte, ⟨sends_phaseScript _ _ _ _ _, ?_, ?_⟩, fun queue => ?_⟩
  · intro segment member
    exact (Option.some.inj member) ▸ ⟨_, rfl⟩
  · rw [openedRead, Nat.mul_comm]
    rfl
  · exact (Delivery.elements_pairsAfterDummy _ _ _).symm

/-- **Every plan delivers** as the link does. -/
theorem delivers_of_readPlan (planned : link.readPlan context register request = .ok plan)
    (fits : request.element = (request.effectiveWidth context.width).element) :
    plan.Delivers (link.delivery (request.effectiveWidth context.width)) request := by
  have plain (planned : link.plainPlan context register request = .ok plan) :
      plan.Delivers
        (if link.JoinsPairs (request.effectiveWidth context.width) then .pairs else .whole)
        request := by
    obtain ⟨same, -, select, selected, rfl⟩ := plainPlan_eq_ok.mp planned
    rw [same] at fits ⊢
    exact delivers_plainRead (sends_selectSegment selected) fits
  unfold readPlan at planned
  unfold delivery
  cases mode : link.mode with
  | fourWire => exact plain (by rwa [mode] at planned)
  | threeWire => exact plain (by rwa [mode] at planned)
  | opened layout =>
    rw [mode] at planned
    obtain ⟨-, halves, rfl⟩ := openedPlan_eq_ok.mp planned
    exact delivers_openedRead layout halves

/-- **What a read takes and gives**, whatever fails: the next elements if it succeeds, and otherwise
nothing. -/
theorem read_takes (link : Link) (context : Context) (register : Nat)
    (fits : request.element = (request.effectiveWidth context.width).element)
    (bench : Bench) :
    let delivery := link.delivery (request.effectiveWidth context.width)
    (∃ error after, (link.read context register request).run bench = (.failed error, after) ∧
      after.incoming = bench.incoming) ∨
    delivery.Suits request.element ∧ ∃ after, (link.read context register request).run bench =
        (.complete (delivery.elements request.element request.count bench.incoming), after) ∧
      after.incoming = bench.incoming.drop (delivery.taken request.count) := by
  intro delivery
  rw [read_eq]
  cases planned : link.readPlan context register request with
  | error error => exact Or.inl ⟨error, bench, rfl, rfl⟩
  | ok plan =>
    obtain ⟨suits, element, receives, gives⟩ := delivers_of_readPlan planned fits
    rcases receives.run_carryOut bench with ⟨error, after, ran, queue⟩ | ⟨after, ran, queue⟩
    · exact Or.inl ⟨error, after, ReadPlan.run_read ran, queue⟩
    · rw [gives] at ran
      exact Or.inr ⟨suits, after, ReadPlan.run_read ran, queue⟩

/-! ### Reads without faults -/

/-- **Whether the link can carry a read** of elements of a width. -/
def Reads (link : Link) (default width : Width) : Prop :=
  match link.mode with
  | .opened _ => width = .bits16 ∧ link.Sends default 1
  | _ => width = default ∧ (default = .bits8 ∨ default = .bits16)

theorem exists_selectSegment (link : Link) {width : Width} (readable : width = .bits8 ∨ width = .bits16)
    (register : Nat) : ∃ select, link.selectSegment width register = .ok select := by
  unfold selectSegment
  split
  · split <;> exact ⟨_, rfl⟩
  · rcases readable with rfl | rfl
    · exact ⟨_, rfl⟩
    · dsimp only
      split <;> exact ⟨_, rfl⟩

/-- The reads that have a plan which comes to success are those that the link can carry. -/
theorem reads_iff (link : Link) (context : Context) (register : Nat)
    (fits : request.element = (request.effectiveWidth context.width).element) :
    (∃ plan, link.readPlan context register request = .ok plan ∧ plan.lead.verdict = .ok ()) ↔
      link.Reads context.width (request.effectiveWidth context.width) := by
  have plain : (∃ plan, link.plainPlan context register request = .ok plan ∧
      plan.lead.verdict = .ok ()) ↔
      request.effectiveWidth context.width = context.width ∧
        (context.width = .bits8 ∨ context.width = .bits16) := by
    constructor
    · rintro ⟨plan, planned, -⟩
      obtain ⟨same, even, -⟩ := plainPlan_eq_ok.mp planned
      exact ⟨same, even⟩
    · rintro ⟨same, even⟩
      obtain ⟨select, selected⟩ := link.exists_selectSegment even register
      exact ⟨_, plainPlan_eq_ok.mpr ⟨same, even, select, selected, rfl⟩, rfl⟩
  unfold readPlan Reads
  cases link.mode with
  | fourWire => exact plain
  | threeWire => exact plain
  | opened layout =>
    dsimp only
    have word : (registerWord register context.width).element = context.width.element := rfl
    constructor
    · rintro ⟨plan, planned, succeeds⟩
      obtain ⟨wide, -, rfl⟩ := openedPlan_eq_ok.mp planned
      refine ⟨wide, not_not.mp fun unsent => ?_⟩
      obtain ⟨-, -, error, failed⟩ := endsAt_of_not_sends word (List.cons_ne_nil _ _) unsent .command
        (context.writeClock .command link.clock) link.selectPlaces
      cases failed.symm.trans succeeds
    · rintro ⟨wide, sends⟩
      rw [wide] at fits
      exact ⟨_, openedPlan_eq_ok.mpr ⟨wide, fits, rfl⟩, verdict_of_sends word sends _ _ _⟩

/-- The plan of a read asks for mappings only if the controller has them. -/
theorem canMap_of_mem_readPlan (planned : link.readPlan context register request = .ok plan)
    {event : Event} (member : event ∈ plan.events) (maps : event.triesMapping = true) :
    link.canMap = true := by
  have plain (planned : link.plainPlan context register request = .ok plan)
      (member : event ∈ plan.lead.events) : link.canMap = true := by
    obtain ⟨-, -, select, -, rfl⟩ := plainPlan_eq_ok.mp planned
    obtain ⟨move, inMoves, rfl⟩ := List.mem_map.mp member
    rcases link.mem_selectMoves inMoves with ⟨name, level, rfl⟩ | rfl <;> cases maps
  rcases List.mem_append.mp member with leads | ends
  · unfold readPlan at planned
    cases mode : link.mode with
    | fourWire => exact plain (by rwa [mode] at planned) leads
    | threeWire => exact plain (by rwa [mode] at planned) leads
    | opened layout =>
      rw [mode] at planned
      obtain ⟨-, -, rfl⟩ := openedPlan_eq_ok.mp planned
      exact link.canMap_of_mem_phaseScript leads maps
  · split at ends
    · rw [List.mem_singleton.mp ends] at maps
      cases maps
    · cases ends

/-- **Without faults** a read succeeds exactly if the link can carry it, and there are no faults
afterwards. -/
theorem read_without_faults (link : Link) (context : Context) (register : Nat)
    (fits : request.element = (request.effectiveWidth context.width).element) {bench : Bench}
    (faultless : bench.Faultless link.canMap) :
    (((link.read context register request).run bench).1.outcome = .ok () ↔
      link.Reads context.width (request.effectiveWidth context.width)) ∧
    ((link.read context register request).run bench).2.Faultless link.canMap := by
  rw [← link.reads_iff context register fits, read_eq]
  cases planned : link.readPlan context register request with
  | error error => exact ⟨⟨nofun, fun ⟨_, made, _⟩ => nomatch made⟩, faultless⟩
  | ok plan =>
    obtain ⟨outcome, after, ran, verdict, tried⟩ := plan.run_of_accepts
      (faultless.accepts fun event member => canMap_of_mem_readPlan planned member)
    dsimp only
    rw [ReadPlan.run_read ran]
    refine ⟨?_, tried.faultless faultless⟩
    simp only [Except.ok.injEq, exists_eq_left']
    rw [← verdict]
    cases outcome with
    | ok values => exact ⟨fun _ => rfl, fun _ => rfl⟩
    | error error => exact ⟨nofun, nofun⟩

end Link

/-! ### Calls in a row -/

/-- One read of a register into a buffer. -/
structure ReadCall where
  settings : BankSettings
  register : Nat
  buffer : Words
  selector : Selector := .data
  /-- The width at which each element travels, if it is not the default. -/
  width : Option Width := none

namespace ReadCall

variable (link : Link) (call : ReadCall)

def request : ReadRequest where
  selector := call.selector
  element := call.buffer.element
  count := call.buffer.length
  width := call.width

def effectiveWidth : Width :=
  call.request.effectiveWidth call.settings.width

def context : Context where
  width := call.settings.width
  deviations := call.settings.deviations

/-- The request with its width settled. -/
def settled : ReadRequest :=
  { call.request with width := some call.effectiveWidth }

def delivery : Delivery :=
  link.delivery call.effectiveWidth

/-- **Whether the call can succeed**: the bank is readable, there is a buffer of elements of the width,
and the link can carry the read. -/
def Legal : Prop :=
  call.settings.readable = true ∧ call.buffer.length ≠ 0 ∧
    call.buffer.element = call.effectiveWidth.element ∧
    link.Reads call.settings.width call.effectiveWidth

/-- The call, through a bank over the link: how it ends, and the buffer afterwards. -/
def make : BenchM (Except AccessError Unit × Words) := do
  let reading ← RegisterBank.read ⟨link.channel, call.settings⟩ call.register call.request
  return (reading.outcome, call.buffer.overwrite reading.values)

/-- Calls in a row, each on what the one before has left. -/
def makeAll : List ReadCall → BenchM (List (Except AccessError Unit × Words))
  | [] => return []
  | call :: calls => do
    let answer ← call.make link
    return answer :: (← makeAll calls)

end ReadCall

/-- **Calls answered in order from a queue.** A call that succeeds has filled its buffer with what the
front of the queue makes, and the next call finds the rest; a call that fails has changed neither its
buffer nor the queue. -/
inductive Served (link : Link) :
    List Nat → List ReadCall → List (Except AccessError Unit × Words) → List Nat → Prop
  | done (queue : List Nat) : Served link queue [] [] queue
  | filled {queue rest : List Nat} {call : ReadCall} {calls : List ReadCall}
      {answers : List (Except AccessError Unit × Words)} {filled : Words}
      (element : filled.element = call.buffer.element)
      (values : filled.values =
        (call.delivery link).elements call.buffer.element call.buffer.length queue)
      (later : Served link (queue.drop ((call.delivery link).taken call.buffer.length)) calls answers
        rest) :
      Served link queue (call :: calls) ((.ok (), filled) :: answers) rest
  | failed {queue rest : List Nat} {call : ReadCall} {calls : List ReadCall}
      {answers : List (Except AccessError Unit × Words)} (error : AccessError)
      (later : Served link queue calls answers rest) :
      Served link queue (call :: calls) ((.error error, call.buffer) :: answers) rest

namespace ReadCall

variable {link : Link} {call : ReadCall}

/-- A bank refuses a call at once, or it hands it to the link with its width settled. -/
theorem bank_read_cases (link : Link) (call : ReadCall) :
    (¬call.Legal link ∧ ∃ error,
      RegisterBank.read ⟨link.channel, call.settings⟩ call.register call.request =
        pure (.failed error)) ∨
    call.settled.element = (call.settled.effectiveWidth call.context.width).element ∧
      (call.Legal link ↔ link.Reads call.settings.width call.effectiveWidth) ∧
      RegisterBank.read ⟨link.channel, call.settings⟩ call.register call.request =
        link.read call.context call.register call.settled := by
  unfold RegisterBank.read
  dsimp only
  by_cases readable : call.settings.readable = true
  · rw [readable, Bool.not_true, if_neg Bool.false_ne_true]
    by_cases empty : call.buffer.length = 0
    · exact Or.inl ⟨fun legal => legal.2.1 empty, _, if_pos empty⟩
    rw [if_neg (show ¬call.request.count = 0 from empty)]
    by_cases fits : call.buffer.element = call.effectiveWidth.element
    · refine Or.inr ⟨fits, ⟨fun legal => legal.2.2.2, fun reads => ?_⟩, ?_⟩
      · exact ⟨readable, empty, fits, reads⟩
      · exact if_neg (not_not_intro fits)
    · exact Or.inl ⟨fun legal => fits legal.2.2.1, _, if_pos fits⟩
  · rw [Bool.eq_false_iff.mpr readable, Bool.not_false, if_pos rfl]
    exact Or.inl ⟨fun legal => readable legal.1, _, rfl⟩

theorem run_make {bench after : Bench} {reading : Reading AccessError}
    (ran : (RegisterBank.read ⟨link.channel, call.settings⟩ call.register call.request).run bench =
      (reading, after)) :
    (call.make link).run bench = ((reading.outcome, call.buffer.overwrite reading.values), after) := by
  unfold make
  rw [StateT.run_bind, ran]
  rfl

/-- **One call**, whatever fails. -/
theorem make_takes (link : Link) (call : ReadCall) (bench : Bench) :
    (∃ error after, (call.make link).run bench = ((.error error, call.buffer), after) ∧
      after.incoming = bench.incoming) ∨
    ∃ filled after, (call.make link).run bench = ((.ok (), filled), after) ∧
      filled.element = call.buffer.element ∧
      filled.values =
        (call.delivery link).elements call.buffer.element call.buffer.length bench.incoming ∧
      after.incoming =
        bench.incoming.drop ((call.delivery link).taken call.buffer.length) := by
  have failed {error : AccessError} {after : Bench}
      (ran : (RegisterBank.read ⟨link.channel, call.settings⟩ call.register call.request).run bench =
        (.failed error, after)) :
      (call.make link).run bench = ((.error error, call.buffer), after) := by
    rw [run_make ran]
    exact congrArg (fun buffer => ((Except.error error, buffer), after)) call.buffer.overwrite_nil
  rcases bank_read_cases link call with ⟨-, error, refused⟩ | ⟨fits, -, handed⟩
  · exact Or.inl ⟨error, bench, failed (by rw [refused]; rfl), rfl⟩
  · rcases link.read_takes call.context call.register fits bench with
      ⟨error, after, ran, queue⟩ | ⟨suits, after, ran, queue⟩
    · exact Or.inl ⟨error, after, failed (by rw [handed, ran]), queue⟩
    · have made := run_make (by rw [handed, ran])
      refine Or.inr ⟨_, after, made, rfl, ?_, queue⟩
      refine (Words.overwrite_all (Delivery.length_elements _ _ _ _)).trans ?_
      exact (List.map_congr_left fun value member =>
        Element.truncate_of_lt (suits.elements_lt _ _ value member)).trans (List.map_id _)

/-- **One call without faults** succeeds exactly if it is legal. -/
theorem make_without_faults (link : Link) (call : ReadCall) {bench : Bench}
    (faultless : bench.Faultless link.canMap) :
    (((call.make link).run bench).1.1 = .ok () ↔ call.Legal link) ∧
      ((call.make link).run bench).2.Faultless link.canMap := by
  rcases bank_read_cases link call with ⟨illegal, error, refused⟩ | ⟨fits, legal, handed⟩
  · have failed : (RegisterBank.read ⟨link.channel, call.settings⟩ call.register call.request).run
        bench = (.failed error, bench) := by rw [refused]; rfl
    rw [run_make failed]
    exact ⟨⟨nofun, fun legal => absurd legal illegal⟩, faultless⟩
  · rw [legal, run_make (Prod.mk.eta.symm), handed]
    exact link.read_without_faults call.context call.register fits faultless

end ReadCall

/-- **Reads in turn.** Over any link, calls in a row on any bench, whatever is planned to fail, are
answered in order from the queue of the controller: a call that succeeds has filled its buffer with the
next elements and has taken exactly what these are made of, and a call that fails has changed neither
its buffer nor the queue. On a bench without faults the calls that succeed are those that the bank and
the link can carry. -/
theorem reads_in_turn (link : Link) (bench : Bench) (calls : List ReadCall) :
    ∃ answers after, (ReadCall.makeAll link calls).run bench = (answers, after) ∧
      Served link bench.incoming calls answers after.incoming ∧
      (bench.Faultless link.canMap →
        List.Forall₂ (fun call answer => answer.1 = .ok () ↔ call.Legal link) calls answers) := by
  induction calls generalizing bench with
  | nil => exact ⟨[], bench, rfl, .done _, fun _ => .nil⟩
  | cons call calls ih =>
    obtain ⟨answers, after, ran, served, legal⟩ := ih ((call.make link).run bench).2
    refine ⟨((call.make link).run bench).1 :: answers, after, ?_, ?_, fun faultless => ?_⟩
    · show ((call.make link) >>= _).run bench = _
      rw [StateT.run_bind]
      show (ReadCall.makeAll link calls >>= _).run _ = _
      rw [StateT.run_bind, ran]
      rfl
    · rcases call.make_takes link bench with
        ⟨error, middle, made, queue⟩ | ⟨filled, middle, made, element, values, queue⟩
      · rw [made] at served ⊢
        exact .failed error (queue ▸ served)
      · rw [made] at served ⊢
        exact .filled element values (queue ▸ served)
    · obtain ⟨ends, still⟩ := call.make_without_faults link faultless
      exact .cons ends (legal still)

/-- A controller that clocks bytes only: a 16-bit element in two of them, a read that is refused, and
the next element. -/
example :
    let link : Link :=
      { mode := .fourWire, selectorLine := .line .selector, reset := .absent, config := {}
        mask := .bytesOnly, clock := 10000000, canMap := false
        handleOf := Slice.inPlace, layout := .paged }
    let read (readable : Bool) : ReadCall :=
      { settings := { width := .bits16, readable }, register := 0, buffer := Words.ofList .half [7] }
    let bench : Bench := { incoming := [0x12, 0x34, 0x56, 0x78, 0x9A] }
    (((ReadCall.makeAll link [read true, read false, read true]).run bench).1.map (·.2.values),
      ((ReadCall.makeAll link [read true, read false, read true]).run bench).2.incoming) =
      ([[0x1234], [7], [0x5678]], [0x9A]) := by
  decide +kernel

end PanelLink.Spi
