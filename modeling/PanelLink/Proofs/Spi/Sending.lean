/-
**What the sending of a block and of a phase adds to the log.**

A block goes out as its messages in order. With mapping, each message stands between the mappings of
its segments and their releases; without, it stands alone.

* `messageEvents`, `Link.blockEvents`, `Link.phaseEvents`: the events of a message, a block and a
  phase that succeed;
* `emits_sendMessage`, `Link.emits_sendBlock`, `Link.log_sendPhase`: they are what is added;
* `Link.log_write`: a write that succeeds adds the events of its phases;
* `Link.succeeds_sendBlock`: without faults a block always goes out.
-/

import PanelLink.Proofs.BankWrites
import PanelLink.Proofs.Bench.Trace
import PanelLink.Spi.Link

namespace PanelLink.Spi

/-! ### Mapping and releasing -/

section Mapping

variable (handleOf : Slice → Handle)

/-- A slice that can be mapped is mapped. -/
theorem run_mapBuffer {bench : Bench} (mappable : bench.withoutMapping = false)
    (works : bench.mappingFails bench.mappingAttempts = false) (slice : Slice) :
    (mapBuffer handleOf slice).run.run bench = (.ok (handleOf slice),
      { bench with mappingAttempts := bench.mappingAttempts + 1 }.record
        (.mapped slice (some (handleOf slice)))) := by
  change (if bench.withoutMapping then _ else _ : BenchM _) bench = _
  rw [mappable]
  simp only [Bool.false_eq_true, if_false, works]
  rfl

/-- A mapping that is made adds its event, and the controller answers with its handle. -/
theorem log_mapBuffer {slice : Slice} {handle : Handle} {bench after : Bench}
    (ran : (mapBuffer handleOf slice).run.run bench = (.ok handle, after)) :
    handle = handleOf slice ∧ after.log = .mapped slice (some handle) :: bench.log := by
  cases mappable : bench.withoutMapping with
  | true =>
    change (if bench.withoutMapping then _ else _ : BenchM _) bench = _ at ran
    rw [mappable] at ran
    cases ran
  | false =>
    cases works : bench.mappingFails bench.mappingAttempts with
    | true =>
      change (if bench.withoutMapping then _ else _ : BenchM _) bench = _ at ran
      rw [mappable] at ran
      simp only [Bool.false_eq_true, if_false, works] at ran
      cases ran
    | false =>
      rw [run_mapBuffer handleOf mappable works] at ran
      cases ran
      exact ⟨rfl, rfl⟩

/-- Mapping goes on only while it succeeds. -/
theorem run_mapBuffers_cons (held : List Handle) (slice : Slice) (rest : List Slice)
    (bench : Bench) :
    (mapBuffers handleOf held (slice :: rest)).run bench =
      match (mapBuffer handleOf slice).run.run bench with
      | (.ok handle, middle) => (mapBuffers handleOf (handle :: held) rest).run middle
      | (.error _, middle) => ((held, false), middle) := by
  rw [mapBuffers, StateT.run_bind]
  rcases (mapBuffer handleOf slice).run.run bench with ⟨outcome | outcome, middle⟩ <;> rfl

/-- Mappings that are all made are all held, the latest first. -/
theorem log_mapBuffers {held mapped : List Handle} {slices : List Slice} {bench after : Bench}
    (ran : (mapBuffers handleOf held slices).run bench = ((mapped, true), after)) :
    mapped = (slices.map handleOf).reverse ++ held ∧
      after.log =
        (slices.map fun slice => Event.mapped slice (some (handleOf slice))).reverse ++ bench.log := by
  induction slices generalizing held bench with
  | nil =>
    cases ran
    exact ⟨rfl, rfl⟩
  | cons slice rest ih =>
    rw [run_mapBuffers_cons] at ran
    cases outcome : (mapBuffer handleOf slice).run.run bench with
    | mk result middle =>
      rw [outcome] at ran
      cases result with
      | error failure => cases ran
      | ok handle =>
        obtain ⟨rfl, logged⟩ := log_mapBuffer handleOf outcome
        obtain ⟨all, log⟩ := ih ran
        refine ⟨by rw [all, List.map_cons, List.reverse_cons, List.append_assoc]; rfl, ?_⟩
        rw [log, logged]
        simp only [List.map_cons, List.reverse_cons, List.append_assoc, List.singleton_append]

/-- Without faults every slice is mapped. -/
theorem mapBuffers_of_faultless {bench : Bench} (faultless : bench.Faultless true)
    (held : List Handle) (slices : List Slice) :
    ∃ mapped after, (mapBuffers handleOf held slices).run bench = ((mapped, true), after) ∧
      after.Faultless true := by
  induction slices generalizing held bench with
  | nil => exact ⟨held, bench, rfl, faultless⟩
  | cons slice rest ih =>
    rw [run_mapBuffers_cons, run_mapBuffer handleOf (faultless.mappable rfl) (faultless.mappings _)]
    have still : ({ bench with mappingAttempts := bench.mappingAttempts + 1 }.record
        (.mapped slice (some (handleOf slice)))).Faultless true :=
      faultless.congr rfl rfl rfl fun name => by cases name <;> rfl
    exact ih still (handleOf slice :: held)

end Mapping

/-- An action that cannot fail does the same as part of one that can. -/
theorem run_lift_eq_ok_iff {ε α : Type} {action : BenchM α} {bench after : Bench} {value : α} :
    (ExceptT.lift action : ExceptT ε BenchM α).run.run bench = (.ok value, after) ↔
      action.run bench = (value, after) := by
  show (Except.ok (action.run bench).1, (action.run bench).2) = (Except.ok value, after) ↔ _
  rw [Prod.ext_iff, Prod.ext_iff, Except.ok.injEq]

/-- Releasing a mapping is one event. -/
theorem emits_unmapBuffer {ε : Type} (handle : Handle) :
    Emits (ExceptT.lift (unmapBuffer handle) : ExceptT ε BenchM Unit) [.unmapped handle] := by
  intro bench value after ran
  cases ran
  rfl

/-! ### One message -/

section Message

variable (handleOf : Slice → Handle) (opening : Option Segment) (segment : Words → Segment)

/-- The events of a message of a block that succeeds. -/
def messageEvents (mapping : Bool) (message : List Slice) : List Event :=
  if mapping then
    (message.map fun slice => Event.mapped slice (some (handleOf slice))) ++
      .message (opening.toList ++ message.map fun slice =>
        { segment slice.words with mapping := some (handleOf slice) }) ::
      (message.map handleOf).reverse.map Event.unmapped
  else [.message (opening.toList ++ message.map fun slice => segment slice.words)]

/-- A message that succeeds adds its events. -/
theorem emits_sendMessage (mapping : Bool) (message : List Slice) :
    Emits (sendMessage handleOf opening segment mapping message)
      (messageEvents handleOf opening segment mapping message) := by
  cases mapping with
  | false => exact ((emits_exchange _).adapt _).bind fun _ => Emits.pure ()
  | true =>
    intro bench value after ran
    obtain ⟨⟨held, complete⟩, mapped, mapping, rest⟩ := run_bind_eq_ok ran
    cases complete with
    | false =>
      obtain ⟨_, _, -, thrown⟩ := run_bind_eq_ok rest
      cases thrown
    | true =>
      obtain ⟨sent, sentBench, sending, rest⟩ := run_bind_eq_ok rest
      obtain ⟨_, released, releasing, rest⟩ := run_bind_eq_ok rest
      cases sent with
      | error failure => cases rest
      | ok received =>
        cases rest
        obtain ⟨rfl, log⟩ := log_mapBuffers handleOf (run_lift_eq_ok_iff.mp mapping)
        rw [List.append_nil, List.reverse_reverse, mappedSegments_map] at sending
        rw [List.append_nil] at releasing
        have sentLog := emits_exchange _ _ _ _ (run_lift_eq_ok_iff.mp sending)
        have releasedLog := Emits.forM (fun handle _ => emits_unmapBuffer handle) _ _ _ releasing
        rw [releasedLog, sentLog, log, messageEvents, if_pos rfl, ← List.map_eq_flatMap]
        simp only [List.reverse_append, List.reverse_cons, List.reverse_nil, List.nil_append,
          List.append_assoc]

/-- Without faults a message goes out; only a message that is mapped needs a controller that maps. -/
theorem succeeds_sendMessage {maps mapping : Bool} (able : mapping = true → maps = true)
    (message : List Slice) : Succeeds maps (sendMessage handleOf opening segment mapping message) := by
  cases mapping with
  | false => exact ((succeeds_exchange maps _).adapt _).bind fun _ => Succeeds.pure ()
  | true =>
    obtain rfl := able rfl
    intro bench faultless
    obtain ⟨held, mapped, mapping, ready⟩ := mapBuffers_of_faultless handleOf faultless [] message
    obtain ⟨received, sent, sending, still⟩ := succeeds_exchange true
      (opening.toList ++ mappedSegments segment message held.reverse) mapped ready
    have unmaps (handle : Handle) : Succeeds true
        (ExceptT.lift (unmapBuffer handle) : ExceptT AccessError BenchM Unit) := fun start fine =>
      ⟨(), _, rfl, fine.congr rfl rfl rfl fun name => by cases name <;> rfl⟩
    have unmapsAll : Succeeds true (held.forM fun handle => (ExceptT.lift (unmapBuffer handle) :
        ExceptT AccessError BenchM Unit)) := Succeeds.forM fun handle _ => unmaps handle
    obtain ⟨_, after, releasing, last⟩ := unmapsAll sent still
    refine ⟨(), after, ?_, last⟩
    refine (run_bind_ok (run_lift_eq_ok_iff.mpr mapping)).trans ?_
    refine (run_bind_ok (run_lift_eq_ok_iff.mpr sending)).trans ?_
    exact run_bind_ok releasing

end Message

namespace Link

/-! ### One block -/

/-- The events of a block that succeeds. -/
def blockEvents (link : Link) (selector : Selector) (clock : Option Nat) (block : Block) :
    List Event :=
  let opening := link.opening selector false clock
  (link.cutter.messages opening.isSome block).flatMap
    (messageEvents link.handleOf opening
      (fun words => { payload := .transmit words, bits := block.bits, clock })
      (link.mapsBlock selector block))

theorem emits_sendBlock (link : Link) (selector : Selector) (clock : Option Nat) (block : Block) :
    Emits (link.sendBlock selector clock block) (link.blockEvents selector clock block) :=
  Emits.forM fun message _ => emits_sendMessage _ _ _ _ message

/-- Without faults a block goes out. -/
theorem succeeds_sendBlock (link : Link) (selector : Selector) (clock : Option Nat)
    (block : Block) : Succeeds link.canMap (link.sendBlock selector clock block) := by
  have able (maps : link.mapsBlock selector block = true) : link.canMap = true := by
    simp only [mapsBlock, Bool.and_eq_true] at maps
    exact maps.1.2
  exact Succeeds.forM fun message _ => succeeds_sendMessage _ _ _ able message

/-! ### One phase -/

/-- The events of a phase that succeeds. -/
def phaseEvents (link : Link) (selector : Selector) (clock : Option Nat) (blocks : List Block) :
    List Event :=
  (if link.mode = .threeWire then [] else link.selectorLine.driven selector.isData) ++
    blocks.flatMap (link.blockEvents selector clock)

/-- A phase first sees to the selector and then to the blocks. -/
theorem sendPhase_eq (link : Link) (selector : Selector) (clock : Option Nat) (words : Words)
    (width : Width) (places : Places) :
    link.sendPhase selector clock words width places =
      (if link.mode = .threeWire then pure () else link.driveSelector selector) >>= fun _ =>
        liftM (link.encoder.phase link.mode selector words width places) >>= fun blocks =>
          blocks.forM (link.sendBlock selector clock) := by
  unfold sendPhase
  by_cases threeWire : link.mode = .threeWire
  · rw [if_pos threeWire, if_neg fun differs => differs threeWire]
    rfl
  · rw [if_neg threeWire, if_pos threeWire]

/-- Events of a phase of these elements that succeeds. -/
def IsPhase (link : Link) (selector : Selector) (words : Words) (width : Width)
    (events : List Event) : Prop :=
  ∃ clock places blocks, link.encoder.phase link.mode selector words width places = .ok blocks ∧
    events = link.phaseEvents selector clock blocks

/-- **A phase that succeeds** has blocks, and adds the events of these. -/
theorem log_sendPhase {link : Link} {selector : Selector} {clock : Option Nat} {words : Words}
    {width : Width} {places : Places} {bench after : Bench}
    (ran : (link.sendPhase selector clock words width places).run.run bench = (.ok (), after)) :
    ∃ events, link.IsPhase selector words width events ∧
      after.log = events.reverse ++ bench.log := by
  rw [sendPhase_eq] at ran
  cases encoded : link.encoder.phase link.mode selector words width places with
  | error error =>
    rw [encoded] at ran
    obtain ⟨_, middle, -, rest⟩ := run_bind_eq_ok ran
    cases rest
  | ok blocks =>
    rw [encoded] at ran
    refine ⟨_, ⟨clock, places, blocks, encoded, rfl⟩, Emits.bind ?_ (fun _ => ?_) _ _ _ ran⟩
    · by_cases threeWire : link.mode = .threeWire
      · rw [if_pos threeWire, if_pos threeWire]
        exact Emits.pure ()
      · rw [if_neg threeWire, if_neg threeWire]
        exact emits_drive _ _
    · exact Emits.forM fun block _ => link.emits_sendBlock selector clock block

/-- Without faults a phase that has blocks goes out. -/
theorem succeeds_sendPhase {link : Link} {selector : Selector} {words : Words} {width : Width}
    {places : Places} {blocks : List Block}
    (encoded : link.encoder.phase link.mode selector words width places = .ok blocks)
    (clock : Option Nat) :
    Succeeds link.canMap (link.sendPhase selector clock words width places) := by
  rw [sendPhase_eq, encoded]
  refine Succeeds.bind ?_ fun _ => Succeeds.bind (Succeeds.pure blocks) fun _ => ?_
  · by_cases threeWire : link.mode = .threeWire
    · rw [if_pos threeWire]
      exact Succeeds.pure ()
    · rw [if_neg threeWire]
      exact succeeds_drive _ _ _
  · exact Succeeds.forM fun block _ => link.succeeds_sendBlock selector clock block

end Link

/-! ### One write -/

/-- What holds of the data phase of a write; without a payload there is no such phase. -/
def DataPhase (request : Option WriteRequest) (holds : WriteRequest → List Event → Prop)
    (events : List Event) : Prop :=
  match WriteRequest.nonempty? request with
  | some present => holds present events
  | none => events = []

theorem DataPhase.imp {request : Option WriteRequest}
    {holds other : WriteRequest → List Event → Prop} {events : List Event}
    (phase : DataPhase request holds events)
    (follows : ∀ present, holds present events → other present events) :
    DataPhase request other events := by
  unfold DataPhase at phase ⊢
  split
  · rename_i present some_payload
    rw [some_payload] at phase
    exact follows present phase
  · rename_i no_payload
    rwa [no_payload] at phase

/-- A write that succeeds adds the events of its phases. -/
theorem Link.log_write {link : Link} {context : Context} {register : Nat}
    {request : Option WriteRequest} {bench after : Bench}
    (ran : (link.write context register request).run.run bench = (.ok (), after)) :
    ∃ select data, after.log = (select ++ data).reverse ++ bench.log ∧
      link.IsPhase .command (registerWord register context.width) context.width select ∧
      DataPhase request (fun present => link.IsPhase present.selector present.words
        (present.effectiveWidth context.width)) data := by
  obtain ⟨_, middle, selecting, sending⟩ := run_bind_eq_ok ran
  obtain ⟨select, selected, selectLog⟩ := log_sendPhase selecting
  cases payload : WriteRequest.nonempty? request with
  | none =>
    rw [payload] at sending
    cases sending
    refine ⟨select, [], ?_, selected, ?_⟩
    · rw [List.append_nil, selectLog]
    · rw [DataPhase, payload]
  | some present =>
    rw [payload] at sending
    obtain ⟨data, sent, dataLog⟩ := log_sendPhase sending
    refine ⟨select, data, ?_, selected, ?_⟩
    · rw [dataLog, selectLog, List.reverse_append, List.append_assoc]
    · rw [DataPhase, payload]
      exact sent

end PanelLink.Spi

namespace PanelLink

/-- A request that a bank accepts reaches the channel with the width at which it travels. -/
theorem RegisterBank.write_eq_ok {bank : RegisterBank BenchM} {register : Nat}
    {request : Option WriteRequest} {bench after : Bench}
    (ran : (bank.write register request).run.run bench = (.ok (), after)) :
    ∃ resolved, bank.resolve request = .ok resolved ∧
      (bank.channel.write bank.context register resolved).run.run bench = (.ok (), after) := by
  cases settled : bank.resolve request with
  | error error =>
    obtain ⟨_, _, lifted, -⟩ := run_bind_eq_ok ran
    rw [settled] at lifted
    cases lifted
  | ok resolved =>
    rw [bank.write_of_resolve register settled] at ran
    exact ⟨resolved, rfl, ran⟩

/-- The channel has no part in settling the width. -/
theorem RegisterBank.resolve_mk {m : Type → Type} (channel other : Channel m)
    (settings : BankSettings) (request : Option WriteRequest) :
    (RegisterBank.mk channel settings).resolve request =
      (RegisterBank.mk other settings).resolve request :=
  rfl

/-- Settling the width leaves everything else of a payload as it was. -/
theorem RegisterBank.nonempty?_of_resolve {bank : RegisterBank BenchM}
    {request resolved : Option WriteRequest} (settled : bank.resolve request = .ok resolved) :
    WriteRequest.nonempty? resolved = (WriteRequest.nonempty? request).map fun present =>
      { present with width := some (present.effectiveWidth bank.config.width) } := by
  unfold resolve at settled
  cases payload : WriteRequest.nonempty? request with
  | none =>
    rw [payload] at settled
    cases settled
    rfl
  | some present =>
    rw [payload] at settled
    have filled : (!present.words.isEmpty) = true := (Option.filter_eq_some_iff.mp payload).2
    dsimp only at settled
    split at settled
    · cases settled
      exact if_pos filled
    · cases settled

/-- A write through a bank that succeeds adds the events of its phases. -/
theorem RegisterBank.log_write {link : Spi.Link} {settings : BankSettings} {register : Nat}
    {request : Option WriteRequest} {bench after : Bench}
    (ran : (RegisterBank.write ⟨link.channel, settings⟩ register request).run.run bench =
      (.ok (), after)) :
    ∃ select data, after.log = (select ++ data).reverse ++ bench.log ∧
      link.IsPhase .command (registerWord register settings.width) settings.width select ∧
      Spi.DataPhase request (fun present => link.IsPhase present.selector present.words
        (present.effectiveWidth settings.width)) data := by
  obtain ⟨resolved, settled, sent⟩ := write_eq_ok ran
  obtain ⟨select, data, log, selected, sending⟩ := Spi.Link.log_write sent
  refine ⟨select, data, log, selected, ?_⟩
  unfold Spi.DataPhase at sending ⊢
  rw [nonempty?_of_resolve settled] at sending
  cases payload : WriteRequest.nonempty? request with
  | none => rwa [payload] at sending
  | some present =>
    rw [payload] at sending
    exact sending

/-- Without faults a write succeeds if its request is in order and its phases have blocks. -/
theorem RegisterBank.succeeds_write {link : Spi.Link} {settings : BankSettings} {register : Nat}
    {request : Option WriteRequest} {resolved : Option WriteRequest}
    (settled : (RegisterBank.mk link.channel settings).resolve request = .ok resolved)
    (selects : ∃ blocks, link.encoder.phase link.mode .command
      (registerWord register settings.width) settings.width link.selectPlaces = .ok blocks)
    (sends : ∀ present, WriteRequest.nonempty? request = some present →
      ∃ blocks, link.encoder.phase link.mode present.selector present.words
        (present.effectiveWidth settings.width) (link.payloadPlaces present) = .ok blocks) :
    Succeeds link.canMap (RegisterBank.write ⟨link.channel, settings⟩ register request) := by
  have passed : RegisterBank.write ⟨link.channel, settings⟩ register request =
      link.write (RegisterBank.mk link.channel settings).context register resolved :=
    RegisterBank.write_of_resolve _ register settled
  obtain ⟨selectBlocks, selected⟩ := selects
  rw [passed]
  refine (Spi.Link.succeeds_sendPhase selected _).bind fun _ => ?_
  rw [nonempty?_of_resolve settled]
  cases payload : WriteRequest.nonempty? request with
  | none => exact Succeeds.pure ()
  | some present =>
    obtain ⟨blocks, encoded⟩ := sends present payload
    exact Spi.Link.succeeds_sendPhase encoded _

end PanelLink
