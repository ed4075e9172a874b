/-
**Mappings are released within the round of the message for which they were made.**

Whatever fails, an access shows one round after the other: a use of a line, or an attempt at a message
with the mappings of its segments around it.

* `Mapping`: a slice that was mapped and its handle, and `Attempt`: a message whose slices are mapped;
* `Round`: what an attempt at such a message shows, if it goes out, if it is refused and if a mapping
  that it needs is refused: each segment has the words and the handle of its own mapping;
* `InRounds`: an action shows rounds and nothing else, on every bench;
* `inRounds_sendMessage`: so does one message of a block;
* `Access`: one access to a register, and `Access.MayMap`: which of its messages are mapped;
* **`mappings_in_rounds`**: so does every access, and it releases what it maps.
-/

import PanelLink.Proofs.Spi.WriteScript

namespace PanelLink

variable {ε ε' α β : Type}

/-! ### Rounds -/

/-- A mapping that was made: what is mapped, and the handle with which the controller answered. -/
structure Mapping where
  slice : Slice
  handle : Handle
  deriving DecidableEq, Repr

namespace Mapping

def made (mapping : Mapping) : Event :=
  .mapped mapping.slice (some mapping.handle)

def released (mapping : Mapping) : Event :=
  .unmapped mapping.handle

/-- The words that are mapped, sent from their mapping. -/
def segment (send : Words → Segment) (mapping : Mapping) : Segment :=
  { send mapping.slice.words with mapping := some mapping.handle }

end Mapping

/-- A message of which slices are to be mapped. -/
structure Attempt where
  /-- The segments in front, which are sent as they are. -/
  lead : List Segment
  /-- How words are sent. -/
  send : Words → Segment
  /-- The slices that are mapped and then sent, a segment each. -/
  slices : List Slice

/-- **What an attempt at a message shows.** In every case each mapping that was made is released once,
after the attempt at the message or after the mapping that prevents it. -/
inductive Round (attempt : Attempt) : List Event → Prop where
  /-- Every slice has a mapping, and its segment has the words and the handle of that mapping. -/
  | sent {mappings : List Mapping} (all : mappings.map Mapping.slice = attempt.slices) :
      Round attempt (mappings.map Mapping.made ++
        .message (attempt.lead ++ mappings.map (Mapping.segment attempt.send)) ::
          mappings.reverse.map Mapping.released)
  | refused {mappings : List Mapping} (all : mappings.map Mapping.slice = attempt.slices) :
      Round attempt
        (mappings.map Mapping.made ++ .messageFailed :: mappings.reverse.map Mapping.released)
  /-- A mapping is refused, so no message is attempted. A controller without mappings shows nothing. -/
  | prevented {mappings : List Mapping} {slice : Slice} {rest : List Slice} {shown : List Event}
      (first : attempt.slices = mappings.map Mapping.slice ++ slice :: rest)
      (refusal : shown = [] ∨ shown = [.mapped slice none]) :
      Round attempt
        (mappings.map Mapping.made ++ (shown ++ mappings.reverse.map Mapping.released))

/-- What an action shows step by step: a use of a line, an attempt at a message for which nothing is
mapped, or an attempt at a message that may be mapped. -/
inductive IsRound (carries : Attempt → Prop) : List Event → Prop where
  | line (name : LineName) (use : LineUse) (outcome : UseOutcome) :
      IsRound carries [.line name use outcome]
  | plain {segments : List Segment} (unmapped : ∀ segment ∈ segments, segment.mapping = none) :
      IsRound carries [.message segments]
  | plainRefused : IsRound carries [.messageFailed]
  | mapped {attempt : Attempt} {round : List Event} (carried : carries attempt)
      (shows : Round attempt round) : IsRound carries round

/-- **An action shows rounds** and nothing else, whatever its outcome. -/
def InRounds (carries : Attempt → Prop) (action : ExceptT ε BenchM α) : Prop :=
  ∀ bench, ∃ rounds : List (List Event),
    (action.run.run bench).2.log = rounds.flatten.reverse ++ bench.log ∧
      ∀ round ∈ rounds, IsRound carries round

namespace InRounds

variable {carries : Attempt → Prop}

theorem settled (outcome : Except ε α) :
    InRounds carries (ExceptT.mk (Pure.pure outcome) : ExceptT ε BenchM α) :=
  fun _ => ⟨[], rfl, fun _ member => nomatch member⟩

theorem pure (value : α) : InRounds carries (Pure.pure value : ExceptT ε BenchM α) :=
  settled (.ok value)

theorem bind {first : ExceptT ε BenchM α} {next : α → ExceptT ε BenchM β}
    (inRounds : InRounds carries first) (inRoundsNext : ∀ value, InRounds carries (next value)) :
    InRounds carries (first >>= next) := by
  intro bench
  obtain ⟨rounds, log, each⟩ := inRounds bench
  cases outcome : first.run.run bench with
  | mk out middle =>
    rw [outcome] at log
    cases out with
    | error error =>
      rw [run_bind_error outcome]
      exact ⟨rounds, log, each⟩
    | ok value =>
      obtain ⟨later, logNext, eachNext⟩ := inRoundsNext value middle
      rw [run_bind_ok outcome]
      refine ⟨rounds ++ later, ?_, fun round member => ?_⟩
      · rw [logNext, log, List.flatten_append, List.reverse_append, List.append_assoc]
      · rcases List.mem_append.mp member with early | late
        · exact each round early
        · exact eachNext round late

/-- An action that cannot fail, followed by another one. -/
theorem lift_bind {first : BenchM α} {next : α → BenchM β}
    (inRounds : InRounds carries (ExceptT.lift first : ExceptT ε BenchM α))
    (inRoundsNext : ∀ value, InRounds carries (ExceptT.lift (next value) : ExceptT ε BenchM β)) :
    InRounds carries (ExceptT.lift (first >>= next) : ExceptT ε BenchM β) :=
  fun bench => inRounds.bind inRoundsNext bench

theorem forM {ι : Type} {items : List ι} {action : ι → ExceptT ε BenchM PUnit}
    (inRounds : ∀ item ∈ items, InRounds carries (action item)) :
    InRounds carries (items.forM action) := by
  induction items with
  | nil => exact pure PUnit.unit
  | cons item items ih =>
    exact (inRounds item List.mem_cons_self).bind fun _ =>
      ih fun other member => inRounds other (List.mem_cons_of_mem item member)

theorem adapt {action : ExceptT ε BenchM α} (restate : ε → ε') (inRounds : InRounds carries action) :
    InRounds carries (action.adapt restate) := by
  intro bench
  rw [ExceptT.run_adapt, StateT.run_map]
  exact inRounds bench

theorem mono {wider : Attempt → Prop} {action : ExceptT ε BenchM α}
    (inRounds : InRounds carries action) (follows : ∀ attempt, carries attempt → wider attempt) :
    InRounds wider action := by
  intro bench
  obtain ⟨rounds, log, each⟩ := inRounds bench
  refine ⟨rounds, log, fun round member => ?_⟩
  cases each round member with
  | line name use outcome => exact .line name use outcome
  | plain unmapped => exact .plain unmapped
  | plainRefused => exact .plainRefused
  | mapped carried shows => exact .mapped (follows _ carried) shows

/-- An action of one round. -/
theorem single {action : ExceptT ε BenchM α}
    (one : ∀ bench, ∃ round, (action.run.run bench).2.log = round.reverse ++ bench.log ∧
      IsRound carries round) : InRounds carries action := by
  intro bench
  obtain ⟨round, log, isRound⟩ := one bench
  refine ⟨[round], ?_, fun other member => ?_⟩
  · rw [log, List.flatten_cons, List.flatten_nil, List.append_nil]
  · rw [List.mem_singleton.mp member]
    exact isRound

end InRounds

/-! ### Single actions -/

variable {carries : Attempt → Prop}

theorem inRounds_setLine (name : LineName) (level : Bool) :
    InRounds carries (setLine name level) := by
  refine InRounds.single fun bench => ?_
  have set := run_setLine bench name level
  split at set
  · obtain ⟨after, ran, tried⟩ := set
    rw [ran]
    exact ⟨_, tried.log, .line _ _ _⟩
  · obtain ⟨after, ran, tried⟩ := set
    rw [ran]
    exact ⟨_, tried.log, .line _ _ _⟩

theorem inRounds_drive (connection : Connection) (level : Bool) :
    InRounds carries (connection.drive level) := by
  cases connection with
  | absent => exact InRounds.pure ()
  | unconnected => exact InRounds.pure ()
  | line name => exact (inRounds_setLine name level).adapt _

/-- A message for which nothing is mapped is a round of its own. -/
theorem inRounds_exchange {segments : List Segment}
    (unmapped : ∀ segment ∈ segments, segment.mapping = none) :
    InRounds carries (exchange segments) := by
  refine InRounds.single fun bench => ?_
  have ran := run_exchange_tried bench segments
  split at ran
  · obtain ⟨after, ran, tried⟩ := ran
    rw [ran]
    exact ⟨_, tried.log, .plainRefused⟩
  · obtain ⟨received, after, ran, tried⟩ := ran
    rw [ran]
    exact ⟨_, tried.log, .plain unmapped⟩

namespace Spi

/-- Where mappings in a row are cut: those before were made, and they are held. -/
theorem mapMoves_eq_append_cons {handleOf : Slice → Handle} {held : List Handle}
    {slices : List Slice} {earlier later : List Move} {move : Move}
    (split : mapMoves handleOf held slices = earlier ++ move :: later) :
    ∃ first slice rest, slices = first ++ slice :: rest ∧
      earlier.map Move.event = first.map (fun slice => .mapped slice (some (handleOf slice))) ∧
      move = .map slice (handleOf slice) ((first.map handleOf).reverse ++ held) := by
  induction slices generalizing held earlier with
  | nil => cases earlier <;> cases split
  | cons slice slices ih =>
    cases earlier with
    | nil =>
      cases split
      exact ⟨[], slice, slices, rfl, rfl, rfl⟩
    | cons head earlier =>
      obtain ⟨rfl, tail⟩ := List.cons.inj split
      obtain ⟨first, next, rest, rfl, events, rfl⟩ := ih tail
      refine ⟨slice :: first, next, rest, rfl, congrArg (_ :: ·) events, ?_⟩
      rw [List.map_cons, List.reverse_cons, List.append_assoc, List.singleton_append]

namespace Link

variable (link : Link)

/-- What the controller answers when a slice is mapped. -/
def mappingOf (slice : Slice) : Mapping where
  slice
  handle := link.handleOf slice

theorem map_made_mappingOf (slices : List Slice) :
    (slices.map link.mappingOf).map Mapping.made =
      slices.map fun slice => .mapped slice (some (link.handleOf slice)) :=
  List.map_map

theorem map_slice_mappingOf (slices : List Slice) :
    (slices.map link.mappingOf).map Mapping.slice = slices :=
  List.map_map.trans (List.map_id _)

theorem map_released_mappingOf (slices : List Slice) :
    (slices.map link.mappingOf).reverse.map Mapping.released =
      (slices.map link.handleOf).reverse.map .unmapped := by
  rw [← List.map_reverse, ← List.map_reverse, List.map_map, List.map_map]
  rfl

/-- The attempt at a message whose block is mapped. -/
def attempt (outgoing : Outgoing) : Attempt where
  lead := (link.opening outgoing.selector false outgoing.clock).toList
  send words :=
    { payload := .transmit words, bits := outgoing.block.bits, clock := outgoing.clock }
  slices := outgoing.slices

section Message

variable {link} {outgoing : Outgoing}

/-- Nothing is mapped for a message whose block is not. -/
theorem unmapped_segments (plain : link.mapsBlock outgoing.selector outgoing.block = false) :
    ∀ segment ∈ link.segments outgoing, segment.mapping = none := by
  intro segment member
  unfold segments at member
  rw [plain] at member
  rcases List.mem_append.mp member with opening | sent
  · unfold Link.opening at opening
    cases layout : link.mode.opening? with
    | none =>
      rw [layout] at opening
      cases opening
    | some opened =>
      rw [layout] at opening
      rw [List.mem_singleton.mp opening]
  · obtain ⟨slice, -, rfl⟩ := List.mem_map.mp sent
    rfl

/-- The segments behind the opening byte are those of the mappings. -/
theorem segments_of_mapped (maps : link.mapsBlock outgoing.selector outgoing.block = true) :
    link.segments outgoing = (link.attempt outgoing).lead ++
      (outgoing.slices.map link.mappingOf).map (Mapping.segment (link.attempt outgoing).send) := by
  unfold segments
  rw [maps, List.map_map]
  rfl

theorem messageMoves_of_mapped (maps : link.mapsBlock outgoing.selector outgoing.block = true) :
    link.messageMoves outgoing =
      mapMoves link.handleOf [] outgoing.slices ++
        .transfer (link.segments outgoing) (link.handles outgoing).reverse ::
          (link.handles outgoing).reverse.map .release :=
  if_pos maps

/-- A mapped message that goes out shows its round. -/
theorem round_of_accepts (maps : link.mapsBlock outgoing.selector outgoing.block = true) :
    Round (link.attempt outgoing) ((link.messageMoves outgoing).map Move.event) := by
  have shows := Round.sent
    (show _ = (link.attempt outgoing).slices from link.map_slice_mappingOf outgoing.slices)
  rw [← segments_of_mapped maps, map_made_mappingOf, map_released_mappingOf] at shows
  rw [messageMoves_of_mapped maps, List.map_append, map_event_mapMoves, List.map_cons, List.map_map]
  exact shows

/-- The message itself is refused: every mapping was made. -/
theorem round_of_message_refused (link : Link) (outgoing : Outgoing) :
    Round (link.attempt outgoing)
      (outgoing.slices.map (fun slice => .mapped slice (some (link.handleOf slice))) ++
        .messageFailed :: (link.handles outgoing).reverse.map .unmapped) := by
  have shows := Round.refused
    (show _ = (link.attempt outgoing).slices from link.map_slice_mappingOf outgoing.slices)
  rwa [map_made_mappingOf, map_released_mappingOf] at shows

/-- **Wherever a mapped message is refused**, it shows its round. -/
theorem round_of_refuses (maps : link.mapsBlock outgoing.selector outgoing.block = true)
    {earlier later : List Move} {move : Move}
    (split : link.messageMoves outgoing = earlier ++ move :: later) {bench : Bench}
    (refused : bench.refuses (earlier.map Move.event) move.event = true) :
    Round (link.attempt outgoing)
      (earlier.map Move.event ++ (move.refusal bench ++ move.held.map .unmapped)) := by
  rw [messageMoves_of_mapped maps] at split
  rcases List.append_eq_append_iff.mp split with ⟨passed, rfl, rest⟩ | ⟨unmade, mapped, rest⟩
  · cases passed with
    | nil =>
      obtain ⟨rfl, -⟩ := List.cons.inj rest
      rw [List.append_nil, map_event_mapMoves]
      exact round_of_message_refused link outgoing
    | cons head passed =>
      -- A release is never refused.
      have member : move ∈ (link.handles outgoing).reverse.map Move.release := by
        rw [(List.cons.inj rest).2]
        exact List.mem_append_right passed List.mem_cons_self
      obtain ⟨handle, -, rfl⟩ := List.mem_map.mp member
      cases refused
  · cases unmade with
    | nil =>
      obtain ⟨rfl, -⟩ := List.cons.inj rest
      rw [List.append_nil] at mapped
      rw [← mapped, map_event_mapMoves]
      exact round_of_message_refused link outgoing
    | cons head unmade =>
      obtain ⟨rfl, -⟩ := List.cons.inj rest
      obtain ⟨first, slice, others, slices, made, rfl⟩ := mapMoves_eq_append_cons mapped
      have refusal : bench.refusedMapping slice = [] ∨
          bench.refusedMapping slice = [.mapped slice none] := by
        unfold Bench.refusedMapping
        split
        · exact Or.inl rfl
        · exact Or.inr rfl
      rw [← link.map_slice_mappingOf first] at slices
      have shows := Round.prevented
        (show (link.attempt outgoing).slices = _ from slices) refusal
      rw [map_made_mappingOf, map_released_mappingOf] at shows
      rw [made, List.append_nil]
      exact shows

end Message

/-- **A message of a block is one round**, wherever it fails. -/
theorem inRounds_sendMessage (outgoing : Outgoing)
    (carried : link.mapsBlock outgoing.selector outgoing.block = true →
      carries (link.attempt outgoing)) :
    InRounds carries
      (sendMessage link.handleOf (link.opening outgoing.selector false outgoing.clock)
        (fun words =>
          { payload := .transmit words, bits := outgoing.block.bits, clock := outgoing.clock })
        (link.mapsBlock outgoing.selector outgoing.block) outgoing.slices) := by
  cases maps : link.mapsBlock outgoing.selector outgoing.block with
  | false =>
    refine InRounds.bind ((inRounds_exchange ?_).adapt _) fun _ => InRounds.pure _
    have unmapped := unmapped_segments maps
    unfold segments at unmapped
    rwa [maps] at unmapped
  | true =>
    let script : Script AccessError := { moves := link.messageMoves outgoing, verdict := .ok () }
    have plays : (link.messageMoves outgoing).forM (Move.perform .linkFailed) =
        script.play .linkFailed := (bind_pure _).symm
    rw [← maps, sendMessage_eq, plays]
    refine InRounds.single fun bench => ?_
    rcases bench.accepts_or_refuses script.events with
      accepts | ⟨earlier, event, later, split, accepts, refused⟩
    · obtain ⟨after, ran, tried⟩ := script.run_of_accepts AccessError.linkFailed accepts
      rw [ran]
      exact ⟨_, tried.log, .mapped (carried maps) (round_of_accepts maps)⟩
    · obtain ⟨before, move, rest, moves, rfl, rfl⟩ := Script.split_events split
      obtain ⟨after, ran, tried⟩ := script.run_of_refuses AccessError.linkFailed moves accepts refused
      rw [ran]
      exact ⟨_, tried.log, .mapped (carried maps) (round_of_refuses maps moves refused)⟩

/-! ### Phases -/

/-- A phase shows rounds if each of its messages that is mapped may be carried. -/
theorem inRounds_sendPhase {selector : Selector} {clock : Option Nat} {words : Words} {width : Width}
    {places : Places}
    (carried : ∀ blocks, link.encoder.phase link.mode selector words width places = .ok blocks →
      ∀ block ∈ blocks, link.mapsBlock selector block = true →
        ∀ slices ∈ link.cutter.messages (link.opening selector false clock).isSome block,
          carries (link.attempt { selector, clock, block, slices })) :
    InRounds carries (link.sendPhase selector clock words width places) := by
  rw [sendPhase_eq]
  refine InRounds.bind ?_ fun _ => ?_
  · by_cases threeWire : link.mode = .threeWire
    · rw [if_pos threeWire]
      exact InRounds.pure ()
    · rw [if_neg threeWire]
      exact inRounds_drive _ _
  · cases encoded : link.encoder.phase link.mode selector words width places with
    | error error => exact InRounds.settled (.error error)
    | ok blocks =>
      show InRounds carries (pure blocks >>= fun blocks => blocks.forM (link.sendBlock selector clock))
      rw [pure_bind]
      refine InRounds.forM fun block inPhase => ?_
      exact InRounds.forM fun slices inBlock =>
        link.inRounds_sendMessage ⟨selector, clock, block, slices⟩ fun maps =>
          carried blocks encoded block inPhase maps slices inBlock

/-- Selecting a register asks for no mapping. -/
theorem inRounds_selectRegister (context : Context) (register : Nat) :
    InRounds carries (link.selectRegister context register) :=
  link.inRounds_sendPhase fun _ _ _ _ maps => nomatch maps

/-- **A message of a payload that is mapped.** The payload is data, the link maps buffers and the
controller is able to; the message takes its slices from a block of the payload that is longer than the
threshold. Each slice is mapped as a whole, and the opening byte is not mapped. -/
def MapsSlices (present : WriteRequest) (default : Width) (attempt : Attempt) : Prop :=
  present.selector = .data ∧ link.config.mapsBuffers = true ∧ link.canMap = true ∧
    ∃ clock blocks block,
      link.encoder.phase link.mode .data present.words (present.effectiveWidth default)
        (link.payloadPlaces present) = .ok blocks ∧
      block ∈ blocks ∧ link.config.mappingThreshold < block.words.byteLength ∧
      attempt.slices ∈ link.cutter.messages (link.opening .data false clock).isSome block ∧
      attempt.lead = (link.opening .data false clock).toList ∧
      attempt.send = fun words => { payload := .transmit words, bits := block.bits, clock }

theorem mapsSlices_of_mapsBlock {present : WriteRequest} {default : Width} {clock : Option Nat}
    {blocks : List Block}
    (encoded : link.encoder.phase link.mode present.selector present.words
      (present.effectiveWidth default) (link.payloadPlaces present) = .ok blocks)
    {block : Block} (inPhase : block ∈ blocks) (maps : link.mapsBlock present.selector block = true)
    {slices : List Slice}
    (inBlock : slices ∈ link.cutter.messages (link.opening present.selector false clock).isSome block) :
    link.MapsSlices present default
      (link.attempt { selector := present.selector, clock, block, slices }) := by
  simp only [mapsBlock, Bool.and_eq_true, decide_eq_true_eq] at maps
  obtain ⟨⟨⟨isData, mapsBuffers⟩, canMap⟩, long⟩ := maps
  have data : present.selector = .data := by
    cases selector : present.selector with
    | command =>
      rw [selector] at isData
      cases isData
    | data => rfl
  rw [data] at encoded inBlock ⊢
  exact ⟨data, mapsBuffers, canMap, clock, blocks, block, encoded, inPhase, long, inBlock, rfl, rfl⟩

/-! ### Accesses through a link -/

/-- A write maps nothing but its payload. -/
theorem inRounds_write (context : Context) (register : Nat) (request : Option WriteRequest) :
    InRounds
      (fun attempt => ∃ present, WriteRequest.nonempty? request = some present ∧
        link.MapsSlices present context.width attempt)
      (link.write context register request) := by
  refine (link.inRounds_selectRegister context register).bind fun _ => ?_
  cases payload : WriteRequest.nonempty? request with
  | none => exact InRounds.pure ()
  | some present =>
    exact link.inRounds_sendPhase fun blocks encoded block inPhase maps slices inBlock =>
      ⟨present, rfl, link.mapsSlices_of_mapsBlock encoded inPhase maps inBlock⟩

theorem inRounds_exchangeRead {segments : List Segment}
    (unmapped : ∀ segment ∈ segments, segment.mapping = none) :
    InRounds carries (exchangeRead segments) :=
  ((inRounds_exchange unmapped).adapt _).bind fun _ => InRounds.pure _

/-- The segment that selects a register for reading asks for no mapping. -/
theorem mapping_selectSegment {width : Width} {register : Nat} {select : Segment}
    (selected : link.selectSegment width register = .ok select) : select.mapping = none := by
  unfold selectSegment at selected
  split at selected
  · split at selected <;> cases selected <;> rfl
  · split at selected
    · cases selected
      rfl
    · split at selected <;> cases selected <;> rfl
    · cases selected

theorem inRounds_readPlain (context : Context) (register : Nat) (request : ReadRequest) :
    InRounds carries (link.readPlain context register request) := by
  unfold readPlain
  dsimp only
  split
  · exact InRounds.settled (.error _)
  split
  · exact InRounds.settled (.error _)
  cases selected : link.selectSegment context.width register with
  | error error => exact InRounds.settled (.error error)
  | ok select =>
    show InRounds carries (pure select >>= fun select => _)
    rw [pure_bind]
    have plain := mapping_selectSegment link selected
    have receives (payload : Payload) (bits : Nat) (clock : Option Nat) :
        ∀ segment ∈ [{ payload, bits, clock : Segment }], segment.mapping = none :=
      List.forall_mem_singleton.mpr rfl
    refine (inRounds_drive _ _).bind fun _ => ?_
    split
    · refine (inRounds_exchangeRead fun segment member => ?_).bind fun _ =>
        (inRounds_drive _ _).bind fun _ => (inRounds_exchangeRead ?_).bind fun _ => InRounds.pure _
      · rw [List.mem_singleton.mp member]
        exact plain
      · split <;> exact receives _ _ _
    · refine (inRounds_exchangeRead fun segment member => ?_).bind fun _ => InRounds.pure _
      rcases List.mem_cons.mp member with rfl | received
      · exact plain
      · split at received <;> exact receives _ _ _ segment received

theorem inRounds_readOpened (layout : OpeningByte) (context : Context) (register : Nat)
    (request : ReadRequest) : InRounds carries (link.readOpened layout context register request) := by
  unfold readOpened
  dsimp only
  split
  · exact InRounds.settled (.error _)
  split
  · exact InRounds.settled (.error _)
  refine (link.inRounds_selectRegister context register).bind fun _ =>
    (inRounds_exchangeRead fun segment member => ?_).bind fun _ => InRounds.pure _
  rcases List.mem_cons.mp member with rfl | received
  · rfl
  · rw [List.mem_singleton.mp received]

end Link

/-! ### Accesses through a bank -/

/-- One access to a register. -/
inductive Access where
  | write (register : Nat) (request : Option WriteRequest)
  | writeNumbers (address register : Nat) (numbers : List Nat)
  | read (register : Nat) (request : ReadRequest)
  | readNumbers (register count : Nat)

end Spi

/-- The payload that plain numbers make on a bank. -/
def BankSettings.numbersRequest (settings : BankSettings) (address : Nat) (numbers : List Nat) :
    WriteRequest :=
  let width := if settings.width.bits ≤ 8 then Width.bits8 else Width.bits16
  { words := Words.ofList width.element numbers, width := some width, address }

namespace Spi

namespace Access

/-- The bench after the access, whatever came of it. -/
def after (bank : RegisterBank BenchM) (bench : Bench) : Access → Bench
  | write register request => ((bank.write register request).run.run bench).2
  | writeNumbers address register numbers =>
    ((bank.writeNumbers address register numbers).run.run bench).2
  | read register request => ((bank.read register request).run bench).2
  | readNumbers register count => ((bank.readNumbers register count).run bench).2

/-- The payload that the access writes, if it writes one. -/
def payload? (settings : BankSettings) : Access → Option WriteRequest
  | write _ request => WriteRequest.nonempty? request
  | writeNumbers address _ numbers =>
    WriteRequest.nonempty? (some (settings.numbersRequest address numbers))
  | read _ _ => none
  | readNumbers _ _ => none

/-- **The messages of an access that may be mapped** are some of those of its payload. -/
def MayMap (link : Link) (settings : BankSettings) (access : Access) (attempt : Attempt) : Prop :=
  ∃ present, access.payload? settings = some present ∧
    link.MapsSlices present settings.width attempt

end Access

end Spi

theorem RegisterBank.inRounds_write (link : Spi.Link) (settings : BankSettings) (register : Nat)
    (request : Option WriteRequest) :
    InRounds ((Spi.Access.write register request).MayMap link settings)
      (RegisterBank.write ⟨link.channel, settings⟩ register request) := by
  unfold RegisterBank.write
  cases settled : (RegisterBank.mk link.channel settings).resolve request with
  | error error => exact InRounds.settled (.error error)
  | ok resolved =>
    show InRounds _ (link.write _ register resolved)
    refine (link.inRounds_write _ register resolved).mono fun attempt => ?_
    rintro ⟨present, some_payload, mapped⟩
    rw [nonempty?_of_resolve settled] at some_payload
    obtain ⟨given, payload, rfl⟩ := Option.map_eq_some_iff.mp some_payload
    exact ⟨given, payload, mapped⟩

theorem RegisterBank.inRounds_writeNumbers (link : Spi.Link) (settings : BankSettings)
    (address register : Nat) (numbers : List Nat) :
    InRounds ((Spi.Access.writeNumbers address register numbers).MayMap link settings)
      (RegisterBank.writeNumbers ⟨link.channel, settings⟩ address register numbers) := by
  unfold RegisterBank.writeNumbers
  by_cases many : maxNumbers < numbers.length
  · rw [if_pos many]
    exact InRounds.settled (.error _)
  · rw [if_neg many]
    exact RegisterBank.inRounds_write link settings register
      (some (settings.numbersRequest address numbers))

/-! ### Reads, which do not fail as actions -/

theorem Spi.Link.inRounds_read (link : Spi.Link) (context : Context) (register : Nat)
    (request : ReadRequest) :
    InRounds carries (ExceptT.lift (link.read context register request) :
      ExceptT AccessError BenchM (Reading AccessError)) := by
  intro bench
  unfold read
  cases link.mode with
  | opened layout => exact link.inRounds_readOpened layout context register request bench
  | _ => exact link.inRounds_readPlain context register request bench

theorem RegisterBank.inRounds_read (link : Spi.Link) (settings : BankSettings) (register : Nat)
    (request : ReadRequest) :
    InRounds carries (ExceptT.lift (RegisterBank.read ⟨link.channel, settings⟩ register request) :
      ExceptT AccessError BenchM (Reading AccessError)) := by
  unfold RegisterBank.read
  dsimp only
  split
  · exact InRounds.pure _
  split
  · exact InRounds.pure _
  split
  · exact InRounds.pure _
  exact link.inRounds_read _ register _

theorem RegisterBank.inRounds_readNumbers (link : Spi.Link) (settings : BankSettings)
    (register count : Nat) :
    InRounds carries
      (ExceptT.lift (RegisterBank.readNumbers ⟨link.channel, settings⟩ register count) :
        ExceptT AccessError BenchM (Reading AccessError)) := by
  unfold RegisterBank.readNumbers
  split
  · exact InRounds.pure _
  refine InRounds.lift_bind (RegisterBank.inRounds_read link settings register
    { selector := settings.deviations.readbackSelector, element := settings.width.element, count })
    fun reading => ?_
  split <;> exact InRounds.pure _

/-! ### Mappings made and released -/

namespace Event

/-- The handle of a mapping that was made. -/
def made? : Event → Option Handle
  | mapped _ handle => handle
  | _ => none

/-- The handle of a mapping that was released. -/
def released? : Event → Option Handle
  | unmapped handle => some handle
  | _ => none

end Event

theorem Bench.mappings_eq (bench : Bench) :
    bench.mappings = bench.log.reverse.filterMap Event.made? :=
  rfl

theorem Bench.unmappings_eq (bench : Bench) :
    bench.unmappings = bench.log.reverse.filterMap Event.released? :=
  rfl

/-- Mappings made and then released, with nothing of the kind between. -/
theorem released_perm_made_of_middle (mappings : List Mapping) (middle : List Event)
    (makesNone : middle.filterMap Event.made? = [])
    (releasesNone : middle.filterMap Event.released? = []) :
    let shown := mappings.map Mapping.made ++ (middle ++ mappings.reverse.map Mapping.released)
    (shown.filterMap Event.released?).Perm (shown.filterMap Event.made?) := by
  have madeFirst : (mappings.map Mapping.made).filterMap Event.made? =
      mappings.map Mapping.handle := List.filterMap_map.trans (congrFun List.filterMap_eq_map' mappings)
  have releasedFirst : (mappings.map Mapping.made).filterMap Event.released? = [] :=
    List.filterMap_map.trans (List.filterMap_none mappings)
  have madeLast : (mappings.reverse.map Mapping.released).filterMap Event.made? = [] :=
    List.filterMap_map.trans (List.filterMap_none mappings.reverse)
  have releasedLast : (mappings.reverse.map Mapping.released).filterMap Event.released? =
      (mappings.map Mapping.handle).reverse := by
    rw [List.filterMap_map, ← List.map_reverse]
    exact congrFun List.filterMap_eq_map' mappings.reverse
  intro shown
  rw [List.filterMap_append, List.filterMap_append, List.filterMap_append, List.filterMap_append,
    madeFirst, releasedFirst, makesNone, releasesNone, madeLast, releasedLast, List.nil_append,
    List.nil_append, List.nil_append, List.append_nil]
  exact List.reverse_perm _

/-- **A round releases what it maps.** -/
theorem Round.released_perm_made {attempt : Attempt} {round : List Event}
    (shows : Round attempt round) :
    (round.filterMap Event.released?).Perm (round.filterMap Event.made?) := by
  cases shows with
  | sent all => exact released_perm_made_of_middle _ [_] rfl rfl
  | refused all => exact released_perm_made_of_middle _ [.messageFailed] rfl rfl
  | prevented first refusal =>
    rcases refusal with rfl | rfl
    · exact released_perm_made_of_middle _ [] rfl rfl
    · exact released_perm_made_of_middle _ [_] rfl rfl

theorem IsRound.released_perm_made {carries : Attempt → Prop} {round : List Event}
    (isRound : IsRound carries round) :
    (round.filterMap Event.released?).Perm (round.filterMap Event.made?) := by
  cases isRound with
  | mapped carried shows => exact shows.released_perm_made
  | _ => exact List.Perm.refl []

theorem released_perm_made {carries : Attempt → Prop} {rounds : List (List Event)}
    (each : ∀ round ∈ rounds, IsRound carries round) :
    (rounds.flatten.filterMap Event.released?).Perm (rounds.flatten.filterMap Event.made?) := by
  induction rounds with
  | nil => exact List.Perm.refl []
  | cons round rounds ih =>
    rw [List.flatten_cons, List.filterMap_append, List.filterMap_append]
    exact (each round List.mem_cons_self).released_perm_made.append
      (ih fun other member => each other (List.mem_cons_of_mem round member))

/-- **Every access shows rounds and nothing else**, whatever fails, and at its end every mapping that it
made is released, each as often as it was made. -/
theorem Spi.mappings_in_rounds (link : Spi.Link) (settings : BankSettings) (access : Spi.Access)
    (bench : Bench) :
    ∃ rounds : List (List Event),
      (access.after ⟨link.channel, settings⟩ bench).log = rounds.flatten.reverse ++ bench.log ∧
      (∀ round ∈ rounds, IsRound (access.MayMap link settings) round) ∧
      ∃ made released,
        (access.after ⟨link.channel, settings⟩ bench).mappings = bench.mappings ++ made ∧
        (access.after ⟨link.channel, settings⟩ bench).unmappings = bench.unmappings ++ released ∧
        released.Perm made := by
  have inRounds : ∃ rounds : List (List Event),
      (access.after ⟨link.channel, settings⟩ bench).log = rounds.flatten.reverse ++ bench.log ∧
        ∀ round ∈ rounds, IsRound (access.MayMap link settings) round := by
    cases access with
    | write register request =>
      exact RegisterBank.inRounds_write link settings register request bench
    | writeNumbers address register numbers =>
      exact RegisterBank.inRounds_writeNumbers link settings address register numbers bench
    | read register request => exact RegisterBank.inRounds_read link settings register request bench
    | readNumbers register count =>
      exact RegisterBank.inRounds_readNumbers link settings register count bench
  obtain ⟨rounds, log, each⟩ := inRounds
  refine ⟨rounds, log, each, _, _, ?_, ?_, released_perm_made each⟩
  · rw [Bench.mappings_eq, Bench.mappings_eq, log, List.reverse_append, List.reverse_reverse,
      List.filterMap_append]
  · rw [Bench.unmappings_eq, Bench.unmappings_eq, log, List.reverse_append, List.reverse_reverse,
      List.filterMap_append]

end PanelLink
