/-
**The words that the SPI controller clocks.**

An element is cut three times before it is clocked: into scratch-fulls, into segments and into
messages. No cut shows in the words on the wire.

* `wireForm`: the words that elements make on the wire, and `bits_wireForm`: they carry the bits of
  the elements in order;
* `Encoder.clocked_of_encode`: the blocks of a payload hold its wire form;
* `Link.clockedIn_phaseEvents`: the words of a phase are those of its blocks, wherever these were
  cut.
-/

import PanelLink.Proofs.Packing.BitStream
import PanelLink.Proofs.Spi.Sending

namespace PanelLink

/-! ### Clocked words -/

/-- A word as the controller clocks it. -/
structure ClockedWord where
  bits : Nat
  value : Nat
  deriving DecidableEq, Repr

/-- The bits of a clocked word, the most significant one first. -/
def ClockedWord.stream (word : ClockedWord) : List Bool :=
  bitsOf word.bits word.value

/-- The words that a segment clocks out. -/
def Segment.clocked (segment : Segment) : List ClockedWord :=
  match segment.transmitted? with
  | some words => words.values.map (⟨segment.bits, ·⟩)
  | none => []

def Event.message? : Event → Option (List Segment)
  | .message segments => some segments
  | _ => none

/-- The messages among events, in order. -/
def messagesIn (events : List Event) : List (List Segment) :=
  events.filterMap Event.message?

/-- What the bench counts as messages. -/
theorem messages_eq_messagesIn (bench : Bench) :
    bench.messages = messagesIn bench.log.reverse :=
  rfl

theorem messagesIn_append (first later : List Event) :
    messagesIn (first ++ later) = messagesIn first ++ messagesIn later :=
  List.filterMap_append

theorem messagesIn_flatMap {ι : Type} (items : List ι) (events : ι → List Event) :
    messagesIn (items.flatMap events) = items.flatMap fun item => messagesIn (events item) := by
  induction items with
  | nil => rfl
  | cons item items ih => rw [List.flatMap_cons, messagesIn_append, ih, List.flatMap_cons]

theorem messagesIn_eq_nil {events : List Event} (none : ∀ event ∈ events, event.message? = none) :
    messagesIn events = [] :=
  List.filterMap_eq_nil_iff.mpr none

/-- The big-endian bytes of elements at a width; nine-bit words are packed in groups of eight. -/
def byteForm : Width → List Nat → List Nat
  | .bits8, values => values
  | .bits9, values => NineBit.pack.all values
  | .bits16, values => values.flatMap (bigEndian 2)
  | .bits24, values => values.flatMap (bigEndian 3)
  | .bits32, values => values.flatMap (bigEndian 4)

/-- **The words that elements make on the wire**: the elements themselves where the controller
clocks words of their width, and else their bytes. -/
def wireForm (mask : WordSizes) (width : Width) (values : List Nat) : List ClockedWord :=
  if mask.contains width then values.map (⟨width.bits, ·⟩)
  else (byteForm width values).map (⟨8, ·⟩)

/-- Nine-bit words that are packed come in whole groups. -/
def WholeGroups (mask : WordSizes) (width : Width) (values : List Nat) : Prop :=
  mask.contains width = false → width = .bits9 → values.length % NineBit.groupWords = 0

theorem bits_flatMap_bigEndian (count : Nat) (values : List Nat) :
    (values.flatMap (bigEndian count)).flatMap (bitsOf 8) = values.flatMap (bitsOf (8 * count)) := by
  rw [List.flatMap_assoc]
  exact List.flatMap_congr fun value _ => bitsOf_bigEndian count value

/-- **The wire form carries the bits of the elements**, each at its width and in order. -/
theorem bits_wireForm {mask : WordSizes} {width : Width} {values : List Nat}
    (whole : WholeGroups mask width values) :
    (wireForm mask width values).flatMap ClockedWord.stream = values.flatMap (bitsOf width.bits) := by
  unfold wireForm
  by_cases native : mask.contains width = true
  · rw [if_pos native, List.flatMap_map]
    rfl
  · rw [if_neg native, List.flatMap_map]
    show (byteForm width values).flatMap (bitsOf 8) = _
    cases width with
    | bits8 => rfl
    | bits9 => exact NineBit.bits_pack (whole (Bool.eq_false_iff.mpr native) rfl)
    | bits16 => exact bits_flatMap_bigEndian 2 values
    | bits24 => exact bits_flatMap_bigEndian 3 values
    | bits32 => exact bits_flatMap_bigEndian 4 values

namespace Spi

/-! ### The words of a block -/

/-- The words of a block on the wire. -/
def Block.clocked (block : Block) : List ClockedWord :=
  block.words.values.map (⟨block.bits, ·⟩)

/-- The segments of a message without the one that opens it. -/
def Mode.payload (mode : Mode) (message : List Segment) : List Segment :=
  if mode.opening?.isSome then message.tail else message

/-- The words that the messages among events clock, those of opening segments left out. -/
def Mode.clockedIn (mode : Mode) (events : List Event) : List ClockedWord :=
  (messagesIn events).flatMap fun message => (mode.payload message).flatMap Segment.clocked

theorem Mode.clockedIn_append (mode : Mode) (first later : List Event) :
    mode.clockedIn (first ++ later) = mode.clockedIn first ++ mode.clockedIn later := by
  rw [clockedIn, messagesIn_append, List.flatMap_append]
  rfl

theorem Mode.clockedIn_flatMap {ι : Type} (mode : Mode) (items : List ι)
    (events : ι → List Event) :
    mode.clockedIn (items.flatMap events) = items.flatMap fun item => mode.clockedIn (events item) := by
  rw [clockedIn, messagesIn_flatMap, List.flatMap_assoc]
  rfl

/-! ### Cutting -/

theorem messagesIn_messageEvents (handleOf : Slice → Handle) (opening : Option Segment)
    (segment : Words → Segment) (mapping : Bool) (message : List Slice) :
    messagesIn (messageEvents handleOf opening segment mapping message) =
      [opening.toList ++ message.map fun slice =>
        if mapping then { segment slice.words with mapping := some (handleOf slice) }
        else segment slice.words] := by
  cases mapping with
  | false => rfl
  | true =>
    have before : messagesIn (message.map fun slice =>
        Event.mapped slice (some (handleOf slice))) = [] :=
      messagesIn_eq_nil fun event member => by
        obtain ⟨slice, -, rfl⟩ := List.mem_map.mp member
        rfl
    have behind : messagesIn ((message.map handleOf).reverse.map Event.unmapped) = [] :=
      messagesIn_eq_nil fun event member => by
        obtain ⟨handle, -, rfl⟩ := List.mem_map.mp member
        rfl
    rw [messageEvents, if_pos rfl, messagesIn_append, before, List.nil_append]
    show _ :: messagesIn _ = _
    rw [behind]
    rfl

/-- Cutting a run into segments truncates nothing. -/
theorem Cutter.flatMap_values_runs (cutter : Cutter) (block : Block) :
    (cutter.runs block).flatMap Words.values = block.words.values := by
  have same : block.words.values.map block.words.element.truncate = block.words.values :=
    congrArg Words.values block.words.ofList_values
  calc (cutter.runs block).flatMap Words.values
      = ((cutter.segments block.words.element block.address block.words.values).map
          (List.map block.words.element.truncate)).flatten := by
        rw [runs, List.flatMap_map, List.flatMap_def]
        rfl
    _ = block.words.values := by rw [← List.map_flatten, flatten_segments, same]

namespace Link

/-- The payload of a message is what follows its opening. -/
theorem payload_opening (link : Link) (selector : Selector) (clock : Option Nat)
    (segments : List Segment) :
    link.mode.payload ((link.opening selector false clock).toList ++ segments) = segments := by
  unfold Mode.payload opening
  cases link.mode.opening? <;> rfl

/-- **Where a block is cut does not show** in the words that are clocked. -/
theorem clockedIn_blockEvents (link : Link) (selector : Selector) (clock : Option Nat)
    (block : Block) :
    link.mode.clockedIn (link.blockEvents selector clock block) = block.clocked := by
  have each (message : List Slice) :
      link.mode.clockedIn (messageEvents link.handleOf (link.opening selector false clock)
        (fun words => { payload := .transmit words, bits := block.bits, clock })
        (link.mapsBlock selector block) message) =
      message.flatMap fun slice => slice.words.values.map (⟨block.bits, ·⟩) := by
    rw [Mode.clockedIn, messagesIn_messageEvents, List.flatMap_singleton, payload_opening,
      List.flatMap_map]
    refine List.flatMap_congr fun slice _ => ?_
    cases link.mapsBlock selector block <;> rfl
  have joined : (link.cutter.slices block).flatMap (fun slice => slice.words.values) =
      block.words.values := by
    rw [← link.cutter.flatMap_values_runs block,
      ← Slice.map_words_consecutive block.address (link.cutter.runs block), List.flatMap_map]
    rfl
  unfold blockEvents
  rw [Mode.clockedIn_flatMap, List.flatMap_congr fun message _ => each message, Cutter.messages,
    flatMap_flatMap_portions, ← List.map_flatMap, joined]
  rfl

/-- The words of a phase are those of its blocks. -/
theorem clockedIn_phaseEvents (link : Link) (selector : Selector) (clock : Option Nat)
    (blocks : List Block) :
    link.mode.clockedIn (link.phaseEvents selector clock blocks) =
      blocks.flatMap Block.clocked := by
  have quiet : link.mode.clockedIn (if link.mode = .threeWire then [] else
      link.selectorLine.driven selector.isData) = [] := by
    by_cases threeWire : link.mode = .threeWire
    · rw [if_pos threeWire]
      rfl
    · rw [if_neg threeWire]
      cases link.selectorLine <;> rfl
  rw [phaseEvents, Mode.clockedIn_append, quiet, List.nil_append, Mode.clockedIn_flatMap]
  exact List.flatMap_congr fun block _ => link.clockedIn_blockEvents selector clock block

end Link

/-! ### Repacking -/

namespace Encoder

/-- Repacking one scratch-full after the other gives what repacking the payload would. -/
theorem clocked_of_repackBlocks {encoder : Encoder} {repacking : Repacking} {values : List Nat}
    {scratch : Nat} {blocks : List Block} (positive : 0 < repacking.sourceGroup)
    (bytes : ∀ group, ∀ byte ∈ repacking.convert group, byte < 256)
    (encoded : encoder.repackBlocks repacking values scratch = .ok blocks) :
    blocks.flatMap Block.clocked = (repacking.all values).map (⟨8, ·⟩) := by
  unfold repackBlocks at encoded
  split at encoded
  · cases encoded
  · cases encoded
    have some_group : 0 < encoder.scratchGroups repacking := by
      unfold scratchGroups
      omega
    have kept (chunk : List Nat) : (repacking.all chunk).map Element.byte.truncate =
        repacking.all chunk := by
      refine (List.map_congr_left fun byte member => ?_).trans (List.map_id _)
      obtain ⟨group, -, inGroup⟩ := List.mem_flatMap.mp member
      exact Element.truncate_of_lt (bytes group byte inGroup)
    rw [List.flatMap_map, ← repacking.flatMap_all_portions positive some_group values,
      List.map_flatMap]
    refine List.flatMap_congr fun chunk _ => ?_
    show ((repacking.all chunk).map Element.byte.truncate).map _ = _
    rw [kept]

theorem lt_of_mem_packBytes (count : Nat) (group : List Nat) (byte : Nat)
    (member : byte ∈ (packBytes count).convert group) : byte < 256 := by
  obtain ⟨value, -, inValue⟩ := List.mem_flatMap.mp member
  exact lt_of_mem_bigEndian inValue

theorem packBytes_all (count : Nat) (values : List Nat) :
    (packBytes count).all values = values.flatMap (bigEndian count) :=
  flatMap_flatMap_portions 1 values (bigEndian count)

/-- **The blocks of a payload hold its wire form.** -/
theorem clocked_of_encode {encoder : Encoder} {words : Words} {width : Width} {places : Places}
    {blocks : List Block} (encoded : encoder.encode words width places = .ok blocks) :
    blocks.flatMap Block.clocked = wireForm encoder.mask width words.values ∧
      WholeGroups encoder.mask width words.values := by
  have bytes (count : Nat)
      (repacked : encoder.repackBlocks (packBytes count) words.values places.scratch = .ok blocks) :
      blocks.flatMap Block.clocked = (words.values.flatMap (bigEndian count)).map (⟨8, ·⟩) := by
    rw [← packBytes_all]
    exact clocked_of_repackBlocks Nat.one_pos (lt_of_mem_packBytes count) repacked
  unfold encode at encoded
  by_cases native : encoder.mask.contains width = true
  · rw [if_pos native] at encoded
    cases encoded
    refine ⟨?_, fun other => absurd native (Bool.eq_false_iff.mp other)⟩
    rw [wireForm, if_pos native, List.flatMap_singleton]
    rfl
  · rw [if_neg native] at encoded
    rw [wireForm, if_neg native]
    split at encoded
    · -- nine-bit words
      split at encoded
      · rename_i whole
        refine ⟨clocked_of_repackBlocks (by decide) (fun group byte => ?_) encoded, fun _ _ => whole⟩
        exact lt_of_mem_bigEndian
      · cases encoded
    · exact ⟨bytes 2 encoded, fun _ nine => by cases nine⟩
    · exact ⟨bytes 3 encoded, fun _ nine => by cases nine⟩
    · exact ⟨bytes 4 encoded, fun _ nine => by cases nine⟩
    · cases encoded

end Encoder

end Spi

end PanelLink
