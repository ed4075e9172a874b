/-
**A phase as blocks of words that the controller clocks.**

A width that the controller clocks goes out as it is. Any other width is repacked into bytes
through a scratch buffer, one scratch-full at a time. In 3-wire mode every byte first becomes a
nine-bit word that carries the selector.

* `Places`: where the words of a phase lie in memory;
* `Encoder.encode`: the blocks of a payload at a width, or the reason why there are none;
* `Encoder.tag`: the nine-bit words of a payload, chunk by chunk;
* `Encoder.phase`: the blocks of a whole phase in a wire mode.
-/

import PanelLink.Packing.NineBit
import PanelLink.Spi.Config

namespace PanelLink.Spi

/-- Words handed to the controller in one go. -/
structure Block where
  words : Words
  /-- Bits in each word on the wire. -/
  bits : Nat
  /-- Where the words begin in memory. -/
  address : Nat
  deriving DecidableEq, Repr

/-- Where a link keeps words that it has converted. -/
structure Buffers where
  /-- Where the bytes of repacked words begin in memory. -/
  scratch : Nat
  /-- Where the words begin that carry the selector. -/
  tags : Nat
  deriving DecidableEq, Repr

/-- Where the words of a phase lie in memory: the payload, and what becomes of it. -/
structure Places extends Buffers where
  payload : Nat
  deriving DecidableEq, Repr

/-- The places once the payload carries the selector. -/
def Places.tagged (places : Places) : Places :=
  { places with payload := places.tags }

/-- What decides the blocks of a phase. -/
structure Encoder where
  /-- The word sizes that the controller clocks. -/
  mask : WordSizes
  /-- The bytes of the scratch buffer. -/
  scratchLength : Nat
  deriving DecidableEq, Repr

namespace Encoder

/-- The groups that the scratch buffer holds, at least one. -/
def scratchGroups (encoder : Encoder) (repacking : Repacking) : Nat :=
  max (encoder.scratchLength / repacking.targetGroup) 1

/-- The byte blocks of elements that are repacked, one for each scratch-full. -/
def repackBlocks (encoder : Encoder) (repacking : Repacking) (values : List Nat)
    (scratch : Nat) : Except AccessError (List Block) :=
  if bufferLimit ≤ encoder.scratchLength then .error .resourceExhausted
  else
    let chunkLength := encoder.scratchGroups repacking * repacking.sourceGroup
    .ok <| (portions chunkLength values).map fun chunk =>
      { words := Words.ofList .byte (repacking.all chunk), bits := 8, address := scratch }

def encode (encoder : Encoder) (words : Words) (width : Width) (places : Places) :
    Except AccessError (List Block) :=
  if encoder.mask.contains width then
    .ok [{ words, bits := width.bits, address := places.payload }]
  else match width, words.element with
    | .bits9, .half =>
      if words.length % NineBit.groupWords = 0 then
        encoder.repackBlocks NineBit.pack words.values places.scratch
      else .error (.invalidArgument .incompleteNineBitGroup)
    | .bits16, .half => encoder.repackBlocks (packBytes 2) words.values places.scratch
    | .bits24, .word => encoder.repackBlocks (packBytes 3) words.values places.scratch
    | .bits32, .word => encoder.repackBlocks (packBytes 4) words.values places.scratch
    | _, _ => .error (.invalidArgument .widthNotEmulated)

/-- The nine-bit words in a chunk: as many whole groups as the scratch length counts, at least
one. -/
def tagChunk (encoder : Encoder) : Nat :=
  max (encoder.scratchLength / NineBit.groupWords * NineBit.groupWords) NineBit.groupWords

/-- The nine-bit words of a payload, chunk by chunk. Without native nine-bit words a byte payload
that does not fill its last group is padded with zeros if it fits the scratch buffer: a command is
padded in front and data behind. -/
def tag (encoder : Encoder) (selector : Selector) (words : Words) (width : Width) :
    Except AccessError (List (List Nat)) :=
  let native := encoder.mask.contains .bits9
  match width, words.element with
  | .bits8, .byte =>
    let padding := NineBit.padding words.length
    let tagged := words.values.map (NineBit.tagByte selector)
    if native ∨ padding = 0 then .ok (portions encoder.tagChunk tagged)
    else if words.length + padding ≤ encoder.scratchLength then
      let zeros := List.replicate padding 0
      .ok [match selector with
        | .command => zeros ++ tagged
        | .data => tagged ++ zeros]
    else .error (.invalidArgument .incompleteNineBitGroup)
  | .bits16, .half =>
    if native ∨ NineBit.padding (words.length * 2) = 0 then
      .ok (portions encoder.tagChunk (words.values.flatMap (NineBit.tagHalf selector)))
    else .error (.invalidArgument .incompleteNineBitGroup)
  | _, _ => .error (.invalidArgument .untaggableElements)

def phase (encoder : Encoder) (mode : Mode) (selector : Selector) (words : Words) (width : Width)
    (places : Places) : Except AccessError (List Block) :=
  match mode with
  | .threeWire => do
    let chunks ← encoder.tag selector words width
    let encoded ← chunks.mapM fun chunk =>
      encoder.encode (Words.ofList .half chunk) .bits9 places.tagged
    return encoded.flatten
  | _ => encoder.encode words width places

end Encoder

end PanelLink.Spi
