/-
**Elements adapted to other widths.**

What a bus of bytes or of tagged words cannot carry as it is goes group by group into a buffer of the
caller, as far as the elements and the buffer last.

* `Adaptation`: what becomes of the elements, and `Adaptation.repacking`: what becomes of a group;
* `Adaptation.call`: the count that a call gives back, and what the buffer holds afterwards.
-/

import PanelLink.Packing.NineBit

namespace PanelLink

/-- What becomes of elements on their way to a bus, or back. -/
inductive Adaptation where
  /-- 16-bit elements as pairs of bytes, high byte first. -/
  | splitHalves
  /-- The low three bytes of 32-bit elements, the highest first. -/
  | splitTriplets
  /-- 32-bit elements as their bytes, the highest first. -/
  | splitQuads
  /-- Pairs of bytes as 16-bit elements. -/
  | joinHalves
  | packNineBit
  | unpackNineBit
  /-- Bytes as nine-bit words with the selector in the ninth bit. -/
  | tagBytes (selector : Selector)
  /-- 16-bit elements as two such words each. -/
  | tagHalves (selector : Selector)
  deriving DecidableEq, Repr

namespace Adaptation

/-- The memory size of the elements that are read. -/
def sourceElement : Adaptation → Element
  | splitHalves | packNineBit | tagHalves _ => .half
  | splitTriplets | splitQuads => .word
  | joinHalves | unpackNineBit | tagBytes _ => .byte

/-- The memory size of the elements that are written. -/
def targetElement : Adaptation → Element
  | splitHalves | splitTriplets | splitQuads | packNineBit => .byte
  | joinHalves | unpackNineBit | tagBytes _ | tagHalves _ => .half

def repacking : Adaptation → Repacking
  | splitHalves => packBytes 2
  | splitTriplets => packBytes 3
  | splitQuads => packBytes 4
  | joinHalves => joinBytePairs
  | packNineBit => NineBit.pack
  | unpackNineBit => NineBit.unpack
  | tagBytes selector => NineBit.byteTagging selector
  | tagHalves selector => NineBit.halfTagging selector

/-- The count that a call gives back, or why it is refused, and the buffer afterwards. Joining counts
the bytes that it read, everything else the elements that it wrote. -/
def call (adaptation : Adaptation) (source buffer : List Nat) : Except Misuse Nat × List Nat :=
  match adaptation with
  | packNineBit =>
    match NineBit.packInto source buffer with
    | .ok (count, packed) => (.ok count, packed)
    | .error misuse => (.error misuse, buffer)
  | joinHalves =>
    (.ok (joinBytePairs.consumed source.length buffer.length), joinBytePairs.into source buffer)
  | _ =>
    (.ok (adaptation.repacking.produced source buffer.length).length,
      adaptation.repacking.into source buffer)

end Adaptation

end PanelLink
