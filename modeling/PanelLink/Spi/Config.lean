/-
**How an SPI link is set up.**

* `OpeningByte.value`: the byte that opens a message when the selector travels in the message;
* `Mode`: the three ways in which a selector reaches the panel;
* `Config`: the limits that a link keeps to.
-/

import PanelLink.Access
import PanelLink.Bench.Event

namespace PanelLink.Spi

def pageSize : Nat :=
  4096

/-- The layout of the byte that opens a message. -/
inductive OpeningByte where
  /-- `0 1 1 1 0 id rs rw` -/
  | standard (id : Bool)
  /-- `1 1 1 1 1 rw rs 0` -/
  | alternate
  deriving DecidableEq, Repr

/-- The opening byte of a message of a phase. -/
def OpeningByte.value (layout : OpeningByte) (selector : Selector) (reading : Bool) : Nat :=
  let selectorBit := selector.isData.toNat
  match layout with
  | standard id => 0x70 + id.toNat * 4 + selectorBit * 2 + reading.toNat
  | alternate => 0xF8 + reading.toNat * 4 + selectorBit * 2

/-- How the selector of a phase reaches the panel. -/
inductive Mode where
  /-- On a line of its own. -/
  | fourWire
  /-- In the ninth bit of every word. -/
  | threeWire
  /-- In a byte that opens every message. -/
  | opened (layout : OpeningByte)
  deriving DecidableEq, Repr

/-- The opening byte that messages of a mode have, if any. -/
def Mode.opening? : Mode → Option OpeningByte
  | fourWire => none
  | threeWire => none
  | opened layout => some layout

structure Config where
  /-- Whether long data phases are mapped for the controller. -/
  mapsBuffers : Bool := false
  /-- Data handed over in more bytes than this is mapped. -/
  mappingThreshold : Nat := 128
  /-- The word sizes to use in place of those the controller advertises. -/
  mask : Option WordSizes := none
  /-- The most bytes in a segment. -/
  segmentLimit : Nat := pageSize
  /-- The bytes of the buffer in which elements are repacked. -/
  scratchLength : Nat := pageSize
  /-- Whether a segment must not cross a page boundary. -/
  splitsAtPages : Bool := false
  deriving DecidableEq, Repr

structure Advertised where
  clock : Nat
  /-- The word sizes it clocks; an empty set says nothing. -/
  mask : WordSizes
  canMap : Bool
  /-- The handle with which the controller answers when a slice is mapped. -/
  handleOf : Slice → Handle := Slice.inPlace

/-- The word sizes to use: the configured ones, else the advertised ones, else bytes. -/
def Config.resolveMask (config : Config) (advertised : WordSizes) : WordSizes :=
  config.mask.getD (if advertised.raw = 0 then WordSizes.bytesOnly else advertised)

end PanelLink.Spi
