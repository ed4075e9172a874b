/-
**What happens on the wires, one event at a time.**

An access that fails is an event too: it shows that the access was attempted.

* `Handle`: what stands for memory that is mapped for the controller;
* `Segment`: one stretch of an SPI message;
* `Event`: a line access, a pause, a message, a mapping or a call of a bus master;
* `Event.text`: how an event is written in a log.
-/

import PanelLink.Bench.Line
import PanelLink.Text.Numeral
import PanelLink.Width

namespace PanelLink

def Element.text : Element → String
  | byte => "u8"
  | half => "u16"
  | word => "u32"

/-- A value with all the digits that its element size has. -/
def Element.hex (element : Element) (value : Nat) : String :=
  String.ofList (Text.fixedHex (2 * element.bytes) value)

/-- A run written as its element type and its values. -/
def Words.text (words : Words) : String :=
  words.element.text ++ ":" ++ String.intercalate "," (words.values.map words.element.hex)

inductive Payload where
  | transmit (words : Words)
  | receive (element : Element) (count : Nat)
  deriving DecidableEq, Repr

/-- What stands for a slice that is mapped for the controller. -/
structure Handle where
  /-- Where the controller finds the slice. -/
  address : Nat
  /-- The bytes that are mapped. -/
  length : Nat
  deriving DecidableEq, Repr

/-- The handle of a slice that the controller finds where it lies. -/
def Slice.inPlace (slice : Slice) : Handle where
  address := slice.address
  length := slice.words.byteLength

/-- A stretch of an SPI message, clocked in one way. -/
structure Segment where
  payload : Payload
  /-- Bits in each word on the wire. -/
  bits : Nat
  /-- The clock, if it is not the controller's own. -/
  clock : Option Nat := none
  /-- Whether the chip select changes after the stretch. -/
  changesSelect : Bool := false
  /-- The mapping that the stretch is sent from, if it is mapped. -/
  mapping : Option Handle := none
  deriving DecidableEq, Repr

namespace Segment

def transmitted? (segment : Segment) : Option Words :=
  match segment.payload with
  | .transmit words => some words
  | .receive _ _ => none

def text (segment : Segment) : String :=
  let moved := match segment.payload with
    | .transmit words => "tx=" ++ words.text
    | .receive element count => "rx=" ++ element.text ++ "*" ++ toString count
  let parts := [some moved, some ("bits=" ++ toString segment.bits),
    segment.clock.map fun clock => "hz=" ++ toString clock,
    if segment.changesSelect then some "cs" else none,
    segment.mapping.map fun handle => "dma=" ++ toString handle.length]
  "(" ++ String.intercalate ";" (parts.filterMap id) ++ ")"

end Segment

inductive MasterCall where
  | latch (address : Nat)
  | write (words : Words)
  | read (element : Element) (count : Nat)
  deriving DecidableEq, Repr

def MasterCall.text : MasterCall → String
  | latch address => "addr=" ++ String.ofList (Text.shortHex address)
  | write words => "write=" ++ words.text
  | read element count => "read=" ++ element.text ++ "*" ++ toString count

/-- Something that happened on the bench, or was attempted and failed. -/
inductive Event where
  | line (name : LineName) (use : LineUse) (outcome : UseOutcome)
  | pause (milliseconds : Nat)
  | message (segments : List Segment)
  | messageFailed
  /-- A slice was to be mapped; there is no handle if that failed. -/
  | mapped (slice : Slice) (handle : Option Handle)
  | unmapped (handle : Handle)
  | master (call : MasterCall) (failed : Bool)
  deriving DecidableEq, Repr

namespace Event

def failureMark (failed : Bool) : String :=
  if failed then "!" else ""

/-- The event written as it stands in a log. -/
def text : Event → String
  | line name use outcome => name.text ++ use.text ++ failureMark (outcome == .refused)
  | pause milliseconds => "delay_ms=" ++ toString milliseconds
  | message segments => "spi" ++ String.join (segments.map Segment.text)
  | messageFailed => "spi!"
  | mapped slice handle =>
    "map=" ++ toString slice.words.byteLength ++ failureMark handle.isNone
  | unmapped handle => "unmap=" ++ toString handle.length
  | master call failed => call.text ++ failureMark failed

/-- A log, its events apart by one space. -/
def logText (events : List Event) : String :=
  String.intercalate " " (events.map text)

end Event

end PanelLink
