/-
**Video memory.**

The pixels of one display, stored in the elements in which they travel, line after line.

* `Frame.create`: zeroed memory for valid settings;
* `Frame.drawPixel` and `Frame.fill`: drawing;
* `Frame.lineRange?`: the elements of a range of lines;
* `Frame.send`: a range of lines written to a register.
-/

import PanelLink.Display.Settings

namespace PanelLink.Display

inductive DisplayError where
  | register (error : AccessError)
  | invalidLineRange (first last : Nat)
  | unsupportedFormat
  | settings (error : SettingsError)
  | outOfMemory
  deriving DecidableEq, Repr

def DisplayError.message : DisplayError → String
  | register error => "register access: " ++ error.message
  | invalidLineRange first last =>
    "invalid line range " ++ toString first ++ "..=" ++ toString last
  | unsupportedFormat => "pixel format not supported by the controller"
  | settings error => "configuration: " ++ error.message
  | outOfMemory => "out of memory"

structure Frame where
  format : PixelFormat
  columns : Nat
  rows : Nat
  bytesPerLine : Nat
  memory : Array Nat
  /-- Where the pixels begin in memory. -/
  address : Nat
  deriving DecidableEq, Repr

namespace Frame

/-- Zeroed video memory for a display, at a place in memory. -/
def create (settings : Settings) (address : Nat) : Except DisplayError Frame := do
  settings.checkGeometry.mapError DisplayError.settings
  let bytes := settings.bytesPerLine * settings.rows
  if bufferLimit ≤ bytes then
    throw .outOfMemory
  return {
    format := settings.format
    columns := settings.columns
    rows := settings.rows
    bytesPerLine := settings.bytesPerLine
    memory := Array.replicate (bytes / settings.format.element.bytes) 0
    address }

def elementsPerLine (frame : Frame) : Nat :=
  frame.bytesPerLine / frame.format.element.bytes

/-- The memory with one element replaced by a truncated value; places past the end are ignored. -/
def store (frame : Frame) (index value : Nat) : Frame :=
  { frame with memory := frame.memory.setIfInBounds index (frame.format.element.truncate value) }

/-- The byte with one bit set to the lowest bit of a value. -/
def withBit (byte bit value : Nat) : Nat :=
  if byte.testBit bit == value.testBit 0 then byte
  else byte ^^^ 1 <<< bit

/-- Sets a visible pixel to a value truncated to the format; other pixels are ignored. -/
def drawPixel (frame : Frame) (x y value : Nat) : Frame :=
  if frame.columns ≤ x ∨ frame.rows ≤ y then frame
  else
    let row := y * frame.bytesPerLine
    match frame.format with
    | .mono01 =>
      let place := row + x / 8
      match frame.memory[place]? with
      | some byte => frame.store place (withBit byte (x % 8) value)
      | none => frame
    | .rgb565 => frame.store (row / 2 + x) value
    | .rgb888 =>
      let place := row + x * 3
      if place + 3 ≤ frame.memory.size then
        ((frame.store place value).store (place + 1) (value / 256)).store (place + 2)
          (value / 65536)
      else frame
    | .xrgb8888 => frame.store (row / 4 + x) value

/-- Sets every element to a truncated value. -/
def fill (frame : Frame) (value : Nat) : Frame :=
  { frame with
    memory := Array.replicate frame.memory.size (frame.format.element.truncate value) }

def words (frame : Frame) : Words :=
  Words.ofList frame.format.element frame.memory.toList

/-- The elements of the lines from `first` to `last`. -/
def lineRange? (frame : Frame) (first last : Nat) : Except DisplayError Words :=
  if last < first ∨ frame.rows ≤ last then .error (.invalidLineRange first last)
  else
    let start := first * frame.elementsPerLine
    let stop := (last + 1) * frame.elementsPerLine
    if stop ≤ frame.memory.size then
      .ok (Words.ofList frame.format.element (frame.memory.extract start stop).toList)
    else .error (.invalidLineRange first last)

/-- Writes the lines from `first` to `last` to a register. -/
def send {m : Type → Type} [Monad m] (frame : Frame) (bank : RegisterBank m)
    (register first last : Nat) : ExceptT DisplayError m Unit := do
  let words ← frame.lineRange? first last
  let address := frame.address + first * frame.elementsPerLine * frame.format.element.bytes
  (bank.write register
    (some { words, width := some frame.format.wireWidth, address })).adapt DisplayError.register

end Frame

end PanelLink.Display
