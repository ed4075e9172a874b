/-
**Panels that take pixels through an address window.**

The panel is told the columns and the lines of a window, each bound as two bytes, and then the
pixels that fill it.

* `Panel.updateWindow`: a range of lines over the full width;
* `Panel.sendPixelFormat` and `Panel.sendAddressMode`: the settings that the controller needs;
* `reportsHealthy`: whether the controller reports itself well.
-/

import PanelLink.Display.Frame

namespace PanelLink.Display

/-- The address modes of a controller, one for each rotation. -/
structure AddressModeTable where
  upright : Nat
  /-- The mode after a quarter turn. -/
  quarter : Nat
  /-- The mode after half a turn. -/
  half : Nat
  /-- The mode after three quarters of a turn. -/
  threeQuarters : Nat
  deriving DecidableEq, Repr

def AddressModeTable.forRotation (modes : AddressModeTable) : Rotation → Nat
  | .upright => modes.upright
  | .quarter => modes.quarter
  | .half => modes.half
  | .threeQuarters => modes.threeQuarters

inductive PanelRegister where
  | diagnosticResult
  | columnAddress
  | pageAddress
  | memoryWrite
  | addressMode
  | pixelFormat
  deriving DecidableEq, Repr

def PanelRegister.number : PanelRegister → Nat
  | diagnosticResult => 0x0F
  | columnAddress => 0x2A
  | pageAddress => 0x2B
  | memoryWrite => 0x2C
  | addressMode => 0x36
  | pixelFormat => 0x3A

/-- A panel: its settings, its video memory and its address modes. -/
structure Panel where
  settings : Settings
  frame : Frame
  /-- The address modes, without the bit for the order of colours. -/
  modes : AddressModeTable
  deriving DecidableEq, Repr

namespace Panel

/-- A panel whose video memory begins at a place in memory. -/
def create (settings : Settings) (modes : AddressModeTable) (address : Nat) :
    Except DisplayError Panel := do
  return { settings, frame := ← Frame.create settings address, modes }

/-- The register bank that the panel wants; registers have 8 bits unless the settings say
otherwise. -/
def bankSettings (panel : Panel) : BankSettings :=
  panel.settings.bankSettings .bits8

/-- Whether the controller must exchange blue and red. Pixels of three bytes lie blue first in
memory, which exchanges the colours once more. -/
def exchangesColours (panel : Panel) : Bool :=
  panel.settings.blueFirst != (panel.settings.format == .rgb888)

/-- The address mode of the rotation, with the bit for the order of colours. -/
def modeByte (panel : Panel) : Nat :=
  panel.modes.forRotation panel.settings.rotation ||| if panel.exchangesColours then 8 else 0

/-- The low two bytes of a window bound, high byte first. -/
def boundBytes (bound : Nat) : List Nat :=
  [bound / 256 % 256, bound % 256]

section Access

variable {m : Type → Type} [Monad m]

/-- Writes numbers to a register; they are put together at the place in memory for that register. -/
def writeRegister (bank : RegisterBank m) (staging : PanelRegister → Nat) (register : PanelRegister)
    (numbers : List Nat) : ExceptT DisplayError m Unit :=
  (bank.writeNumbers (staging register) register.number numbers).adapt DisplayError.register

/-- Updates the lines from `first` to `last`: a window over the full width, then its pixels. -/
def updateWindow (panel : Panel) (bank : RegisterBank m) (staging : PanelRegister → Nat)
    (first last : Nat) : ExceptT DisplayError m Unit := do
  if last < first ∨ panel.frame.rows ≤ last then
    throw (.invalidLineRange first last)
  writeRegister bank staging .columnAddress (boundBytes 0 ++ boundBytes (panel.frame.columns - 1))
  writeRegister bank staging .pageAddress (boundBytes first ++ boundBytes last)
  panel.frame.send bank PanelRegister.memoryWrite.number first last

def sendPixelFormat (panel : Panel) (bank : RegisterBank m) (staging : PanelRegister → Nat) :
    ExceptT DisplayError m Unit :=
  match panel.settings.format with
  | .rgb565 => writeRegister bank staging .pixelFormat [5]
  | .rgb888 => writeRegister bank staging .pixelFormat [6]
  | .xrgb8888 => writeRegister bank staging .pixelFormat [6]
  | .mono01 => throw .unsupportedFormat

def sendAddressMode (panel : Panel) (bank : RegisterBank m) (staging : PanelRegister → Nat) :
    ExceptT DisplayError m Unit :=
  writeRegister bank staging .addressMode [panel.modeByte]

def sendSettings (panel : Panel) (bank : RegisterBank m) (staging : PanelRegister → Nat) :
    ExceptT DisplayError m Unit := do
  panel.sendPixelFormat bank staging
  panel.sendAddressMode bank staging

end Access

end Panel

/-- The diagnostic bits that a healthy controller has set. -/
def diagnosticRequired : Nat :=
  0xC0

/-- Whether the controller reports itself well. A controller that does not answer does not, unless
it cannot be read at all. -/
def reportsHealthy {m : Type → Type} [Monad m] (bank : RegisterBank m) :
    m (Except DisplayError Bool) := do
  let reading ← bank.readNumbers PanelRegister.diagnosticResult.number 1
  return match reading.outcome with
    | .error .notReadable => .error (.register .notReadable)
    | .error _ => .ok false
    | .ok () => .ok (reading.values.headD 0 &&& diagnosticRequired == diagnosticRequired)

end PanelLink.Display
