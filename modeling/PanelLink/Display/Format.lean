/-
**Pixel formats and rotations.**

* `PixelFormat`: how a pixel lies in video memory and at which width memory travels;
* `PixelFormat.bytesPerLine`: the bytes of a line, at most what 32 bits hold;
* `Rotation`: the four orientations of a panel.
-/

import PanelLink.Width

namespace PanelLink.Display

/-- The layout of a pixel in video memory. -/
inductive PixelFormat where
  /-- One bit, eight pixels to a byte. -/
  | mono01
  /-- Five, six and five bits in 16. -/
  | rgb565
  | rgb888
  /-- Three bytes in 32 bits. -/
  | xrgb8888
  deriving DecidableEq, Repr, Inhabited

/-- The largest number of 32 bits. -/
def largestNumber : Nat :=
  4294967295

namespace PixelFormat

def all : List PixelFormat :=
  [mono01, rgb565, rgb888, xrgb8888]

def name : PixelFormat → String
  | mono01 => "mono01"
  | rgb565 => "rgb565"
  | rgb888 => "rgb888"
  | xrgb8888 => "xrgb8888"

def ofName? (name : String) : Option PixelFormat :=
  all.find? fun format => format.name == name

def bitsPerPixel : PixelFormat → Nat
  | mono01 => 1
  | rgb565 => 16
  | rgb888 => 24
  | xrgb8888 => 32

def bytesPerLine (format : PixelFormat) (pixels : Nat) : Nat :=
  match format with
  | mono01 => pixels / 8
  | rgb565 => min (pixels * 2) largestNumber
  | rgb888 => min (pixels * 3) largestNumber
  | xrgb8888 => min (pixels * 4) largestNumber

/-- The width at which video memory travels. -/
def wireWidth : PixelFormat → Width
  | mono01 => .bits8
  | rgb565 => .bits16
  | rgb888 => .bits8
  | xrgb8888 => .bits24

def element : PixelFormat → Element
  | mono01 => .byte
  | rgb565 => .half
  | rgb888 => .byte
  | xrgb8888 => .word

theorem ofName?_name (format : PixelFormat) : ofName? format.name = some format := by
  cases format <;> decide

/-- Video memory is stored in the elements that travel. -/
theorem element_wireWidth (format : PixelFormat) :
    format.wireWidth.element = format.element := by
  cases format <;> rfl

end PixelFormat

/-- The orientation of a panel, clockwise. -/
inductive Rotation where
  | upright
  | quarter
  | half
  | threeQuarters
  deriving DecidableEq, Repr, Inhabited

namespace Rotation

def all : List Rotation :=
  [upright, quarter, half, threeQuarters]

/-- The place of a rotation among the four. -/
def index : Rotation → Nat
  | upright => 0
  | quarter => 1
  | half => 2
  | threeQuarters => 3

def degrees (rotation : Rotation) : Nat :=
  90 * rotation.index

def ofDegrees? (degrees : Nat) : Option Rotation :=
  all.find? fun rotation => rotation.degrees == degrees

/-- Whether the panel's width and height change places. -/
def exchangesAxes : Rotation → Bool
  | upright => false
  | quarter => true
  | half => false
  | threeQuarters => true

theorem ofDegrees?_degrees (rotation : Rotation) :
    ofDegrees? rotation.degrees = some rotation := by
  cases rotation <;> rfl

end Rotation

end PanelLink.Display
