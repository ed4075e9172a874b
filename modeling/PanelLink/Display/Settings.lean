/-
**The settings of a display.**

* `Settings.checkGeometry`: the geometry fits the format;
* `Settings.ofProperties`: settings from keys and values in any order, where the last value of a key
  counts and unknown keys do not;
* `Settings.bankSettings`: the register bank that the display wants.
-/

import PanelLink.Display.Format
import PanelLink.RegisterBank
import PanelLink.Text.Blank
import PanelLink.Text.Numeral

namespace PanelLink.Display

/-- A property that settings are made from. -/
inductive Property where
  | width
  | height
  | rotation
  | format
  | readable
  | registerWidth
  | blueFirst
  deriving DecidableEq, Repr

namespace Property

/-- Every property, in the order in which settings list them. -/
def all : List Property :=
  [width, height, rotation, format, readable, registerWidth, blueFirst]

def key : Property → String
  | width => "width"
  | height => "height"
  | rotation => "rotation"
  | format => "format"
  | readable => "readable"
  | registerWidth => "regwidth"
  | blueFirst => "bgr"

def ofKey? (key : String) : Option Property :=
  all.find? fun property => property.key == key

end Property

inductive SettingsError where
  | unknownFormat
  | invalidRotation (degrees : Nat)
  | missingProperty (property : Property)
  | invalidValue (property : Property)
  deriving DecidableEq, Repr

def SettingsError.message : SettingsError → String
  | unknownFormat => "unknown pixel format"
  | invalidRotation degrees => "invalid rotation: " ++ toString degrees
  | missingProperty property => "missing property: " ++ property.key
  | invalidValue property => "invalid value for " ++ property.key

structure Settings where
  /-- Pixels across the panel when it is upright. -/
  width : Nat
  /-- Pixels down the panel when it is upright. -/
  height : Nat
  rotation : Rotation := .upright
  format : PixelFormat := .rgb565
  readable : Bool := false
  /-- The bits of the register width, if it is not the default. -/
  registerWidth : Option Nat := none
  /-- Whether the panel has blue and red exchanged. -/
  blueFirst : Bool := false
  deriving DecidableEq, Repr

namespace Settings

def columns (settings : Settings) : Nat :=
  if settings.rotation.exchangesAxes then settings.height else settings.width

def rows (settings : Settings) : Nat :=
  if settings.rotation.exchangesAxes then settings.width else settings.height

def bytesPerLine (settings : Settings) : Nat :=
  settings.format.bytesPerLine settings.columns

/-- Whether the geometry fits the format, and the register width is one. -/
def checkGeometry (settings : Settings) : Except SettingsError Unit :=
  if settings.width = 0 then .error (.invalidValue .width)
  else if settings.height = 0 then .error (.invalidValue .height)
  else if settings.format = .mono01 ∧ settings.columns % 8 ≠ 0 then .error (.invalidValue .width)
  else if settings.registerWidth.any fun bits => (Width.ofBits? bits).isNone then
    .error (.invalidValue .registerWidth)
  else .ok ()

/-- The register width, the default unless the settings name one. -/
def resolveWidth (settings : Settings) (default : Width) : Width :=
  (settings.registerWidth.bind Width.ofBits?).getD default

/-- The register bank that the display wants. -/
def bankSettings (settings : Settings) (default : Width) : BankSettings where
  width := settings.resolveWidth default
  readable := settings.readable

/-- The number that the value of a property denotes. -/
def parseNumber (property : Property) (value : String) : Except SettingsError Nat :=
  match Text.readDecimal? (Text.trim value.toList) with
  | some number => .ok number
  | none => .error (.invalidValue property)

/-- The truth value that the value of a property denotes; no text at all is true. -/
def parseFlag (property : Property) (value : String) : Except SettingsError Bool :=
  let text := String.ofList (Text.trim value.toList)
  if text = "" ∨ text = "true" ∨ text = "1" then .ok true
  else if text = "false" ∨ text = "0" then .ok false
  else .error (.invalidValue property)

def parseRotation (degrees : Nat) : Except SettingsError Rotation :=
  match Rotation.ofDegrees? degrees with
  | some rotation => .ok rotation
  | none => .error (.invalidRotation degrees)

def parseFormat (name : String) : Except SettingsError PixelFormat :=
  match PixelFormat.ofName? name with
  | some format => .ok format
  | none => .error .unknownFormat

structure Draft where
  width : Option Nat := none
  height : Option Nat := none
  settings : Settings := { width := 0, height := 0 }
  deriving DecidableEq, Repr

namespace Draft

def setProperty (draft : Draft) (property : Property) (value : String) :
    Except SettingsError Draft := do
  let settings := draft.settings
  match property with
  | .width => return { draft with width := some (← parseNumber property value) }
  | .height => return { draft with height := some (← parseNumber property value) }
  | .rotation =>
    let rotation ← parseRotation (← parseNumber property value)
    return { draft with settings := { settings with rotation } }
  | .format =>
    let format ← parseFormat (String.ofList (Text.trim value.toList))
    return { draft with settings := { settings with format } }
  | .readable =>
    let readable ← parseFlag property value
    return { draft with settings := { settings with readable } }
  | .registerWidth =>
    let bits ← parseNumber property value
    if (Width.ofBits? bits).isNone then
      throw (.invalidValue property)
    return { draft with settings := { settings with registerWidth := some bits } }
  | .blueFirst =>
    let blueFirst ← parseFlag property value
    return { draft with settings := { settings with blueFirst } }

/-- The draft with one more key and value; an unknown key changes nothing. -/
def add (draft : Draft) (entry : String × String) : Except SettingsError Draft :=
  match Property.ofKey? entry.1 with
  | some property => draft.setProperty property entry.2
  | none => .ok draft

/-- The settings of a draft that has a width and a height. -/
def finish (draft : Draft) : Except SettingsError Settings := do
  let some width := draft.width | throw (.missingProperty .width)
  let some height := draft.height | throw (.missingProperty .height)
  let settings := { draft.settings with width, height }
  settings.checkGeometry
  return settings

end Draft

/-- The settings that keys and values describe. -/
def ofProperties (properties : List (String × String)) : Except SettingsError Settings := do
  (← properties.foldlM Draft.add {}).finish

end Settings

end PanelLink.Display
