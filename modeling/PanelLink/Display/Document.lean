/-
**Display settings as a JSON document.**

A document is an object of properties in any order, or an array of them in the order of
`Property.all`. Width and height are required and every other property has a default.

* `Settings.ofDocument?`: the settings of a document;
* `Settings.ofEntries?`: no property may be given twice, and unknown keys are ignored.
-/

import PanelLink.Display.Settings
import PanelLink.Json.Tree

namespace PanelLink.Display

namespace Settings

/-- The unsigned number of a value, if it is below a limit. -/
def numberBelow? (limit : Nat) : Json.Tree → Option Nat
  | .number (some number) => if number < limit then some number else none
  | _ => none

def flag? : Json.Tree → Option Bool
  | .boolean value => some value
  | _ => none

/-- The format of a value: its name, or an object whose one key is its name and leads to null. -/
def format? : Json.Tree → Option PixelFormat
  | .text (some name) => PixelFormat.ofName? name
  | .object [(some name, .null)] => PixelFormat.ofName? name
  | _ => none

/-- The register width of a value, which may be null. -/
def registerWidth? : Json.Tree → Option (Option Nat)
  | .null => some none
  | tree => (numberBelow? 256 tree).map some

/-- The draft with one property taken from a value. -/
def Draft.setValue? (draft : Draft) (property : Property) (tree : Json.Tree) : Option Draft := do
  let settings := draft.settings
  match property with
  | .width => return { draft with width := some (← numberBelow? Text.numeralLimit tree) }
  | .height => return { draft with height := some (← numberBelow? Text.numeralLimit tree) }
  | .rotation =>
    let rotation ← (numberBelow? Text.numeralLimit tree).bind Rotation.ofDegrees?
    return { draft with settings := { settings with rotation } }
  | .format => return { draft with settings := { settings with format := ← format? tree } }
  | .readable => return { draft with settings := { settings with readable := ← flag? tree } }
  | .registerWidth =>
    let registerWidth ← registerWidth? tree
    return { draft with settings := { settings with registerWidth } }
  | .blueFirst => return { draft with settings := { settings with blueFirst := ← flag? tree } }

/-- The settings of a draft that has a width and a height, whatever their geometry. -/
def Draft.settings? (draft : Draft) : Option Settings := do
  return { draft.settings with width := ← draft.width, height := ← draft.height }

/-- The draft with the properties of entries, none of them given before. -/
def addEntries? : Draft → List Property → List (Option String × Json.Tree) → Option Draft
  | draft, _, [] => some draft
  | _, _, (none, _) :: _ => none
  | draft, given, (some key, tree) :: rest =>
    match Property.ofKey? key with
    | none => addEntries? draft given rest
    | some property =>
      if property ∈ given then none
      else do addEntries? (← draft.setValue? property tree) (property :: given) rest

/-- The draft with properties given by their places. -/
def addPlaced? : Draft → List Property → List Json.Tree → Option Draft
  | draft, _, [] => some draft
  | _, [], _ :: _ => none
  | draft, property :: later, tree :: rest => do
    addPlaced? (← draft.setValue? property tree) later rest

def ofEntries? (entries : List (Option String × Json.Tree)) : Option Settings := do
  (← addEntries? {} [] entries).settings?

def ofPlaced? (items : List Json.Tree) : Option Settings := do
  (← addPlaced? {} Property.all items).settings?

/-- The settings of a document; their geometry is not checked. -/
def ofDocument? (text : String) : Option Settings := do
  match ← Json.parse? text with
  | .object entries => ofEntries? entries
  | .array items => ofPlaced? items
  | _ => none

end Settings

end PanelLink.Display
