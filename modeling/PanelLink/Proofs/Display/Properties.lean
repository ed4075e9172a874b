/-
**Settings from properties in any order.**

* `Property.Denotes`: a text says what a property is, with blanks around it;
* `Describes`: a listing of keys and texts says what every property is: each text of a known key is well
  formed, and the last one of a key counts;
* `setProperty_eq_ok_iff`, `describes_of_foldlM`, `exists_foldlM`: what one entry does, and a listing;
* **`ofProperties_eq_ok_iff`**: settings come of exactly the listings that describe them, if their
  geometry fits.
-/

import Mathlib.Data.List.Induction
import PanelLink.Display.Settings
import PanelLink.Proofs.Text.Decimals

namespace PanelLink.Display

open Text (Decimal Padded Plain)

/-- What is found by its code has this code. -/
theorem code_of_find? {α β : Type} [BEq β] [LawfulBEq β] {all : List α} {code : α → β} {key : β}
    {item : α} (found : (all.find? fun item => code item == key) = some item) : code item = key :=
  beq_iff_eq.mp (List.find?_some (p := fun item => code item == key) found)

/-- Two steps succeed together if each succeeds. -/
theorem bind_eq_ok_iff {α β : Type} {first : Except SettingsError α}
    {next : α → Except SettingsError β} {value : β} :
    first >>= next = .ok value ↔ ∃ middle, first = .ok middle ∧ next middle = .ok value := by
  cases first <;> simp [bind, Except.bind]

namespace Property

/-- What may be said about a property. -/
abbrev Value : Property → Type
  | width => Nat
  | height => Nat
  | rotation => Rotation
  | format => PixelFormat
  | readable => Bool
  | registerWidth => Nat
  | blueFirst => Bool

/-- What holds of a property about which nothing is said, if anything does. -/
def default? : (property : Property) → Option property.Value
  | width => none
  | height => none
  | rotation => some Rotation.upright
  | format => some PixelFormat.rgb565
  | readable => some false
  | registerWidth => none
  | blueFirst => some false

/-- The words for a truth value. -/
def flagWords : Bool → List String
  | true => ["", "true", "1"]
  | false => ["false", "0"]

/-- **The word says what a property is.** -/
def Means : (property : Property) → List Char → property.Value → Prop
  | width, word, number => Decimal word number
  | height, word, number => Decimal word number
  | rotation, word, turn => Decimal word (Rotation.degrees turn)
  | format, word, layout => String.ofList word = PixelFormat.name layout
  | readable, word, flag => String.ofList word ∈ flagWords flag
  | registerWidth, word, bits => Decimal word bits ∧ ∃ width : Width, width.bits = bits
  | blueFirst, word, flag => String.ofList word ∈ flagWords flag

/-- **The text says what a property is**, with any blanks around it. -/
def Denotes (property : Property) (text : String) (value : property.Value) : Prop :=
  ∃ word, Padded word text.toList ∧ property.Means word value

/-- The number of a register width that a text is read as. -/
def parseWidth (text : String) : Except SettingsError Nat := do
  let bits ← Settings.parseNumber registerWidth text
  if (Width.ofBits? bits).isNone then throw (.invalidValue registerWidth)
  return bits

/-- What the text of a property is read as. -/
def parse : (property : Property) → String → Except SettingsError property.Value
  | width, text => Settings.parseNumber width text
  | height, text => Settings.parseNumber height text
  | rotation, text => Settings.parseNumber rotation text >>= Settings.parseRotation
  | format, text => Settings.parseFormat (String.ofList (Text.trim text.toList))
  | readable, text => Settings.parseFlag readable text
  | registerWidth, text => parseWidth text
  | blueFirst, text => Settings.parseFlag blueFirst text

/-! ### Keys -/

theorem ofKey?_key (property : Property) : ofKey? property.key = some property := by
  cases property <;> decide

theorem ofKey?_eq_some_iff {key : String} {property : Property} :
    ofKey? key = some property ↔ property.key = key := by
  constructor
  · exact fun found => code_of_find? found
  · rintro rfl
    exact ofKey?_key property

theorem key_injective : Function.Injective key := by
  intro property other same
  rw [← Option.some_inj, ← ofKey?_key property, same, ofKey?_key]

/-! ### Texts -/

theorem parseNumber_eq_ok_iff {property : Property} {text : String} {number : Nat} :
    Settings.parseNumber property text = .ok number ↔
      Decimal (Text.trim text.toList) number := by
  rw [← Text.readDecimal?_eq_some_iff, Settings.parseNumber]
  cases Text.readDecimal? (Text.trim text.toList) <;> simp

theorem parseFlag_eq_ok_iff {property : Property} {text : String} {flag : Bool} :
    Settings.parseFlag property text = .ok flag ↔
      String.ofList (Text.trim text.toList) ∈ flagWords flag := by
  unfold Settings.parseFlag
  generalize String.ofList (Text.trim text.toList) = word
  cases flag <;> grind [flagWords]

theorem parseRotation_eq_ok_iff {degrees : Nat} {rotation : Rotation} :
    Settings.parseRotation degrees = .ok rotation ↔ rotation.degrees = degrees := by
  unfold Settings.parseRotation
  constructor
  · intro parsed
    split at parsed
    · rename_i found
      cases parsed
      exact code_of_find? found
    · cases parsed
  · rintro rfl
    rw [Rotation.ofDegrees?_degrees]

theorem parseFormat_eq_ok_iff {name : String} {format : PixelFormat} :
    Settings.parseFormat name = .ok format ↔ name = format.name := by
  unfold Settings.parseFormat
  constructor
  · intro parsed
    split at parsed
    · rename_i found
      cases parsed
      exact (code_of_find? found).symm
    · cases parsed
  · rintro rfl
    rw [PixelFormat.ofName?_name]

theorem parseDegrees_eq_ok_iff {property : Property} {text : String} {rotation : Rotation} :
    Settings.parseNumber property text >>= Settings.parseRotation = .ok rotation ↔
      Decimal (Text.trim text.toList) rotation.degrees := by
  simp only [bind_eq_ok_iff, parseRotation_eq_ok_iff, exists_eq_right', parseNumber_eq_ok_iff]

/-- A number is known as a width's if it is one. -/
theorem isNone_ofBits?_eq_false_iff {bits : Nat} :
    (Width.ofBits? bits).isNone = false ↔ ∃ width : Width, width.bits = bits := by
  constructor
  · intro known
    obtain ⟨width, found⟩ := Option.isSome_iff_exists.mp (Option.isNone_eq_false_iff.mp known)
    exact ⟨width, code_of_find? found⟩
  · rintro ⟨width, rfl⟩
    rw [Width.ofBits?_bits]
    rfl

theorem parseWidth_eq_ok_iff {text : String} {bits : Nat} :
    parseWidth text = .ok bits ↔
      Decimal (Text.trim text.toList) bits ∧ ∃ width : Width, width.bits = bits := by
  rw [parseWidth, bind_eq_ok_iff, ← isNone_ofBits?_eq_false_iff]
  simp only [parseNumber_eq_ok_iff]
  constructor
  · rintro ⟨number, decimal, checked⟩
    cases known : (Width.ofBits? number).isNone with
    | true =>
      rw [known] at checked
      cases checked
    | false =>
      rw [known] at checked
      cases checked
      exact ⟨decimal, known⟩
  · rintro ⟨decimal, known⟩
    refine ⟨bits, decimal, ?_⟩
    rw [known]
    rfl

theorem plain_flagWords {flag : Bool} {word : List Char}
    (listed : String.ofList word ∈ flagWords flag) : Plain word := by
  have none : ∀ known ∈ flagWords flag, known.toList.any Text.isBlank = false := by
    cases flag <;> decide
  have plain := Text.plain_of_any (none _ listed)
  rwa [String.toList_ofList] at plain

theorem plain_name {format : PixelFormat} {word : List Char}
    (named : String.ofList word = format.name) : Plain word := by
  have none : format.name.toList.any Text.isBlank = false := by
    cases format <;> decide
  have plain := Text.plain_of_any none
  rwa [← named, String.toList_ofList] at plain

/-- Nothing that is said of a property has blanks inside. -/
theorem Means.plain {property : Property} {word : List Char} {value : property.Value}
    (means : property.Means word value) : Plain word := by
  cases property with
  | width | height | rotation => exact Decimal.plain means
  | format => exact plain_name means
  | readable | blueFirst => exact plain_flagWords means
  | registerWidth => exact Decimal.plain means.1

/-- The word is what trimming leaves of the text. -/
theorem denotes_iff {property : Property} {text : String} {value : property.Value} :
    property.Denotes text value ↔ property.Means (Text.trim text.toList) value := by
  constructor
  · rintro ⟨word, padded, means⟩
    rwa [(Text.trim_eq_iff means.plain).mpr padded]
  · exact fun means => ⟨_, Text.padded_trim _, means⟩

/-- **A text is read as what it says.** -/
theorem parse_eq_ok_iff {property : Property} {text : String} {value : property.Value} :
    property.parse text = .ok value ↔ property.Denotes text value := by
  rw [denotes_iff]
  cases property with
  | width | height => exact parseNumber_eq_ok_iff
  | format => exact parseFormat_eq_ok_iff
  | readable | blueFirst => exact parseFlag_eq_ok_iff
  | rotation => exact parseDegrees_eq_ok_iff
  | registerWidth => exact parseWidth_eq_ok_iff

/-- A text says one thing about a property. -/
theorem Denotes.unique {property : Property} {text : String} {value other : property.Value}
    (denotes : property.Denotes text value) (denotesToo : property.Denotes text other) :
    value = other :=
  Except.ok.inj ((parse_eq_ok_iff.mpr denotes).symm.trans (parse_eq_ok_iff.mpr denotesToo))

end Property

/-! ### Values -/

/-- What is said of each property, if anything is. -/
abbrev Values :=
  (property : Property) → Option property.Value

namespace Settings

def values (settings : Settings) : Values
  | .width => some settings.width
  | .height => some settings.height
  | .rotation => some settings.rotation
  | .format => some settings.format
  | .readable => some settings.readable
  | .registerWidth => settings.registerWidth
  | .blueFirst => some settings.blueFirst

/-- Settings are what their properties are. -/
theorem values_injective : Function.Injective values := by
  intro settings other same
  have each (property : Property) := congrFun same property
  cases settings
  cases other
  rw [Settings.mk.injEq]
  exact ⟨Option.some.inj (each .width), Option.some.inj (each .height),
    Option.some.inj (each .rotation), Option.some.inj (each .format),
    Option.some.inj (each .readable), each .registerWidth, Option.some.inj (each .blueFirst)⟩

namespace Draft

def values (draft : Draft) : Values
  | .width => draft.width
  | .height => draft.height
  | .rotation => some draft.settings.rotation
  | .format => some draft.settings.format
  | .readable => some draft.settings.readable
  | .registerWidth => draft.settings.registerWidth
  | .blueFirst => some draft.settings.blueFirst

/-- The draft with one property set to a value. -/
def put (draft : Draft) : (property : Property) → property.Value → Draft
  | .width, number => { draft with width := some number }
  | .height, number => { draft with height := some number }
  | .rotation, turn => { draft with settings := { draft.settings with rotation := turn } }
  | .format, layout => { draft with settings := { draft.settings with format := layout } }
  | .readable, flag => { draft with settings := { draft.settings with readable := flag } }
  | .registerWidth, bits =>
    { draft with settings := { draft.settings with registerWidth := some bits } }
  | .blueFirst, flag => { draft with settings := { draft.settings with blueFirst := flag } }

theorem values_put (draft : Draft) (property : Property) (value : property.Value) :
    (draft.put property value).values = Function.update draft.values property (some value) := by
  funext other
  cases property <;> cases other <;> rfl

theorem values_empty : values {} = Property.default? := by
  funext property
  cases property <;> rfl

/-- Setting a property is reading its text and putting what it says. -/
theorem setProperty_eq (draft : Draft) (property : Property) (text : String) :
    draft.setProperty property text = do return draft.put property (← property.parse text) := by
  cases property with
  | width | height | format | readable | blueFirst => rfl
  | rotation => exact (bind_assoc _ _ _).symm
  | registerWidth =>
    show _ = Property.parseWidth text >>= fun bits => pure (draft.put .registerWidth bits)
    rw [Property.parseWidth, bind_assoc]
    refine bind_congr fun bits => ?_
    cases (Width.ofBits? bits).isNone <;> rfl

/-- **One property is set** to what its text says, or the text is refused. -/
theorem setProperty_eq_ok_iff {draft after : Draft} {property : Property} {text : String} :
    draft.setProperty property text = .ok after ↔
      ∃ value, property.Denotes text value ∧ draft.put property value = after := by
  simp only [setProperty_eq, bind_eq_ok_iff, Property.parse_eq_ok_iff, pure, Except.pure,
    Except.ok.injEq]

/-- **What one more entry does**: it is ignored if its key is unknown. -/
theorem add_eq_ok {draft after : Draft} {entry : String × String} (added : draft.add entry = .ok after) :
    (∀ property : Property, property.key ≠ entry.1) ∧ after = draft ∨
      ∃ property value, property.key = entry.1 ∧ property.Denotes entry.2 value ∧
        draft.put property value = after := by
  unfold add at added
  split at added
  · rename_i property known
    obtain ⟨value, denotes, same⟩ := setProperty_eq_ok_iff.mp added
    exact .inr ⟨property, value, Property.ofKey?_eq_some_iff.mp known, denotes, same⟩
  · rename_i unknown
    refine .inl ⟨fun property same => ?_, (Except.ok.inj added).symm⟩
    rw [Property.ofKey?_eq_some_iff.mpr same] at unknown
    cases unknown

/-- An entry is taken if its text is well formed, whatever the draft. -/
theorem exists_add {entry : String × String}
    (wellFormed : ∀ property : Property, property.key = entry.1 →
      ∃ value, property.Denotes entry.2 value) (draft : Draft) :
    ∃ after, draft.add entry = .ok after := by
  unfold add
  split
  · rename_i property known
    obtain ⟨value, denotes⟩ := wellFormed property (Property.ofKey?_eq_some_iff.mp known)
    exact ⟨_, setProperty_eq_ok_iff.mpr ⟨value, denotes, rfl⟩⟩
  · exact ⟨draft, rfl⟩

/-- **A draft is finished** if its geometry fits, and its properties stay what they are. -/
theorem finish_eq_ok_iff {draft : Draft} {settings : Settings} :
    draft.finish = .ok settings ↔
      settings.checkGeometry = .ok () ∧ settings.values = draft.values := by
  constructor
  · intro finished
    cases wide : draft.width with
    | none =>
      rw [finish, wide] at finished
      cases finished
    | some width =>
      cases high : draft.height with
      | none =>
        rw [finish, wide, high] at finished
        cases finished
      | some height =>
        rw [finish, wide, high] at finished
        obtain ⟨⟨⟩, fits, same⟩ := bind_eq_ok_iff.mp finished
        cases same
        refine ⟨fits, funext fun property => ?_⟩
        cases property with
        | width => exact wide.symm
        | height => exact high.symm
        | rotation | format | readable | registerWidth | blueFirst => rfl
  · rintro ⟨fits, same⟩
    have each (property : Property) := congrFun same property
    have whole : { draft.settings with width := settings.width, height := settings.height } =
        settings := by
      refine values_injective (funext fun property => ?_)
      cases property with
      | width | height => rfl
      | rotation => exact (each .rotation).symm
      | format => exact (each .format).symm
      | readable => exact (each .readable).symm
      | registerWidth => exact (each .registerWidth).symm
      | blueFirst => exact (each .blueFirst).symm
    have wide : draft.width = some settings.width := (each .width).symm
    have high : draft.height = some settings.height := (each .height).symm
    rw [finish, wide, high]
    show (do Settings.checkGeometry _; return _) = _
    rw [whole, fits]
    rfl

end Draft

end Settings

/-! ### Listings -/

/-- The text of the last entry with the key of a property. -/
def lastText? (properties : List (String × String)) (property : Property) : Option String :=
  properties.reverse.lookup property.key

/-- **The listing describes these values**: each text of a known key is well formed, and what the last
one of a key says is the value of the property, or else the default is. -/
structure Describes (properties : List (String × String)) (values : Values) : Prop where
  wellFormed : ∀ entry ∈ properties, ∀ property : Property, property.key = entry.1 →
    ∃ value, property.Denotes entry.2 value
  last : ∀ property, match lastText? properties property with
    | some text => ∃ value, values property = some value ∧ property.Denotes text value
    | none => values property = property.default?

theorem lastText?_concat (properties : List (String × String)) (entry : String × String)
    (property : Property) :
    lastText? (properties ++ [entry]) property =
      if property.key = entry.1 then some entry.2 else lastText? properties property := by
  rw [lastText?, List.reverse_append, List.reverse_singleton, List.singleton_append, List.lookup_cons]
  by_cases same : property.key = entry.1
  · rw [if_pos same, same, beq_self_eq_true]
  · rw [if_neg same, beq_false_of_ne same]
    rfl

theorem describes_nil : Describes [] Property.default? where
  wellFormed := nofun
  last _ := rfl

/-- An entry of an unknown key says nothing. -/
theorem Describes.concat_unknown {properties : List (String × String)} {values : Values}
    (describes : Describes properties values) {entry : String × String}
    (unknown : ∀ property : Property, property.key ≠ entry.1) :
    Describes (properties ++ [entry]) values where
  wellFormed := by
    rw [List.forall_mem_append, List.forall_mem_singleton]
    exact ⟨describes.wellFormed, fun property same => absurd same (unknown property)⟩
  last property := by
    rw [lastText?_concat, if_neg (unknown property)]
    exact describes.last property

/-- An entry of a property says what that is, whatever was said before. -/
theorem Describes.concat_known {properties : List (String × String)} {values : Values}
    (describes : Describes properties values) {entry : String × String} {property : Property}
    (known : property.key = entry.1) {value : property.Value}
    (denotes : property.Denotes entry.2 value) :
    Describes (properties ++ [entry]) (Function.update values property (some value)) where
  wellFormed := by
    rw [List.forall_mem_append, List.forall_mem_singleton]
    refine ⟨describes.wellFormed, fun other same => ?_⟩
    obtain rfl := Property.key_injective (known.trans same.symm)
    exact ⟨value, denotes⟩
  last other := by
    rw [lastText?_concat]
    by_cases same : other = property
    · subst same
      rw [if_pos known, Function.update_self]
      exact ⟨value, rfl, denotes⟩
    · rw [if_neg fun key => same (Property.key_injective (key.trans known.symm)),
        Function.update_of_ne same]
      exact describes.last other

/-- A listing describes one thing. -/
theorem Describes.unique {properties : List (String × String)} {values others : Values}
    (describes : Describes properties values) (describesToo : Describes properties others) :
    values = others := by
  funext property
  have one := describes.last property
  have two := describesToo.last property
  generalize lastText? properties property = text? at one two
  cases text? with
  | none => exact one.trans two.symm
  | some text =>
    obtain ⟨value, isValue, denotes⟩ := one
    obtain ⟨other, isOther, denotesToo⟩ := two
    rw [isValue, isOther, denotes.unique denotesToo]

/-- **What comes of a whole listing** is what it describes. -/
theorem describes_of_foldlM {properties : List (String × String)} {draft : Settings.Draft}
    (folded : properties.foldlM Settings.Draft.add {} = .ok draft) :
    Describes properties draft.values := by
  -- Entries are added at the end, where the last one of a key counts.
  induction properties using List.reverseRecOn generalizing draft with
  | nil =>
    cases folded
    rw [Settings.Draft.values_empty]
    exact describes_nil
  | append_singleton properties entry ih =>
    rw [List.foldlM_append, bind_eq_ok_iff] at folded
    obtain ⟨before, foldedBefore, added⟩ := folded
    rw [List.foldlM_cons, bind_eq_ok_iff] at added
    obtain ⟨after, added, same⟩ := added
    cases same
    rcases Settings.Draft.add_eq_ok added with ⟨unknown, rfl⟩ | ⟨property, value, known, denotes, rfl⟩
    · exact (ih foldedBefore).concat_unknown unknown
    · rw [Settings.Draft.values_put]
      exact (ih foldedBefore).concat_known known denotes

/-- A listing of well-formed texts is taken to its end. -/
theorem exists_foldlM {properties : List (String × String)}
    (wellFormed : ∀ entry ∈ properties, ∀ property : Property, property.key = entry.1 →
      ∃ value, property.Denotes entry.2 value) (draft : Settings.Draft) :
    ∃ after, properties.foldlM Settings.Draft.add draft = .ok after := by
  induction properties generalizing draft with
  | nil => exact ⟨draft, rfl⟩
  | cons entry others ih =>
    obtain ⟨first, rest⟩ := List.forall_mem_cons.mp wellFormed
    obtain ⟨next, added⟩ := Settings.Draft.exists_add first draft
    obtain ⟨after, folded⟩ := ih rest next
    refine ⟨after, ?_⟩
    rw [List.foldlM_cons, added]
    exact folded

/-- **The settings of a listing**, for every listing of keys and texts: settings come of it exactly if
their geometry fits and the listing describes them. So the order of entries of different keys, blanks,
entries of unknown keys and well-formed entries before the last one of a key make no difference, and
whatever settings come of a listing have been checked. -/
theorem ofProperties_eq_ok_iff {properties : List (String × String)} {settings : Settings} :
    Settings.ofProperties properties = .ok settings ↔
      settings.checkGeometry = .ok () ∧ Describes properties settings.values := by
  rw [Settings.ofProperties, bind_eq_ok_iff]
  constructor
  · rintro ⟨draft, folded, finished⟩
    obtain ⟨fits, same⟩ := Settings.Draft.finish_eq_ok_iff.mp finished
    rw [same]
    exact ⟨fits, describes_of_foldlM folded⟩
  · rintro ⟨fits, describes⟩
    obtain ⟨draft, folded⟩ := exists_foldlM describes.wellFormed {}
    exact ⟨draft, folded, Settings.Draft.finish_eq_ok_iff.mpr
      ⟨fits, describes.unique (describes_of_foldlM folded)⟩⟩

/-- A listing in some order, with an earlier text of a key, a key that means nothing here, and blanks. -/
theorem ofProperties_eq_ok_iff_shuffled :
    let properties := [("bgr", " 1 "), ("rotation", "90"), ("height", "8"), ("reset-gpios", "17"),
      ("format", "mono01\t"), ("height", " +320"), ("width", "0100"), ("rotation", "270")]
    let settings : Settings := { width := 100, height := 320, rotation := .threeQuarters,
                                 format := .mono01, blueFirst := true }
    Settings.ofProperties properties = .ok settings ∧ settings.checkGeometry = .ok () ∧
      Describes properties settings.values := by
  intro properties settings
  have read : Settings.ofProperties properties = .ok settings := by decide +kernel
  exact ⟨read, ofProperties_eq_ok_iff.mp read⟩

end PanelLink.Display
