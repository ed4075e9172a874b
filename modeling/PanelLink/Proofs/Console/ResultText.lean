/-
**The text of a value that was read.**

* `ShowsValue`: a text is the lower-case hexadecimal of a value with the digits of a width and a line
  feed, a result has room for it, and a line of it lists the value;
* `formatResult_eq`: there is always room;
* **`showsValue_resultText`**: the text of every value shows it.
-/

import PanelLink.Proofs.Console.Grammar
import PanelLink.Proofs.Text.FixedDigits

namespace PanelLink.Console

open Text (Spaced Spells fixedHex lowerDigits)

/-- The digits of a value that is read at a width. -/
def digitCount : Width → Nat
  | .bits8 => 2
  | .bits9 => 4
  | .bits16 => 4
  | .bits24 => 8
  | .bits32 => 8

/-- **The text shows a value** that was read at a width. -/
structure ShowsValue (text : String) (width : Width) (value : Nat) : Prop where
  /-- It is written with all the digits of the width, in lower case, and ended by a line feed. -/
  written : ∃ digits, text.toList = digits ++ ['\n'] ∧ digits.length = digitCount width ∧
    (∀ char ∈ digits, char ∈ lowerDigits) ∧ Spells 16 digits value
  /-- A result has room for it. -/
  room : text.utf8ByteSize ≤ 12
  /-- A line of it is parsed as the value. -/
  parsed : parseLine text = .ok (value, [])

theorem digitCount_eq (width : Width) : digitCount width = 2 * width.element.bytes := by
  cases width <;> rfl

theorem digitCount_pos (width : Width) : 0 < digitCount width := by
  cases width <;> decide

theorem modulus_element (width : Width) : width.element.modulus = 16 ^ digitCount width := by
  cases width <;> rfl

theorem toList_resultText (width : Width) (value : Nat) :
    (resultText width value).toList = fixedHex (digitCount width) value ++ ['\n'] := by
  rw [resultText, Element.hex, String.toList_append, String.toList_ofList, digitCount_eq]
  rfl

theorem utf8ByteSize_resultText (width : Width) (value : Nat) :
    (resultText width value).utf8ByteSize = digitCount width + 1 := by
  rw [resultText, Element.hex, String.utf8ByteSize_append, Text.utf8ByteSize_fixedHex, digitCount_eq]
  rfl

theorem resultText_fits (width : Width) (value : Nat) :
    (resultText width value).utf8ByteSize ≤ resultRoom := by
  rw [utf8ByteSize_resultText]
  cases width <;> decide

/-- **There is always room** for a result. -/
theorem formatResult_eq (width : Width) (value : Nat) :
    formatResult width value = .ok (resultText width value) :=
  if_pos (resultText_fits width value)

/-- **The text of a value shows it**, as long as the element of the width holds the value. -/
theorem showsValue_resultText {width : Width} {value : Nat} (small : value < width.element.modulus) :
    ShowsValue (resultText width value) width value := by
  have some_digit := digitCount_pos width
  have spells : Spells 16 (fixedHex (digitCount width) value) value :=
    Text.spells_fixedHex some_digit (by rwa [← modulus_element])
  have word := Text.word_fixedHex some_digit value
  have spaced : Spaced [fixedHex (digitCount width) value] (resultText width value).toList := by
    rw [toList_resultText]
    exact .next Text.blank_nil word (by decide) (.none (List.forall_mem_singleton.mpr (by decide)))
  have numeral : Numeral (fixedHex (digitCount width) value) value := by
    refine ⟨small.trans_le ?_, "".toList, by decide, _, rfl, spells⟩
    cases width <;> decide
  refine ⟨⟨_, toList_resultText width value, Text.length_fixedHex _ _,
    fun _ => Text.lower_of_mem_fixedHex, spells⟩, resultText_fits width value, ?_⟩
  refine parseLine_of_taken ?_ (by decide)
  rw [spaced.tokens_eq]
  exact .cons (.inl numeral) .nil

end PanelLink.Console
