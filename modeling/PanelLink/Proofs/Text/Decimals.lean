/-
**Decimal words.**

* `Decimal`: a word that is a decimal number of 32 bits, with or without a plus sign;
* `readDecimal?_eq_some_iff`: those are the words that are read as a number;
* `Decimal.mem`: the characters of such a word, so that it has neither blanks nor separators.
-/

import PanelLink.Proofs.Text.Spelling
import PanelLink.Proofs.Text.Trimming

namespace PanelLink.Text

/-- **The word is a decimal number** that 32 bits hold, maybe with a plus sign before its digits. -/
structure Decimal (word : List Char) (number : Nat) : Prop where
  small : number < 2 ^ 32
  spelled : ∃ digits, Spells 10 digits number ∧ (word = digits ∨ word = '+' :: digits)

theorem readDecimal?_eq_some_iff {word : List Char} {number : Nat} :
    readDecimal? word = some number ↔ Decimal word number :=
  (readNumeral?_eq_some_iff (by decide) (by decide)).trans
    ⟨fun ⟨small, spelled⟩ => ⟨small, spelled⟩, fun decimal => ⟨decimal.small, decimal.spelled⟩⟩

/-- The characters of decimal words. -/
def decimalChars : List Char :=
  "+0123456789".toList

theorem IsDigit.mem {char : Char} {value : Nat} (isDigit : IsDigit 10 char value) :
    char ∈ decimalChars := by
  obtain ⟨small, shown⟩ := isDigit
  rcases shown with rfl | rfl <;> interval_cases value <;> decide

theorem Spells.mem {digits : List Char} {number : Nat} (spells : Spells 10 digits number) :
    ∀ char ∈ digits, char ∈ decimalChars := by
  obtain ⟨-, values, shown, -⟩ := spells
  clear number
  induction shown with
  | nil => nofun
  | cons isDigit _ ih => exact List.forall_mem_cons.mpr ⟨isDigit.mem, ih⟩

theorem Decimal.mem {word : List Char} {number : Nat} (decimal : Decimal word number) :
    ∀ char ∈ word, char ∈ decimalChars := by
  obtain ⟨-, digits, spells, rfl | rfl⟩ := decimal
  · exact spells.mem
  · exact List.forall_mem_cons.mpr ⟨by decide, spells.mem⟩

theorem Decimal.ne_nil {word : List Char} {number : Nat} (decimal : Decimal word number) :
    word ≠ [] := by
  obtain ⟨-, digits, spells, rfl | rfl⟩ := decimal
  · exact spells.nonempty
  · exact List.cons_ne_nil _ _

theorem plain_decimalChars : Plain decimalChars :=
  plain_of_any (by decide)

theorem Decimal.plain {word : List Char} {number : Nat} (decimal : Decimal word number) :
    Plain word :=
  fun char member => plain_decimalChars char (decimal.mem char member)

theorem Decimal.word {word : List Char} {number : Nat} (decimal : Decimal word number) :
    Word word where
  nonempty := decimal.ne_nil
  plain := decimal.plain

end PanelLink.Text
