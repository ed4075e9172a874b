/-
**Hexadecimal of a fixed number of digits.**

* `spells_fixedHex`: the digits spell the number, if they are enough for it;
* `lower_of_mem_fixedHex`: they are lower-case, so none of them is a blank and each takes one byte.
-/

import Mathlib.Data.String.Basic
import PanelLink.Proofs.Text.Spacing
import PanelLink.Proofs.Text.Spelling

namespace PanelLink.Text

/-- The digits from zero to fifteen. -/
def lowerDigits : List Char :=
  "0123456789abcdef".toList

theorem digitChar_mem_lowerDigits {value : Nat} (small : value < 16) :
    Nat.digitChar value ∈ lowerDigits := by
  interval_cases value <;> decide

theorem plain_lowerDigits : Plain lowerDigits :=
  plain_of_any (by decide)

theorem utf8Size_of_mem_lowerDigits {char : Char} (lower : char ∈ lowerDigits) :
    char.utf8Size = 1 := by
  have single : lowerDigits.all (·.utf8Size == 1) = true := by decide
  exact beq_iff_eq.mp (List.all_eq_true.mp single char lower)

theorem length_fixedHex (digits number : Nat) : (fixedHex digits number).length = digits := by
  induction digits with
  | zero => rfl
  | succ digits ih => rw [fixedHex, List.length_cons, ih]

theorem lower_of_mem_fixedHex {digits number : Nat} {char : Char}
    (member : char ∈ fixedHex digits number) : char ∈ lowerDigits := by
  induction digits with
  | zero => cases member
  | succ digits ih =>
    rcases List.mem_cons.mp member with rfl | later
    · exact digitChar_mem_lowerDigits (Nat.mod_lt _ (by decide))
    · exact ih later

/-- The digits of a number are those of its low part. -/
theorem exists_values_fixedHex (digits number : Nat) :
    ∃ values, List.Forall₂ (IsDigit 16) (fixedHex digits number) values ∧
      number % 16 ^ digits = Nat.ofDigits 16 values.reverse := by
  induction digits with
  | zero => exact ⟨[], .nil, Nat.mod_one number⟩
  | succ digits ih =>
    obtain ⟨values, shown, low⟩ := ih
    have count : values.length = digits := by rw [← shown.length_eq, length_fixedHex]
    have shift : number >>> (4 * digits) = number / 16 ^ digits := by
      rw [Nat.shiftRight_eq_div_pow, pow_mul]
      rfl
    refine ⟨number >>> (4 * digits) % 16 :: values,
      .cons ⟨Nat.mod_lt _ (by decide), .inl rfl⟩ shown, ?_⟩
    rw [Nat.ofDigits_reverse_cons, count, ← low, shift, Nat.mod_pow_succ]

/-- **The digits spell the number**, if there are enough of them. -/
theorem spells_fixedHex {digits number : Nat} (some_digit : 0 < digits)
    (enough : number < 16 ^ digits) : Spells 16 (fixedHex digits number) number := by
  obtain ⟨values, shown, low⟩ := exists_values_fixedHex digits number
  rw [Nat.mod_eq_of_lt enough] at low
  refine ⟨?_, values, shown, low⟩
  exact List.ne_nil_of_length_pos (by rwa [length_fixedHex])

theorem word_fixedHex {digits : Nat} (some_digit : 0 < digits) (number : Nat) :
    Word (fixedHex digits number) where
  nonempty := List.ne_nil_of_length_pos (by rwa [length_fixedHex])
  plain _ member := plain_lowerDigits _ (lower_of_mem_fixedHex member)

/-- Each digit takes one byte. -/
theorem utf8ByteSize_fixedHex (digits number : Nat) :
    (String.ofList (fixedHex digits number)).utf8ByteSize = digits := by
  rw [String.utf8ByteSize_ofList]
  induction digits with
  | zero => rfl
  | succ digits ih =>
    have one := utf8Size_of_mem_lowerDigits
      (digitChar_mem_lowerDigits (Nat.mod_lt (number >>> (4 * digits)) (show 0 < 16 by decide)))
    rw [fixedHex, String.utf8Len_cons, ih, one]

end PanelLink.Text
