/-
**Which texts are numerals of a number.**

* `IsDigit` and `Spells`: digits of a radix in either case, and the number that they make;
* `digitOf?_eq_some_iff`, `readDigits?_eq_some_iff`: what is read as a digit and as digits;
* **`readNumeral?_eq_some_iff`**: a numeral denotes the number that its digits spell, if it is below the
  limit, and a plus sign before the digits makes no difference.
-/

import Mathlib.Data.List.Forall2
import Mathlib.Data.Nat.Digits.Defs
import Mathlib.Tactic.IntervalCases
import Mathlib.Tactic.Ring
import PanelLink.Text.Numeral

namespace PanelLink.Text

/-- The character is the digit of this value, a letter of either case from ten on. -/
structure IsDigit (radix : Nat) (char : Char) (value : Nat) : Prop where
  small : value < radix
  shown : char = Nat.digitChar value ∨ char = (Nat.digitChar value).toUpper

/-- **The digits spell a number**, the most significant digit first. -/
structure Spells (radix : Nat) (digits : List Char) (number : Nat) : Prop where
  nonempty : digits ≠ []
  value : ∃ values, List.Forall₂ (IsDigit radix) digits values ∧
    number = Nat.ofDigits radix values.reverse

/-! ### Digits -/

theorem digitValue?_eq_some_iff {char : Char} {value : Nat} (small : value < 16) :
    digitValue? char = some value ↔
      char = Nat.digitChar value ∨ char = (Nat.digitChar value).toUpper := by
  constructor
  · intro found
    have code : char.toNat = 48 + value ∧ value < 10 ∨
        char.toNat = 87 + value ∧ 10 ≤ value ∨ char.toNat = 55 + value ∧ 10 ≤ value := by
      unfold digitValue? at found
      split at found
      · rename_i decimal
        have low : 48 ≤ char.toNat := decimal.1
        have high : char.toNat ≤ 57 := decimal.2
        have := Option.some.inj found
        omega
      · split at found
        · rename_i lower
          have low : 97 ≤ char.toNat := lower.1
          have := Option.some.inj found
          omega
        · split at found
          · rename_i upper
            have low : 65 ≤ char.toNat := upper.1
            have := Option.some.inj found
            omega
          · cases found
    rw [← Char.ofNat_toNat char]
    clear found
    rcases code with ⟨code, range⟩ | ⟨code, range⟩ | ⟨code, range⟩ <;> rw [code] <;>
      clear code <;> interval_cases value <;> decide
  · rintro (rfl | rfl) <;> interval_cases value <;> decide

theorem digitOf?_eq_some_iff {radix : Nat} (few : radix ≤ 16) {char : Char} {value : Nat} :
    digitOf? radix char = some value ↔ IsDigit radix char value := by
  rw [digitOf?, Option.filter_eq_some_iff, decide_eq_true_eq]
  constructor
  · rintro ⟨found, small⟩
    exact ⟨small, (digitValue?_eq_some_iff (small.trans_le few)).mp found⟩
  · rintro ⟨small, shown⟩
    exact ⟨(digitValue?_eq_some_iff (small.trans_le few)).mpr shown, small⟩

/-- Characters without a value are no digits. -/
theorem IsDigit.ne {radix : Nat} (few : radix ≤ 16) {char other : Char} {value : Nat}
    (isDigit : IsDigit radix char value) (none : digitOf? 16 other = none) : char ≠ other := by
  rintro rfl
  have widened : IsDigit 16 char value := ⟨isDigit.small.trans_le few, isDigit.shown⟩
  rw [(digitOf?_eq_some_iff (Nat.le_refl 16)).mpr widened] at none
  cases none

theorem not_spells_plus {radix : Nat} (few : radix ≤ 16) {rest : List Char} {number : Nat} :
    ¬Spells radix ('+' :: rest) number := by
  rintro ⟨-, values, shown, -⟩
  cases shown with
  | cons isDigit _ => exact isDigit.ne few (by decide) rfl

/-! ### Numerals -/

/-- A digit that follows a number belongs to the number. -/
theorem mul_pow_add_ofDigits_cons (radix digit start : Nat) (values : List Nat) :
    start * radix ^ (digit :: values).length + Nat.ofDigits radix (digit :: values).reverse =
      (start * radix + digit) * radix ^ values.length + Nat.ofDigits radix values.reverse := by
  rw [Nat.ofDigits_reverse_cons, List.length_cons, pow_succ]
  ring

theorem readNumeral?_plus (radix : Nat) {rest : List Char} (nonempty : rest ≠ []) :
    readNumeral? radix ('+' :: rest) = readDigits? radix 0 rest := by
  cases rest with
  | nil => exact absurd rfl nonempty
  | cons char rest => rfl

theorem readNumeral?_of_ne_plus (radix : Nat) {char : Char} (other : char ≠ '+') {rest : List Char} :
    readNumeral? radix (char :: rest) = readDigits? radix 0 (char :: rest) := by
  unfold readNumeral?
  split <;> simp_all

section Reading

variable {radix : Nat} (few : radix ≤ 16) (positive : 0 < radix) {number : Nat}

include few positive

/-- **Digits that follow a number** are read if they are digits and stay below the limit. -/
theorem readDigits?_eq_some_iff {start : Nat} (begun : start < numeralLimit) {chars : List Char} :
    readDigits? radix start chars = some number ↔ number < numeralLimit ∧
      ∃ values, List.Forall₂ (IsDigit radix) chars values ∧
        number = start * radix ^ values.length + Nat.ofDigits radix values.reverse := by
  induction chars generalizing start with
  | nil =>
    rw [readDigits?, Option.some_inj]
    constructor
    · rintro rfl
      exact ⟨begun, [], .nil, by simp⟩
    · rintro ⟨-, values, shown, rfl⟩
      cases shown
      simp
  | cons char rest ih =>
    rw [readDigits?]
    constructor
    · intro read
      obtain ⟨digit, isDigit, read⟩ := Option.bind_eq_some_iff.mp read
      dsimp only at read
      split at read
      · rename_i below
        obtain ⟨limited, values, shown, rfl⟩ := (ih below).mp read
        refine ⟨limited, digit :: values, .cons ((digitOf?_eq_some_iff few).mp isDigit) shown, ?_⟩
        rw [mul_pow_add_ofDigits_cons]
      · cases read
    · rintro ⟨limited, values, shown, same⟩
      cases shown with
      | @cons _ digit _ values isDigit shown =>
        rw [mul_pow_add_ofDigits_cons] at same
        have below : start * radix + digit < numeralLimit :=
          calc start * radix + digit
              ≤ (start * radix + digit) * radix ^ values.length :=
                Nat.le_mul_of_pos_right _ (Nat.pow_pos positive)
            _ ≤ number := by
                rw [same]
                exact Nat.le_add_right _ _
            _ < numeralLimit := limited
        rw [(digitOf?_eq_some_iff few).mpr isDigit]
        show (if start * radix + digit < numeralLimit then _ else _) = _
        rw [if_pos below]
        exact (ih below).mpr ⟨limited, values, shown, same⟩

/-- Digits by themselves spell what they are read as. -/
theorem readDigits?_zero_eq_some_iff {chars : List Char} (nonempty : chars ≠ []) :
    readDigits? radix 0 chars = some number ↔ number < numeralLimit ∧ Spells radix chars number := by
  rw [readDigits?_eq_some_iff few positive (by decide)]
  simp only [Nat.zero_mul, Nat.zero_add]
  exact and_congr_right fun _ => ⟨fun value => ⟨nonempty, value⟩, Spells.value⟩

/-- **A numeral** denotes what its digits spell, with or without a plus sign before them. -/
theorem readNumeral?_eq_some_iff {chars : List Char} :
    readNumeral? radix chars = some number ↔ number < numeralLimit ∧
      ∃ digits, Spells radix digits number ∧ (chars = digits ∨ chars = '+' :: digits) := by
  cases chars with
  | nil =>
    refine iff_of_false nofun ?_
    rintro ⟨-, digits, spells, rfl | impossible⟩
    · exact spells.nonempty rfl
    · cases impossible
  | cons char rest =>
    by_cases plus : char = '+'
    · subst plus
      have after : (∃ digits, Spells radix digits number ∧
          ('+' :: rest = digits ∨ '+' :: rest = '+' :: digits)) ↔ Spells radix rest number := by
        constructor
        · rintro ⟨digits, spells, rfl | same⟩
          · exact absurd spells (not_spells_plus few)
          · exact (List.cons.inj same).2 ▸ spells
        · exact fun spells => ⟨rest, spells, .inr rfl⟩
      rw [after]
      by_cases alone : rest = []
      · subst alone
        exact iff_of_false nofun fun both => both.2.nonempty rfl
      · rw [readNumeral?_plus radix alone, readDigits?_zero_eq_some_iff few positive alone]
    · have whole : (∃ digits, Spells radix digits number ∧
          (char :: rest = digits ∨ char :: rest = '+' :: digits)) ↔
          Spells radix (char :: rest) number := by
        constructor
        · rintro ⟨digits, spells, rfl | same⟩
          · exact spells
          · exact absurd (List.cons.inj same).1 plus
        · exact fun spells => ⟨_, spells, .inl rfl⟩
      rw [whole, readNumeral?_of_ne_plus radix plus,
        readDigits?_zero_eq_some_iff few positive (List.cons_ne_nil char rest)]

end Reading

end PanelLink.Text
