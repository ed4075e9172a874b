/-
**The bus words of an element are its digits.**

On a bus of `busBits` lines an element is a number written in base `2 ^ busBits`. Cutting it gives
its digits, most significant first, and joining them gives back as many bits as they carry.

* `Width.Carried`: whether elements of a width fill whole bus words or less than one;
* `digits`: the bus words of an element, said by division;
* `piecesPerElement_of_carried`, `piecesOf_eq_digits`: elements are cut into their digits;
* **`joinPieces_of_digits`**: words that agree with the digits on the lines join to the element, as
  far as the digits reach.
-/

import Mathlib.Data.List.Basic
import Mathlib.Data.Nat.Bitwise
import Mathlib.Tactic.Ring
import PanelLink.Piece

namespace PanelLink

/-- An element fills whole bus words, or not even one. -/
def Width.Carried (width : Width) (busBits : Nat) : Prop :=
  width.bits ≤ busBits ∨ busBits ∣ width.bits

instance (width : Width) (busBits : Nat) : Decidable (width.Carried busBits) :=
  inferInstanceAs (Decidable (_ ∨ _))

/-- How many digits an element has. -/
def digitCount (width : Width) (busBits : Nat) : Nat :=
  max 1 (width.bits / busBits)

/-- The digits of an element in base `2 ^ busBits`, the most significant one first. -/
def digits (width : Width) (busBits value : Nat) : List Nat :=
  (List.range (digitCount width busBits)).reverse.map fun place =>
    value / 2 ^ (busBits * place) % 2 ^ busBits

@[simp] theorem length_digits (width : Width) (busBits value : Nat) :
    (digits width busBits value).length = digitCount width busBits := by
  simp [digits]

theorem Width.bits_le (width : Width) : width.bits ≤ 32 := by
  cases width <;> decide

theorem Element.modulus_le (element : Element) : element.modulus ≤ 2 ^ 32 := by
  cases element <;> decide

section Bus

variable {width : Width} {busBits : Nat}

theorem digitCount_pos (width : Width) (busBits : Nat) : 0 < digitCount width busBits :=
  Nat.lt_of_lt_of_le Nat.zero_lt_one (Nat.le_max_left _ _)

/-- The digits hold all the bits that travel. -/
theorem Width.Carried.bits_le_mul (carried : width.Carried busBits) :
    width.bits ≤ busBits * digitCount width busBits := by
  rcases carried with narrow | whole
  · exact narrow.trans (Nat.le_mul_of_pos_right _ (digitCount_pos _ _))
  · calc width.bits = busBits * (width.bits / busBits) := (Nat.mul_div_cancel' whole).symm
      _ ≤ busBits * digitCount width busBits := Nat.mul_le_mul_left _ (Nat.le_max_right _ _)

/-- The digits are no more than a 32-bit number has. -/
theorem mul_digitCount_le (width : Width) (narrow : busBits ≤ 32) :
    busBits * digitCount width busBits ≤ 32 := by
  unfold digitCount
  rcases Nat.le_total (width.bits / busBits) 1 with one | more
  · rw [Nat.max_eq_left one, Nat.mul_one]
    exact narrow
  · rw [Nat.max_eq_right more]
    exact (Nat.mul_div_le _ _).trans width.bits_le

/-! ### Cutting -/

/-- **A width that the bus carries** is cut into as many words as an element has digits. -/
theorem piecesPerElement_of_carried (wired : 0 < busBits) (carried : width.Carried busBits) :
    piecesPerElement width busBits = .ok (digitCount width busBits) := by
  unfold piecesPerElement digitCount
  rw [if_neg wired.ne']
  split
  · rename_i narrow
    have one : width.bits / busBits ≤ 1 := Nat.div_le_of_le_mul (by simpa using narrow)
    rw [Nat.max_eq_left one]
  · rename_i wide
    have whole : busBits ∣ width.bits := carried.resolve_left wide
    have one : 1 ≤ width.bits / busBits := (Nat.one_le_div_iff wired).mpr (by omega)
    rw [if_pos (Nat.mod_eq_zero_of_dvd whole), Nat.max_eq_right one]

/-- Elements of any other width cannot be cut. -/
theorem piecesPerElement_of_not_carried (wired : 0 < busBits) (apart : ¬width.Carried busBits) :
    piecesPerElement width busBits = .error .widthNotDivisible := by
  unfold piecesPerElement
  rw [if_neg wired.ne', if_neg fun narrow => apart (Or.inl narrow),
    if_neg fun whole => apart (Or.inr (Nat.dvd_of_mod_eq_zero whole))]

theorem lowBits_eq (narrow : busBits ≤ 32) (value : Nat) :
    lowBits busBits value = value % 2 ^ busBits := by
  rw [lowBits, Nat.one_shiftLeft, Nat.min_eq_left narrow]

/-- The bus word at a place is the digit there. -/
theorem piece_eq (narrow : busBits ≤ 32) {value : Nat} (small : value < 2 ^ 32) (place : Nat) :
    piece value place busBits = value / 2 ^ (busBits * place) % 2 ^ busBits := by
  unfold piece
  rw [lowBits_eq narrow, Nat.shiftRight_eq_div_pow, Nat.mul_comm place]
  split
  · rfl
  · rename_i past
    have beyond : value < 2 ^ (busBits * place) :=
      small.trans_le (Nat.pow_le_pow_right (by decide) (Nat.le_of_not_lt past))
    rw [Nat.div_eq_of_lt beyond, Nat.zero_mod]

theorem piecesOf_eq_digits (narrow : busBits ≤ 32) {value : Nat} (small : value < 2 ^ 32)
    (width : Width) :
    piecesOf (digitCount width busBits) busBits value = digits width busBits value := by
  unfold piecesOf digits
  simp only [piece_eq narrow small]

/-- **Elements are cut into their digits.** -/
theorem flatMap_piecesOf (narrow : busBits ≤ 32) (width : Width) (words : Words) :
    words.values.flatMap (piecesOf (digitCount width busBits) busBits) =
      words.values.flatMap (digits width busBits) := by
  refine List.flatMap_congr fun value member => piecesOf_eq_digits narrow ?_ width
  exact (words.bounded value member).trans_le words.element.modulus_le

/-- A digit is a bus word. -/
theorem lt_of_mem_digits {value digit : Nat} (member : digit ∈ digits width busBits value) :
    digit < 2 ^ busBits := by
  obtain ⟨place, -, rfl⟩ := List.mem_map.mp member
  exact Nat.mod_lt _ (Nat.two_pow_pos _)

/-- Digits are what they are on the lines. -/
theorem map_mod_digits (width : Width) (busBits value : Nat) :
    (digits width busBits value).map (· % 2 ^ busBits) = digits width busBits value := by
  conv_rhs => rw [← List.map_id (digits width busBits value)]
  exact List.map_congr_left fun digit member => Nat.mod_eq_of_lt (lt_of_mem_digits member)

/-- Words that show the digits of some elements begin with those that show the first element. -/
theorem exists_front_of_digits {words values : List Nat} {value : Nat}
    (shown : words.map (· % 2 ^ busBits) = (value :: values).flatMap (digits width busBits)) :
    ∃ front rest, words = front ++ rest ∧ front.length = digitCount width busBits ∧
      front.map (· % 2 ^ busBits) = digits width busBits value ∧
      rest.map (· % 2 ^ busBits) = values.flatMap (digits width busBits) := by
  rw [List.flatMap_cons] at shown
  obtain ⟨front, rest, split, first, later⟩ := List.map_eq_append_iff.mp shown
  refine ⟨front, rest, split, ?_, first, later⟩
  rw [← length_digits width busBits value, ← first, List.length_map]

/-- Where elements fit a bus word, an element is its only digit, cut to the lines. -/
theorem digits_of_bits_le (fits : width.bits ≤ busBits) (value : Nat) :
    digits width busBits value = [value % 2 ^ busBits] := by
  have one : digitCount width busBits = 1 :=
    Nat.max_eq_left (Nat.div_le_of_le_mul (by simpa using fits))
  simp [digits, one]

/-! ### Joining -/

/-- Appending a bus word is one step of reading a number in base `2 ^ busBits`. -/
theorem appendPiece_eq (narrow : busBits ≤ 32) (number word : Nat) :
    appendPiece number word busBits = (number * 2 ^ busBits + word % 2 ^ busBits) % 2 ^ 32 := by
  have digit : word % 2 ^ busBits < 2 ^ busBits := Nat.mod_lt _ (Nat.two_pow_pos _)
  unfold appendPiece
  rw [lowBits_eq narrow]
  split
  · rename_i fewer
    -- The bits of the number that a shift pushes past 32 are lost.
    have span : 2 ^ 32 = 2 ^ busBits * 2 ^ (32 - busBits) := by
      rw [← Nat.pow_add, Nat.add_sub_cancel' narrow]
    have upper : number <<< busBits % 4294967296 =
        2 ^ busBits * (number % 2 ^ (32 - busBits)) := by
      rw [Nat.shiftLeft_eq, show 4294967296 = 2 ^ 32 from rfl, span, Nat.mul_comm number,
        Nat.mul_mod_mul_left]
    rw [upper, ← Nat.two_pow_add_eq_or_of_lt digit, Nat.mul_comm number, span, Nat.mod_mul,
      Nat.mul_add_mod, Nat.mod_mod, Nat.mul_add_div (Nat.two_pow_pos _), Nat.div_eq_of_lt digit,
      Nat.add_zero, Nat.add_comm]
  · rename_i whole
    have all : busBits = 32 := by omega
    subst all
    rw [Nat.zero_or, Nat.mul_add_mod_self_right, Nat.mod_mod]

/-- A number that bus words make depends on what the words put on the lines. -/
theorem joinPieces_congr (narrow : busBits ≤ 32) {words others : List Nat}
    (same : words.map (· % 2 ^ busBits) = others.map (· % 2 ^ busBits)) :
    joinPieces busBits words = joinPieces busBits others := by
  have folded (words : List Nat) : joinPieces busBits words =
      (words.map (· % 2 ^ busBits)).foldl
        (fun number digit => (number * 2 ^ busBits + digit) % 2 ^ 32) 0 := by
    unfold joinPieces
    simp only [appendPiece_eq narrow, List.foldl_map]
  rw [folded, folded, same]

/-- Digits that follow a number are written below it. -/
theorem foldl_digits (value count : Nat) : ∀ number : Nat,
    ((List.range count).reverse.map fun place =>
        value / 2 ^ (busBits * place) % 2 ^ busBits).foldl
      (fun number digit => number * 2 ^ busBits + digit) number =
      number * 2 ^ (busBits * count) + value % 2 ^ (busBits * count) := by
  induction count with
  | zero => intro number; simp [Nat.mod_one]
  | succ count ih =>
    intro number
    rw [List.range_succ, List.reverse_concat, List.map_cons, List.foldl_cons, ih, Nat.mul_succ,
      Nat.pow_add, Nat.mod_mul]
    ring

/-- Reading digits with a limit on the number is reading them and cutting the number. -/
theorem foldl_mod (limit : Nat) (step : Nat → Nat → Nat)
    (cuts : ∀ number digit, step (number % limit) digit % limit = step number digit % limit)
    (items : List Nat) : ∀ number : Nat,
    items.foldl (fun number digit => step number digit % limit) (number % limit) =
      items.foldl step number % limit := by
  induction items with
  | nil => intro number; rfl
  | cons item items ih =>
    intro number
    rw [List.foldl_cons, List.foldl_cons, cuts, ih]

/-- **Joining undoes cutting**: words that show the digits of an element on the lines join to the
element, cut to the bits that the digits hold. -/
theorem joinPieces_of_digits (narrow : busBits ≤ 32) {words : List Nat} {value : Nat}
    (shown : words.map (· % 2 ^ busBits) = digits width busBits value) :
    joinPieces busBits words = value % 2 ^ (busBits * digitCount width busBits) := by
  have own := map_mod_digits width busBits value
  have cuts (number digit : Nat) :
      (number % 2 ^ 32 * 2 ^ busBits + digit) % 2 ^ 32 =
        (number * 2 ^ busBits + digit) % 2 ^ 32 := by
    simp [Nat.add_mod, Nat.mul_mod]
  calc joinPieces busBits words
      = joinPieces busBits (digits width busBits value) :=
        joinPieces_congr narrow (shown.trans own.symm)
    _ = (digits width busBits value).foldl
          (fun number digit => (number * 2 ^ busBits + digit) % 2 ^ 32) 0 := by
        unfold joinPieces
        simp only [appendPiece_eq narrow]
        conv_rhs => rw [← own, List.foldl_map]
    _ = value % 2 ^ (busBits * digitCount width busBits) % 2 ^ 32 := by
        rw [← Nat.zero_mod (2 ^ 32),
          foldl_mod (2 ^ 32) (fun number digit => number * 2 ^ busBits + digit) cuts]
        rw [digits, foldl_digits, Nat.zero_mul, Nat.zero_add]
    _ = value % 2 ^ (busBits * digitCount width busBits) := by
        refine Nat.mod_eq_of_lt ((Nat.mod_lt _ (Nat.two_pow_pos _)).trans_le ?_)
        exact Nat.pow_le_pow_right (by decide) (mul_digitCount_le width narrow)

end Bus

end PanelLink
