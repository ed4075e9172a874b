/-
**Most significant byte first.**

Wide elements cross a bus of 8-bit words as their bytes, the most significant one leading.

* `bigEndian`: the low bytes of a number, most significant first;
* `ofBigEndian`: the number that bytes make;
* `length_bigEndian`: as many bytes as asked for;
* `ofBigEndian_bigEndian`: reading the bytes gives back the low part of the number.
-/

import PanelLink.Packing.Repacking

namespace PanelLink

/-- The low `count` bytes of a number, most significant first. -/
def bigEndian : Nat → Nat → List Nat
  | 0, _ => []
  | count + 1, number => number >>> (8 * count) % 256 :: bigEndian count number

/-- The number that bytes make, the first one being the most significant. -/
def ofBigEndian (bytes : List Nat) : Nat :=
  bytes.foldl (fun number byte => number * 256 + byte) 0

@[simp] theorem length_bigEndian (count number : Nat) :
    (bigEndian count number).length = count := by
  induction count with
  | zero => rfl
  | succ count ih => simp [bigEndian, ih]

theorem lt_of_mem_bigEndian {count number byte : Nat} (member : byte ∈ bigEndian count number) :
    byte < 256 := by
  induction count with
  | zero => simp [bigEndian] at member
  | succ count ih =>
    rcases List.mem_cons.mp member with rfl | later
    · exact Nat.mod_lt _ (by decide)
    · exact ih later

theorem foldl_bigEndian (count number start : Nat) :
    (bigEndian count number).foldl (fun number byte => number * 256 + byte) start =
      start <<< (8 * count) + number % 1 <<< (8 * count) := by
  induction count generalizing start with
  | zero => simp [bigEndian, Nat.mod_one]
  | succ count ih =>
    have widen (number : Nat) : number <<< (8 * (count + 1)) = number <<< (8 * count) * 256 := by
      rw [Nat.mul_succ, Nat.shiftLeft_add, Nat.shiftLeft_eq _ 8]
    have cut : number % 1 <<< (8 * (count + 1)) =
        number % 1 <<< (8 * count) + 1 <<< (8 * count) * (number >>> (8 * count) % 256) := by
      rw [widen, Nat.mod_mul, Nat.shiftRight_eq_div_pow, Nat.one_shiftLeft]
    rw [bigEndian, List.foldl_cons, ih, cut, widen, Nat.shiftLeft_eq, Nat.shiftLeft_eq start,
      Nat.one_shiftLeft, Nat.add_mul, Nat.mul_right_comm start,
      Nat.mul_comm (number >>> (8 * count) % 256)]
    omega

/-- The bytes of a number make its low part again. -/
theorem ofBigEndian_bigEndian (count number : Nat) :
    ofBigEndian (bigEndian count number) = number % 1 <<< (8 * count) := by
  simp [ofBigEndian, foldl_bigEndian]

/-- Each element as its low bytes, most significant first. -/
def packBytes (count : Nat) : Repacking where
  sourceGroup := 1
  targetGroup := count
  convert := fun group => group.flatMap (bigEndian count)

/-- Each pair of bytes as one 16-bit element. -/
def joinBytePairs : Repacking where
  sourceGroup := 2
  targetGroup := 1
  convert := fun group => [ofBigEndian group]

end PanelLink
