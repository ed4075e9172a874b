/-
**Packed elements carry the same bits in the same order.**

On the wire a number is its bits, the most significant one first. Cutting numbers into bytes moves
the boundaries between words and leaves the stream of bits as it was.

* `bitsOf`: the low bits of a number in the order in which they are clocked;
* `bitsOf_bigEndian`: the bytes of a number carry its low bits;
* `NineBit.bits_pack`: bytes carry the bits of the nine-bit words packed into them;
* `NineBit.unpackGroup_packGroup`: the words come back, each cut to nine bits.
-/

import Mathlib.Data.List.Basic
import Mathlib.Data.Nat.Bitwise
import Mathlib.Tactic.NormNum
import Mathlib.Tactic.Ring
import PanelLink.Packing.NineBit
import PanelLink.Proofs.Packing.Groups

namespace PanelLink

/-- The low `count` bits of a number in the order in which they are clocked. -/
def bitsOf : Nat → Nat → List Bool
  | 0, _ => []
  | count + 1, number => number.testBit count :: bitsOf count number

/-- Only the low bits matter. -/
theorem bitsOf_mod {count width : Nat} (fits : count ≤ width) (number : Nat) :
    bitsOf count (number % 2 ^ width) = bitsOf count number := by
  induction count with
  | zero => rfl
  | succ count ih =>
    rw [bitsOf, bitsOf, ih (by omega), Nat.testBit_mod_two_pow, decide_eq_true (by omega),
      Bool.true_and]

/-- The bits of a number are those of its high part and then those of its low part. -/
theorem bitsOf_add (high low number : Nat) :
    bitsOf (high + low) number = bitsOf high (number >>> low) ++ bitsOf low number := by
  induction high with
  | zero => rw [Nat.zero_add, bitsOf, List.nil_append]
  | succ high ih =>
    rw [Nat.add_right_comm, bitsOf, ih, bitsOf, Nat.testBit_shiftRight, Nat.add_comm low,
      List.cons_append]

/-- The bits that follow a digit cut out of a number. -/
theorem bitsOf_digit (width count number : Nat) :
    bitsOf width (number >>> (width * count) % 2 ^ width) ++ bitsOf (width * count) number =
      bitsOf (width * (count + 1)) number := by
  rw [bitsOf_mod le_rfl, ← bitsOf_add, Nat.mul_succ, Nat.add_comm]

/-- The bytes of a number carry its low bits. -/
theorem bitsOf_bigEndian (count number : Nat) :
    (bigEndian count number).flatMap (bitsOf 8) = bitsOf (8 * count) number := by
  induction count with
  | zero => rfl
  | succ count ih =>
    rw [bigEndian, List.flatMap_cons, ih, ← bitsOf_digit 8]
    rfl

namespace NineBit

/-- A word appended to a stream of words. -/
def appendWord (number word : Nat) : Nat :=
  number * 512 + word % 512

theorem stream_eq (words : List Nat) : stream words = words.foldl appendWord 0 :=
  rfl

/-- A number in front of a stream sits above the bits of the stream. -/
theorem foldl_appendWord (start : Nat) (words : List Nat) :
    words.foldl appendWord start = start * 512 ^ words.length + stream words := by
  induction words generalizing start with
  | nil => simp [stream]
  | cons word words ih =>
    rw [stream_eq, List.foldl_cons, List.foldl_cons, ih, ih (appendWord 0 word), List.length_cons,
      appendWord, appendWord, pow_succ]
    ring

/-- A stream of words is no longer than its words. -/
theorem stream_lt (words : List Nat) : stream words < 512 ^ words.length := by
  induction words with
  | nil => decide
  | cons word words ih =>
    have low : word % 512 < 512 := Nat.mod_lt _ (by decide)
    rw [stream_eq, List.foldl_cons, foldl_appendWord, List.length_cons, pow_succ]
    calc appendWord 0 word * 512 ^ words.length + stream words
        < appendWord 0 word * 512 ^ words.length + 512 ^ words.length := by omega
      _ = (appendWord 0 word + 1) * 512 ^ words.length := by ring
      _ ≤ 512 * 512 ^ words.length :=
          Nat.mul_le_mul_right _ (by unfold appendWord; omega)
      _ = 512 ^ words.length * 512 := Nat.mul_comm _ _

/-- What stands in front of a stream is left when the stream is shifted out. -/
theorem shiftRight_foldl_appendWord (start : Nat) (words : List Nat) :
    (words.foldl appendWord start) >>> (9 * words.length) = start := by
  have width : 2 ^ (9 * words.length) = 512 ^ words.length := by
    rw [pow_mul]
    norm_num
  rw [foldl_appendWord, Nat.shiftRight_eq_div_pow, width, Nat.mul_comm,
    Nat.mul_add_div (Nat.pow_pos (by decide)), Nat.div_eq_of_lt (stream_lt words), Nat.add_zero]

/-- The leading words of a stream come out first. -/
theorem wordsOfStream_foldl (start : Nat) (words : List Nat) :
    wordsOfStream words.length (words.foldl appendWord start) = words.map (· % 512) := by
  induction words generalizing start with
  | nil => rfl
  | cons word words ih =>
    rw [List.foldl_cons, List.length_cons, wordsOfStream, ih, shiftRight_foldl_appendWord,
      List.map_cons]
    congr 1
    unfold appendWord
    omega

/-- The last words of a stream carry their bits, whatever stands in front. -/
theorem bitsOf_foldl_appendWord (start : Nat) (words : List Nat) :
    bitsOf (9 * words.length) (words.foldl appendWord start) = words.flatMap (bitsOf 9) := by
  induction words generalizing start with
  | nil => rfl
  | cons word words ih =>
    have low : appendWord start word % 2 ^ 9 = word % 2 ^ 9 := by
      unfold appendWord
      omega
    rw [List.foldl_cons, List.length_cons, ← bitsOf_digit, shiftRight_foldl_appendWord, low,
      bitsOf_mod le_rfl, ih, List.flatMap_cons]

/-- Nine bytes carry the bits of the eight words packed into them. -/
theorem bitsOf_packGroup {words : List Nat} (full : words.length = groupWords) :
    (packGroup words).flatMap (bitsOf 8) = words.flatMap (bitsOf 9) := by
  rw [packGroup, bitsOf_bigEndian, stream_eq, ← bitsOf_foldl_appendWord 0, full]
  rfl

/-- The words of a packed group come back, each cut to nine bits. -/
theorem unpackGroup_packGroup {words : List Nat} (full : words.length = groupWords) :
    unpackGroup (packGroup words) = words.map (· % 512) := by
  have fits : stream words < 1 <<< (8 * groupBytes) := by
    have := stream_lt words
    rw [full] at this
    exact this
  rw [unpackGroup, packGroup, ofBigEndian_bigEndian, Nat.mod_eq_of_lt fits, ← full, stream_eq,
    wordsOfStream_foldl]

/-- **Packing keeps the stream of bits** of whole groups. -/
theorem bits_pack {words : List Nat} (whole : words.length % groupWords = 0) :
    (pack.all words).flatMap (bitsOf 8) = words.flatMap (bitsOf 9) :=
  pack.flatMap_all fun _ member => bitsOf_packGroup (length_of_mem_portions (by decide) whole member)

theorem length_packGroup (words : List Nat) : (packGroup words).length = groupBytes :=
  length_bigEndian groupBytes (stream words)

theorem length_pack_all (words : List Nat) :
    (pack.all words).length = (portions groupWords words).length * groupBytes := by
  have packed : pack.all words = (portions groupWords words).flatMap packGroup := rfl
  rw [packed, List.length_flatMap, funext length_packGroup, List.map_const',
    List.sum_replicate_nat]

/-- **Unpacking undoes packing** on whole groups, up to the bits past the ninth. -/
theorem unpack_all_pack_all {words : List Nat} (whole : words.length % groupWords = 0) :
    unpack.all (pack.all words) = words.map (· % 512) := by
  have packed : pack.all words = ((portions groupWords words).map packGroup).flatten := rfl
  have regrouped : portions groupBytes (pack.all words) =
      (portions groupWords words).map packGroup := by
    rw [packed]
    refine portions_flatten (by decide) fun group member => ?_
    obtain ⟨source, -, rfl⟩ := List.mem_map.mp member
    exact length_packGroup source
  have restored : ∀ group ∈ portions groupWords words,
      unpackGroup (packGroup group) = group.map (· % 512) := fun group member =>
    unpackGroup_packGroup (length_of_mem_portions (by decide) whole member)
  calc unpack.all (pack.all words)
      = (portions groupWords words).flatMap fun group => unpackGroup (packGroup group) := by
        rw [Repacking.all, show unpack.sourceGroup = groupBytes from rfl, regrouped,
          List.flatMap_map]
        rfl
    _ = (portions groupWords words).flatMap (List.map (· % 512)) := List.flatMap_congr restored
    _ = words.map (· % 512) := by
        rw [List.flatMap_def, ← List.map_flatten, flatten_portions]

end NineBit

end PanelLink
