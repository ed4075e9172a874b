/-
**Nine-bit words to bytes and back.**

Packing and unpacking keep one stream of bits, of which a word is nine in a row and a byte eight. The
bits of a list of small numbers determine the list, and so each of the two undoes the other.

* `getElem?_flatMap_bitsOf`: which bit of which number stands at a place of the stream;
* `eq_of_bits`: bytes with the same bits are the same;
* `NineBit.bits_unpack`: unpacking keeps the stream of bits, and `NineBit.pack_all_unpack_all`: packing
  undoes it;
* **`NineBit.packs_both_ways`**: what a call of packing and a call of unpacking leave in a buffer.
-/

import Mathlib.Data.List.Induction
import PanelLink.Proofs.Packing.BitStream

namespace PanelLink

/-! ### Places in a stream of bits -/

theorem length_bitsOf (count number : Nat) : (bitsOf count number).length = count := by
  induction count with
  | zero => rfl
  | succ count ih => rw [bitsOf, List.length_cons, ih]

theorem getElem?_bitsOf {count place : Nat} (inside : place < count) (number : Nat) :
    (bitsOf count number)[place]? = some (number.testBit (count - 1 - place)) := by
  induction count generalizing place with
  | zero => exact absurd inside (Nat.not_lt_zero place)
  | succ count ih =>
    cases place with
    | zero => rfl
    | succ place =>
      rw [bitsOf, List.getElem?_cons_succ, ih (Nat.lt_of_succ_lt_succ inside)]
      congr 2
      omega

/-- **The place of a bit** in the stream of numbers of one width. -/
theorem getElem?_flatMap_bitsOf {width : Nat} (positive : 0 < width) (numbers : List Nat)
    (place : Nat) : (numbers.flatMap (bitsOf width))[place]? =
      numbers[place / width]?.map fun number => number.testBit (width - 1 - place % width) := by
  induction numbers generalizing place with
  | nil => rfl
  | cons number numbers ih =>
    rw [List.flatMap_cons]
    by_cases first : place < width
    · rw [List.getElem?_append_left (by rwa [length_bitsOf]), getElem?_bitsOf first,
        Nat.div_eq_of_lt first, Nat.mod_eq_of_lt first]
      rfl
    · have later : width ≤ place := Nat.le_of_not_lt first
      rw [List.getElem?_append_right (by rwa [length_bitsOf]), length_bitsOf, ih,
        Nat.div_eq_sub_div positive later, List.getElem?_cons_succ, Nat.mod_eq_sub_mod later]

theorem bitsOf_inj {width number other : Nat} (small : number < 2 ^ width)
    (smallToo : other < 2 ^ width) (same : bitsOf width number = bitsOf width other) :
    number = other := by
  refine Nat.eq_of_testBit_eq fun bit => ?_
  by_cases inside : bit < width
  · have place : width - 1 - bit < width := by omega
    have back : width - 1 - (width - 1 - bit) = bit := by omega
    have bits := congrArg (fun bits => bits[width - 1 - bit]?) same
    simp only [getElem?_bitsOf place, back, Option.some_inj] at bits
    exact bits
  · have wide : 2 ^ width ≤ 2 ^ bit := Nat.pow_le_pow_right (by decide) (Nat.le_of_not_lt inside)
    rw [Nat.testBit_lt_two_pow (small.trans_le wide), Nat.testBit_lt_two_pow (smallToo.trans_le wide)]

/-- **Numbers of one width are determined by their bits.** -/
theorem eq_of_bits {width : Nat} (positive : 0 < width) {numbers others : List Nat}
    (small : ∀ number ∈ numbers, number < 2 ^ width) (smallToo : ∀ other ∈ others, other < 2 ^ width)
    (same : numbers.flatMap (bitsOf width) = others.flatMap (bitsOf width)) : numbers = others := by
  have counts (list : List Nat) : (list.flatMap (bitsOf width)).length = list.length * width := by
    rw [List.length_flatMap, funext (length_bitsOf width), List.map_const', List.sum_replicate_nat]
  induction numbers generalizing others with
  | nil =>
    have none := congrArg List.length same
    rw [counts, counts, List.length_nil, Nat.zero_mul] at none
    have empty := (Nat.mul_eq_zero.mp none.symm).resolve_right (Nat.pos_iff_ne_zero.mp positive)
    exact (List.length_eq_zero_iff.mp empty).symm
  | cons number numbers ih =>
    cases others with
    | nil =>
      have none := congrArg List.length same
      rw [counts, counts, List.length_nil, Nat.zero_mul] at none
      have empty := (Nat.mul_eq_zero.mp none).resolve_right (Nat.pos_iff_ne_zero.mp positive)
      exact List.length_eq_zero_iff.mp empty
    | cons other others =>
      obtain ⟨first, small⟩ := List.forall_mem_cons.mp small
      obtain ⟨firstToo, smallToo⟩ := List.forall_mem_cons.mp smallToo
      rw [List.flatMap_cons, List.flatMap_cons] at same
      obtain ⟨here, after⟩ := List.append_inj same (by rw [length_bitsOf, length_bitsOf])
      rw [bitsOf_inj first firstToo here, ih small smallToo after]

namespace NineBit

/-! ### Unpacking -/

/-- The words of a stream carry its bits. -/
theorem bitsOf_wordsOfStream (count number : Nat) :
    (wordsOfStream count number).flatMap (bitsOf 9) = bitsOf (9 * count) number := by
  induction count with
  | zero => rfl
  | succ count ih =>
    rw [wordsOfStream, List.flatMap_cons, ih, ← bitsOf_digit 9]
    rfl

theorem length_wordsOfStream (count number : Nat) : (wordsOfStream count number).length = count := by
  induction count with
  | zero => rfl
  | succ count ih => rw [wordsOfStream, List.length_cons, ih]

/-- A number carries the bits of the bytes that make it. -/
theorem bitsOf_ofBigEndian {bytes : List Nat} (small : ∀ byte ∈ bytes, byte < 256) :
    bitsOf (8 * bytes.length) (ofBigEndian bytes) = bytes.flatMap (bitsOf 8) := by
  induction bytes using List.reverseRecOn with
  | nil => rfl
  | append_singleton bytes byte ih =>
    obtain ⟨small, last⟩ := List.forall_mem_append.mp small
    have byteSmall : byte < 256 := last byte (List.mem_singleton_self byte)
    have joined : ofBigEndian (bytes ++ [byte]) = ofBigEndian bytes * 256 + byte := by
      rw [ofBigEndian, List.foldl_append]
      rfl
    have high : ofBigEndian (bytes ++ [byte]) >>> 8 = ofBigEndian bytes := by
      rw [joined, Nat.shiftRight_eq_div_pow]
      omega
    have low : ofBigEndian (bytes ++ [byte]) % 2 ^ 8 = byte := by
      rw [joined]
      omega
    rw [List.length_append, List.length_singleton, Nat.mul_succ, bitsOf_add, high, ih small,
      ← bitsOf_mod le_rfl (ofBigEndian (bytes ++ [byte])), low, List.flatMap_append,
      List.flatMap_singleton]

theorem lt_of_mem_pack_all {words : List Nat} {byte : Nat} (member : byte ∈ pack.all words) :
    byte < 256 := by
  obtain ⟨group, -, inGroup⟩ := List.mem_flatMap.mp member
  exact lt_of_mem_bigEndian inGroup

section Bytes

variable {bytes : List Nat} (whole : bytes.length % groupBytes = 0)

include whole

theorem length_unpack_all : (unpack.all bytes).length = bytes.length / 9 * 8 :=
  unpack.length_all whole (by decide) fun _ _ => length_wordsOfStream 8 _

variable (small : ∀ byte ∈ bytes, byte < 256)

include small

/-- **Unpacking keeps the stream of bits** of whole groups. -/
theorem bits_unpack : (unpack.all bytes).flatMap (bitsOf 9) = bytes.flatMap (bitsOf 8) := by
  refine unpack.flatMap_all fun group member => ?_
  have full : group.length = groupBytes := length_of_mem_portions (by decide) whole member
  show (wordsOfStream groupWords (ofBigEndian group)).flatMap (bitsOf 9) = _
  rw [bitsOf_wordsOfStream, ← bitsOf_ofBigEndian fun byte inGroup =>
    small byte (mem_of_mem_portions member inGroup), full]
  rfl

/-- **Packing undoes unpacking** of whole groups of bytes. -/
theorem pack_all_unpack_all : pack.all (unpack.all bytes) = bytes := by
  have wholeToo : (unpack.all bytes).length % groupWords = 0 := by
    rw [length_unpack_all whole]
    exact Nat.mul_mod_left _ 8
  refine eq_of_bits (show 0 < 8 by decide) (fun byte member => lt_of_mem_pack_all member) small ?_
  rw [bits_pack wholeToo, bits_unpack whole small]

end Bytes

/-! ### Calls on a buffer -/

/-- The bit at a place of a stream of bytes, the most significant bit of each byte first. -/
def streamBit (bytes : List Nat) (place : Nat) : Bool :=
  (bytes.getD (place / 8) 0).testBit (7 - place % 8)

/-- A call of packing: how it ends, and what the buffer holds afterwards. -/
def packCall (words buffer : List Nat) : Except Misuse Nat × List Nat :=
  match packInto words buffer with
  | .ok (count, packed) => (.ok count, packed)
  | .error misuse => (.error misuse, buffer)

/-- A call of unpacking: the number of words written, and what the buffer holds afterwards. -/
def unpackCall (bytes buffer : List Nat) : Nat × List Nat :=
  ((unpack.produced bytes buffer.length).length, unpack.into bytes buffer)

section Calls

variable {words bytes buffer : List Nat} {groups : Nat}

section Words

variable (whole : words.length = 8 * groups)

include whole

theorem words_whole : words.length % groupWords = 0 := by
  rw [whole]
  exact Nat.mul_mod_right 8 groups

theorem length_pack_all_of_whole : (pack.all words).length = 9 * groups := by
  rw [pack.length_all (words_whole whole) (by decide) fun group _ => length_packGroup group, whole,
    Nat.mul_comm]
  exact congrArg (9 * ·) (Nat.mul_div_cancel_left groups (by decide))

theorem packCall_of_whole (room : 9 * groups ≤ buffer.length) :
    packCall words buffer = (.ok (9 * groups), pack.all words ++ buffer.drop (9 * groups)) := by
  have full := words_whole whole
  have enough : words.length / pack.sourceGroup ≤ buffer.length / pack.targetGroup := by
    rw [whole]
    show 8 * groups / 8 ≤ buffer.length / 9
    omega
  unfold packCall packInto
  rw [if_pos full, pack.produced_eq_all full enough, pack.into_of_room full enough,
    length_pack_all_of_whole whole]

end Words

section Bytes

variable (whole : bytes.length = 9 * groups)

include whole

theorem bytes_whole : bytes.length % groupBytes = 0 := by
  rw [whole]
  exact Nat.mul_mod_right 9 groups

theorem length_unpack_all_of_whole : (unpack.all bytes).length = 8 * groups := by
  rw [length_unpack_all (bytes_whole whole), whole, Nat.mul_div_cancel_left groups (by decide),
    Nat.mul_comm]

theorem unpackCall_of_whole (room : 8 * groups ≤ buffer.length) :
    unpackCall bytes buffer = (8 * groups, unpack.all bytes ++ buffer.drop (8 * groups)) := by
  have full := bytes_whole whole
  have enough : bytes.length / unpack.sourceGroup ≤ buffer.length / unpack.targetGroup := by
    rw [whole]
    show 9 * groups / 9 ≤ buffer.length / 8
    omega
  unfold unpackCall
  rw [unpack.produced_eq_all full enough, unpack.into_of_room full enough,
    length_unpack_all_of_whole whole]

end Bytes

theorem packCall_of_partial (partly : words.length % groupWords ≠ 0) :
    packCall words buffer = (.error .incompleteNineBitGroup, buffer) := by
  unfold packCall packInto
  rw [if_neg partly]

end Calls

/-- Bit `8 - j` of the `i`-th word stands at place `9 * i + j` of the packed bytes. -/
theorem streamBit_pack_all {words : List Nat} (whole : words.length % groupWords = 0) {i word j : Nat}
    (at_i : words[i]? = some word) (inside : j < 9) :
    streamBit (pack.all words) (9 * i + j) = word.testBit (8 - j) := by
  have word_place : (9 * i + j) / 9 = i := by omega
  have bit_place : (9 * i + j) % 9 = j := by omega
  have same := congrArg (fun bits => bits[9 * i + j]?) (bits_pack whole)
  simp only [getElem?_flatMap_bitsOf (show 0 < 8 by decide),
    getElem?_flatMap_bitsOf (show 0 < 9 by decide), word_place, bit_place, at_i, Option.map_some]
    at same
  obtain ⟨byte, at_place, bit⟩ := Option.map_eq_some_iff.mp same
  rw [streamBit, List.getD_eq_getElem?_getD, at_place]
  exact bit

/-- **Packing and unpacking undo each other on whole groups.** Any `8 * groups` words are packed into
any buffer with room for `9 * groups` bytes: these carry the bits of the words in order, the ninth bit
of each first, and unpacking them gives the words back without the bits past the ninth. The words that
`9 * groups` bytes unpack to are packed into the same bytes. Words in no whole number of groups are
refused, and the buffer keeps what it held. -/
theorem packs_both_ways (groups : Nat) :
    (∀ words buffer : List Nat, words.length = 8 * groups → 9 * groups ≤ buffer.length →
      ∃ bytes : List Nat, bytes.length = 9 * groups ∧ (∀ byte ∈ bytes, byte < 256) ∧
        packCall words buffer = (.ok (9 * groups), bytes ++ buffer.drop (9 * groups)) ∧
        (∀ i word, words[i]? = some word →
          ∀ j < 9, streamBit bytes (9 * i + j) = word.testBit (8 - j)) ∧
        ∀ room : List Nat, 8 * groups ≤ room.length →
          unpackCall bytes room =
            (8 * groups, words.map (· &&& 0x1FF) ++ room.drop (8 * groups))) ∧
    (∀ bytes room buffer : List Nat, bytes.length = 9 * groups → (∀ byte ∈ bytes, byte < 256) →
      8 * groups ≤ room.length → 9 * groups ≤ buffer.length →
      ∃ words : List Nat, words.length = 8 * groups ∧
        unpackCall bytes room = (8 * groups, words ++ room.drop (8 * groups)) ∧
        packCall words buffer = (.ok (9 * groups), bytes ++ buffer.drop (9 * groups))) ∧
    (∀ words buffer : List Nat, words.length % 8 ≠ 0 →
      packCall words buffer = (.error .incompleteNineBitGroup, buffer)) := by
  refine ⟨fun words buffer whole room => ?_, fun bytes room buffer whole small wordRoom byteRoom => ?_,
    fun words buffer => packCall_of_partial⟩
  · have full := words_whole whole
    have length := length_pack_all_of_whole whole
    refine ⟨pack.all words, length, fun byte => lt_of_mem_pack_all, packCall_of_whole whole room,
      fun i word at_i j inside => streamBit_pack_all full at_i inside, fun space wordRoom => ?_⟩
    have masked : (fun word : Nat => word &&& 0x1FF) = (· % 512) :=
      funext fun word => Nat.and_two_pow_sub_one_eq_mod word 9
    rw [unpackCall_of_whole length wordRoom, unpack_all_pack_all full, masked]
  · have length := length_unpack_all_of_whole whole
    refine ⟨unpack.all bytes, length, unpackCall_of_whole whole wordRoom, ?_⟩
    rw [packCall_of_whole length byteRoom, pack_all_unpack_all (bytes_whole whole) small]

/-- The tagged bytes 1 to 8, with the selector first, are packed into nine bytes, which unpack to them
again. Seven of them are refused. -/
theorem packs_both_ways_oneGroup :
    let words := [0x101, 0x102, 0x103, 0x104, 0x105, 0x106, 0x107, 0x108]
    let bytes := [0x80, 0xC0, 0xA0, 0x70, 0x48, 0x2C, 0x1A, 0x0F, 0x08]
    packCall words (List.replicate 9 0) = (.ok 9, bytes) ∧
      unpackCall bytes (List.replicate 8 0) = (8, words) ∧
      packCall (words.take 7) bytes = (.error .incompleteNineBitGroup, bytes) := by
  intro words bytes
  obtain ⟨packs, -, refuses⟩ := packs_both_ways 1
  obtain ⟨packed, length, -, call, -, back⟩ := packs words (List.replicate 9 0) rfl (by decide)
  have whole : packCall words (List.replicate 9 0) = (.ok 9, bytes) := by decide +kernel
  have same : packed = bytes := by
    have written := congrArg Prod.snd (call.symm.trans whole)
    rwa [show (List.replicate 9 0).drop (9 * 1) = [] from rfl, List.append_nil] at written
  rw [same] at back
  exact ⟨whole, back (List.replicate 8 0) (by decide), refuses (words.take 7) bytes (by decide)⟩

end NineBit

end PanelLink
