/-
**Adaptations between sources and buffers of any lengths.**

Every adaptation keeps the bits of the elements and their order; tagging puts the selector in front of
every byte. How many groups it takes is decided by the side that has fewer of them, and nothing past
these groups is touched.

* `Adaptation.bitsRead`, `Adaptation.targetBits` and `Adaptation.Carries`: the bits that are read, and
  that written elements are these bits again;
* `Adaptation.regular`, `Adaptation.carries_convert`: what every adaptation does with one group;
* `Adaptation.carries_rounds`: what it therefore does in any number of rounds;
* `Adaptation.Takes.joins_back`: joining undoes splitting;
* **`Adaptation.adapts_whole_groups`**: what a call gives back and what it leaves in the buffer.
-/

import PanelLink.Packing.Adaptation
import PanelLink.Proofs.Packing.BothWays
import PanelLink.Proofs.Packing.Rounds

namespace PanelLink

/-! ### Tagged words -/

namespace NineBit

theorem lt_of_mem_wordsOfStream {count number word : Nat} (member : word ∈ wordsOfStream count number) :
    word < 512 := by
  induction count with
  | zero => exact absurd member List.not_mem_nil
  | succ count ih =>
    rcases List.mem_cons.mp member with rfl | later
    · exact Nat.mod_lt _ (by decide)
    · exact ih later

theorem tagByte_lt (selector : Selector) {byte : Nat} (small : byte < 256) :
    tagByte selector byte < 512 := by
  have bit : selectorBit selector < 2 ^ 9 := by cases selector <;> decide
  exact Nat.or_lt_two_pow (show byte < 2 ^ 9 by omega) bit

/-- A tagged byte is the selector and then the bits of the byte. -/
theorem bitsOf_tagByte (selector : Selector) {byte : Nat} (small : byte < 256) :
    bitsOf 9 (tagByte selector byte) = selector.isData :: bitsOf 8 byte := by
  have clear : byte.testBit 8 = false := Nat.testBit_lt_two_pow small
  rw [bitsOf]
  congr 1
  · rw [tagByte, Nat.testBit_or, clear, Bool.false_or]
    cases selector <;> rfl
  · have low : tagByte selector byte % 2 ^ 8 = byte % 2 ^ 8 := by
      rw [tagByte, Nat.or_mod_two_pow]
      cases selector <;> simp [selectorBit]
    rw [← bitsOf_mod (Nat.le_refl 8), low, bitsOf_mod (Nat.le_refl 8)]

theorem flatMap_map_tagByte (selector : Selector) {bytes : List Nat} (small : ∀ byte ∈ bytes, byte < 256) :
    (bytes.map (tagByte selector)).flatMap (bitsOf 9) =
      bytes.flatMap fun byte => selector.isData :: bitsOf 8 byte := by
  rw [List.flatMap_map]
  exact List.flatMap_congr fun byte member => bitsOf_tagByte selector (small byte member)

end NineBit

namespace Adaptation

/-! ### What is read and what is written -/

/-- The elements of a group that is read. -/
def sourceGroup : Adaptation → Nat
  | packNineBit => 8
  | unpackNineBit => 9
  | joinHalves => 2
  | _ => 1

/-- The elements of a group that is written. -/
def targetGroup : Adaptation → Nat
  | splitHalves | tagHalves _ => 2
  | splitTriplets => 3
  | splitQuads => 4
  | packNineBit => 9
  | unpackNineBit => 8
  | joinHalves | tagBytes _ => 1

/-- What a group adds to the count that a call gives back. -/
def countedGroup : Adaptation → Nat
  | joinHalves => 2
  | adaptation => adaptation.targetGroup

/-- The bits that an element stands for. -/
def bitsRead : Adaptation → Nat → List Bool
  | splitHalves => bitsOf 16
  | splitTriplets => bitsOf 24
  | splitQuads => bitsOf 32
  | joinHalves | unpackNineBit => bitsOf 8
  | packNineBit => bitsOf 9
  | tagBytes selector => fun byte => selector.isData :: bitsOf 8 byte
  | tagHalves selector => fun half =>
    (selector.isData :: bitsOf 8 (half / 256)) ++ selector.isData :: bitsOf 8 (half % 256)

/-- The bits of an element that is written. -/
def targetBits : Adaptation → Nat
  | splitHalves | splitTriplets | splitQuads | packNineBit => 8
  | joinHalves => 16
  | unpackNineBit | tagBytes _ | tagHalves _ => 9

/-- **The same bits in the same order**, in elements that hold no others. -/
structure Carries (adaptation : Adaptation) (read written : List Nat) : Prop where
  small : ∀ value ∈ written, value < 2 ^ adaptation.targetBits
  bits : written.flatMap (bitsOf adaptation.targetBits) = read.flatMap adaptation.bitsRead

/-- Elements of the size that is read; words that are going to be packed come in whole groups. -/
structure Takes (adaptation : Adaptation) (source : List Nat) : Prop where
  bounded : ∀ value ∈ source, value < adaptation.sourceElement.modulus
  whole : adaptation = packNineBit → source.length % 8 = 0

theorem Carries.append {adaptation : Adaptation} {read written later rest : List Nat}
    (first : adaptation.Carries read written) (second : adaptation.Carries later rest) :
    adaptation.Carries (read ++ later) (written ++ rest) where
  small := List.forall_mem_append.mpr ⟨first.small, second.small⟩
  bits := by rw [List.flatMap_append, List.flatMap_append, first.bits, second.bits]

variable (adaptation : Adaptation)

@[simp] theorem sourceGroup_repacking : adaptation.repacking.sourceGroup = adaptation.sourceGroup := by
  cases adaptation <;> rfl

@[simp] theorem targetGroup_repacking : adaptation.repacking.targetGroup = adaptation.targetGroup := by
  cases adaptation <;> rfl

/-! ### One group -/

theorem length_flatMap_bigEndian (count : Nat) {group : List Nat} (single : group.length = 1) :
    (group.flatMap (bigEndian count)).length = count := by
  obtain ⟨value, rfl⟩ := List.length_eq_one_iff.mp single
  simp

/-- Every adaptation turns full groups into full groups. -/
theorem regular : adaptation.repacking.Regular where
  source_pos := by cases adaptation <;> simp [sourceGroup]
  target_pos := by cases adaptation <;> simp [targetGroup]
  full group full := by
    cases adaptation with
    | splitHalves => exact length_flatMap_bigEndian 2 full
    | splitTriplets => exact length_flatMap_bigEndian 3 full
    | splitQuads => exact length_flatMap_bigEndian 4 full
    | joinHalves => rfl
    | packNineBit => exact NineBit.length_packGroup group
    | unpackNineBit => exact NineBit.length_wordsOfStream 8 _
    | tagBytes selector => exact (List.length_map _).trans full
    | tagHalves selector =>
      obtain ⟨half, rfl⟩ := List.length_eq_one_iff.mp full
      rfl

variable {adaptation} {group : List Nat}

theorem carries_split (count : Nat) (target : adaptation.targetBits = 8)
    (read : adaptation.bitsRead = bitsOf (8 * count)) (group : List Nat) :
    adaptation.Carries group (group.flatMap (bigEndian count)) where
  small byte member := by
    obtain ⟨value, -, inValue⟩ := List.mem_flatMap.mp member
    rw [target]
    exact lt_of_mem_bigEndian inValue
  bits := by
    rw [target, read, List.flatMap_assoc]
    exact List.flatMap_congr fun value _ => bitsOf_bigEndian count value

theorem carries_join (full : group.length = 2) (small : ∀ byte ∈ group, byte < 256) :
    joinHalves.Carries group [ofBigEndian group] where
  small := by
    obtain ⟨high, low, rfl⟩ := List.length_eq_two.mp full
    have highSmall : high < 256 := small high (by simp)
    have lowSmall : low < 256 := small low (by simp)
    simp only [List.mem_singleton, forall_eq, ofBigEndian, List.foldl_cons, List.foldl_nil, targetBits]
    omega
  bits := by
    rw [List.flatMap_singleton]
    show bitsOf 16 _ = group.flatMap (bitsOf 8)
    rw [← NineBit.bitsOf_ofBigEndian small, full]

theorem carries_unpack (full : group.length = 9) (small : ∀ byte ∈ group, byte < 256) :
    unpackNineBit.Carries group (NineBit.unpackGroup group) where
  small _ member := NineBit.lt_of_mem_wordsOfStream member
  bits := by
    show (NineBit.wordsOfStream 8 (ofBigEndian group)).flatMap (bitsOf 9) = group.flatMap (bitsOf 8)
    rw [NineBit.bitsOf_wordsOfStream, ← NineBit.bitsOf_ofBigEndian small, full]

theorem carries_tagBytes (selector : Selector) (small : ∀ byte ∈ group, byte < 256) :
    (tagBytes selector).Carries group (group.map (NineBit.tagByte selector)) where
  small := List.forall_mem_map.mpr fun byte member => NineBit.tagByte_lt selector (small byte member)
  bits := NineBit.flatMap_map_tagByte selector small

theorem carries_tagHalves (selector : Selector) (full : group.length = 1) :
    (tagHalves selector).Carries group (group.flatMap (NineBit.tagHalf selector)) := by
  obtain ⟨half, rfl⟩ := List.length_eq_one_iff.mp full
  rw [List.flatMap_singleton]
  refine ⟨List.forall_mem_map.mpr fun byte member =>
    NineBit.tagByte_lt selector (lt_of_mem_bigEndian member), ?_⟩
  have bytes : bigEndian 2 half = [half / 256 % 256, half % 256] := by
    simp [bigEndian, Nat.shiftRight_eq_div_pow]
  have high : bitsOf 8 (half / 256 % 256) = bitsOf 8 (half / 256) := bitsOf_mod (Nat.le_refl 8) _
  show (NineBit.tagHalf selector half).flatMap (bitsOf 9) = _
  rw [NineBit.tagHalf, NineBit.flatMap_map_tagByte selector fun byte => lt_of_mem_bigEndian, bytes,
    List.flatMap_singleton]
  simp only [List.flatMap_cons, List.flatMap_nil, List.append_nil, bitsRead, high]

/-- **A group is written with the bits that were read.** -/
theorem carries_convert (full : group.length = adaptation.sourceGroup)
    (bounded : ∀ value ∈ group, value < adaptation.sourceElement.modulus) :
    adaptation.Carries group (adaptation.repacking.convert group) := by
  cases adaptation with
  | splitHalves => exact carries_split 2 rfl rfl group
  | splitTriplets => exact carries_split 3 rfl rfl group
  | splitQuads => exact carries_split 4 rfl rfl group
  | joinHalves => exact carries_join full bounded
  | packNineBit => exact ⟨fun byte => lt_of_mem_bigEndian, NineBit.bitsOf_packGroup full⟩
  | unpackNineBit => exact carries_unpack full bounded
  | tagBytes selector => exact carries_tagBytes selector bounded
  | tagHalves selector => exact carries_tagHalves selector full

/-! ### All rounds -/

variable {source buffer after : List Nat} {count groups : Nat}

/-- **The first rounds of a call write the bits of the first groups.** -/
theorem carries_rounds (rounds : adaptation.repacking.Rounds source buffer count after)
    (bounded : ∀ value ∈ source, value < adaptation.sourceElement.modulus) (ran : groups ≤ count) :
    adaptation.Carries (source.take (groups * adaptation.sourceGroup))
      (after.take (groups * adaptation.targetGroup)) := by
  have nothing : adaptation.Carries [] [] := ⟨fun _ => nofun, rfl⟩
  rw [← sourceGroup_repacking, ← targetGroup_repacking]
  -- Any number of first rounds, so that shorter runs need no argument of their own.
  induction rounds generalizing groups with
  | stop => simpa [Nat.le_zero.mp ran] using nothing
  | @round source buffer after count more room rest ih =>
    cases groups with
    | zero => simpa using nothing
    | succ groups =>
      have full := List.length_take_of_le more
      have first := adaptation.regular.full _ full
      rw [Repacking.take_succ_mul, Repacking.take_succ_mul, List.take_left' first,
        List.drop_left' first]
      refine (carries_convert (by rw [full, sourceGroup_repacking]) fun value member =>
        bounded value (List.mem_of_mem_take member)).append ?_
      exact ih (fun value member => bounded value (List.mem_of_mem_drop member))
        (Nat.le_of_succ_le_succ ran)

/-- The groups of a call are those of the side that has fewer. -/
theorem groups_eq (adaptation : Adaptation) (source buffer : List Nat) :
    adaptation.repacking.groups source.length buffer.length =
      min (source.length / adaptation.sourceGroup) (buffer.length / adaptation.targetGroup) := by
  have counted := (adaptation.regular.rounds source buffer).count_eq adaptation.regular
  rwa [sourceGroup_repacking, targetGroup_repacking] at counted

/-- The rounds of a call. -/
theorem rounds_into (adaptation : Adaptation) (source buffer : List Nat) :
    adaptation.repacking.Rounds source buffer
      (min (source.length / adaptation.sourceGroup) (buffer.length / adaptation.targetGroup))
      (adaptation.repacking.into source buffer) :=
  adaptation.groups_eq source buffer ▸ adaptation.regular.rounds source buffer

/-- A call gives back the count of its groups and leaves what its rounds leave. -/
theorem Takes.call_eq (takes : adaptation.Takes source) (buffer : List Nat) :
    adaptation.call source buffer =
      (.ok (min (source.length / adaptation.sourceGroup) (buffer.length / adaptation.targetGroup) *
        adaptation.countedGroup), adaptation.repacking.into source buffer) := by
  have written := adaptation.regular.length_produced source buffer.length
  rw [adaptation.groups_eq, targetGroup_repacking] at written
  cases adaptation with
  | packNineBit =>
    have whole : source.length % NineBit.groupWords = 0 := takes.whole rfl
    rw [call, NineBit.packInto, if_pos whole]
    exact congrArg (fun count => (Except.ok count, _)) written
  | joinHalves => rfl
  | _ => exact congrArg (fun count => (Except.ok count, _)) written

/-- The buffer after a call is what is written and then what it held. -/
theorem Takes.call_parts (takes : adaptation.Takes source) (buffer : List Nat) :
    let groups :=
      min (source.length / adaptation.sourceGroup) (buffer.length / adaptation.targetGroup)
    adaptation.call source buffer = (.ok (groups * adaptation.countedGroup),
      (adaptation.repacking.into source buffer).take (groups * adaptation.targetGroup) ++
        buffer.drop (groups * adaptation.targetGroup)) := by
  intro groups
  have parts := (adaptation.rounds_into source buffer).after_eq adaptation.regular
  rw [targetGroup_repacking] at parts
  rw [takes.call_eq, ← parts]

/-! ### Splitting and joining -/

/-- Whatever needs no whole groups takes the front of a source too. -/
theorem Takes.take (takes : adaptation.Takes source) (ragged : adaptation ≠ packNineBit) (count : Nat) :
    adaptation.Takes (source.take count) where
  bounded value member := takes.bounded value (List.mem_of_mem_take member)
  whole packs := absurd packs ragged

section Halves

variable {halves bytes room : List Nat} (halfSized : splitHalves.Takes halves)

include halfSized

/-- Joined bytes are the elements that were split. -/
theorem Takes.join_of_split {joined : List Nat} (split : splitHalves.Carries halves bytes)
    (join : joinHalves.Carries bytes joined) : joined = halves :=
  eq_of_bits (show 0 < 16 by decide) join.small halfSized.bounded (join.bits.trans split.bits)

theorem Takes.call_split : splitHalves.call halves bytes =
    (.ok (min halves.length (bytes.length / 2) * 2), splitHalves.repacking.into halves bytes) := by
  have called := halfSized.call_eq bytes
  rwa [show splitHalves.sourceGroup = 1 from rfl, Nat.div_one] at called

/-- A buffer of bytes holds bytes after splitting. -/
theorem Takes.into_split (byteSized : joinHalves.Takes bytes) :
    joinHalves.Takes (splitHalves.repacking.into halves bytes) where
  bounded := by
    have rounds := splitHalves.rounds_into halves bytes
    rw [rounds.after_eq splitHalves.regular]
    exact List.forall_mem_append.mpr ⟨(carries_rounds rounds halfSized.bounded (Nat.le_refl _)).small,
      fun byte member => byteSized.bounded byte (List.mem_of_mem_drop member)⟩
  whole := nofun

/-- Bytes that begin as the split ones do are joined to the elements that were split. -/
theorem Takes.take_join {back : Nat} (byteSized : joinHalves.Takes source)
    (split : back ≤ min halves.length (bytes.length / 2))
    (join : back ≤ min (source.length / 2) room.length)
    (same : source.take (back * 2) = (splitHalves.repacking.into halves bytes).take (back * 2)) :
    (joinHalves.repacking.into source room).take back = halves.take back := by
  have written := carries_rounds (splitHalves.rounds_into halves bytes) halfSized.bounded
    (show back ≤ min (halves.length / 1) (bytes.length / 2) by rwa [Nat.div_one])
  have joined := carries_rounds (joinHalves.rounds_into source room) byteSized.bounded
    (show back ≤ min (source.length / 2) (room.length / 1) by rwa [Nat.div_one])
  simp only [sourceGroup, targetGroup, Nat.mul_one, same] at written joined
  exact (halfSized.take nofun back).join_of_split written joined

/-- **Joining undoes splitting** on the bytes that were written, as far as there is room: whether these
bytes are joined or the whole buffer that they stand in, the elements come back. -/
theorem Takes.joins_back (byteSized : joinHalves.Takes bytes) (room : List Nat) :
    ∃ count packed, splitHalves.call halves bytes = (.ok count, packed) ∧
      let back := min (count / 2) room.length
      joinHalves.call (packed.take count) room =
        (.ok (back * 2), halves.take back ++ room.drop back) ∧
      (joinHalves.call packed room).2.take back = halves.take back := by
  have stays := halfSized.into_split byteSized
  have length := (splitHalves.rounds_into halves bytes).length_after splitHalves.regular
  refine ⟨_, _, halfSized.call_split, ?_⟩
  rw [Nat.mul_div_cancel _ (by decide)]
  intro back
  set groups := min halves.length (bytes.length / 2) with groups_eq
  set packed := splitHalves.repacking.into halves bytes
  have fewer : back ≤ groups := Nat.min_le_left _ _
  have taken : (packed.take (groups * 2)).length = groups * 2 := by
    refine List.length_take_of_le ?_
    omega
  refine ⟨?_, ?_⟩
  · have written := stays.take nofun (groups * 2)
    have joined := written.call_parts room
    simp only [sourceGroup, targetGroup, countedGroup, Nat.div_one, Nat.mul_one, taken,
      Nat.mul_div_cancel groups (show 0 < 2 by decide)] at joined
    rw [joined, halfSized.take_join written fewer]
    · rw [taken, Nat.mul_div_cancel groups (by decide)]
    · rw [List.take_take, Nat.min_eq_left (Nat.mul_le_mul_right 2 fewer)]
  · rw [stays.call_eq]
    refine halfSized.take_join stays fewer ?_ rfl
    omega

end Halves

/-- **Adaptations take the whole groups that both sides have.** A call writes as many groups as the
source holds whole and the buffer has room for, gives back their count, in elements written or, when it
joins, in bytes read, and leaves the buffer after them as it was. What it writes carries the bits of
the groups that it reads, and is what a buffer with room for all of the source begins with. Joining
gives back what was split, as far as it was. -/
theorem adapts_whole_groups :
    (∀ (adaptation : Adaptation) (source buffer : List Nat), adaptation.Takes source →
      let groups :=
        min (source.length / adaptation.sourceGroup) (buffer.length / adaptation.targetGroup)
      ∃ written : List Nat, written.length = groups * adaptation.targetGroup ∧
        adaptation.Carries (source.take (groups * adaptation.sourceGroup)) written ∧
        adaptation.call source buffer = (.ok (groups * adaptation.countedGroup),
          written ++ buffer.drop (groups * adaptation.targetGroup)) ∧
        ∀ ample : List Nat,
          source.length / adaptation.sourceGroup ≤ ample.length / adaptation.targetGroup →
          (adaptation.call source ample).2.take (groups * adaptation.targetGroup) = written) ∧
    (∀ halves bytes room : List Nat, splitHalves.Takes halves → joinHalves.Takes bytes →
      ∃ count packed, splitHalves.call halves bytes = (.ok count, packed) ∧
        let back := min (count / 2) room.length
        joinHalves.call (packed.take count) room =
          (.ok (back * 2), halves.take back ++ room.drop back) ∧
        (joinHalves.call packed room).2.take back = halves.take back) := by
  refine ⟨fun adaptation source buffer takes => ?_, fun halves bytes room halfSized byteSized =>
    halfSized.joins_back byteSized room⟩
  intro groups
  have rounds := adaptation.rounds_into source buffer
  refine ⟨(adaptation.repacking.into source buffer).take (groups * adaptation.targetGroup), ?_,
    carries_rounds rounds takes.bounded (Nat.le_refl _), takes.call_parts buffer, fun ample room => ?_⟩
  · have length := rounds.length_written adaptation.regular
    rwa [targetGroup_repacking] at length
  · have fewer : groups ≤
        min (source.length / adaptation.sourceGroup) (ample.length / adaptation.targetGroup) :=
      Nat.le_min.mpr ⟨Nat.min_le_left _ _, (Nat.min_le_left _ _).trans room⟩
    have same := rounds.take_after adaptation.regular (adaptation.rounds_into source ample) fewer
    rw [targetGroup_repacking] at same
    rw [takes.call_eq]
    exact same

/-- Room for one group of nine-bit words and most of another, and for one element and half of another. -/
theorem adapts_whole_groups_insideGroup :
    (packNineBit.Takes (List.range' 256 16) ∧ ∃ written : List Nat, written.length = 9 ∧
      packNineBit.Carries (List.range' 256 8) written ∧
      packNineBit.call (List.range' 256 16) (List.replicate 17 7) =
        (.ok 9, written ++ List.replicate 8 7)) ∧
    splitHalves.Takes [0x1234, 0xABCD] ∧ joinHalves.Takes [0, 0, 7] ∧
      joinHalves.call [0x12, 0x34] [5, 6] = (.ok 2, [0x1234, 6]) := by
  have words : packNineBit.Takes (List.range' 256 16) := ⟨by decide, fun _ => rfl⟩
  have halves : splitHalves.Takes [0x1234, 0xABCD] := ⟨by decide, nofun⟩
  have bytes : joinHalves.Takes [0, 0, 7] := ⟨by decide, nofun⟩
  obtain ⟨written, length, carried, called, -⟩ :=
    adapts_whole_groups.1 packNineBit (List.range' 256 16) (List.replicate 17 7) words
  obtain ⟨count, packed, split, joined, -⟩ :=
    adapts_whole_groups.2 [0x1234, 0xABCD] [0, 0, 7] [5, 6] halves bytes
  have known : splitHalves.call [0x1234, 0xABCD] [0, 0, 7] = (.ok 2, [0x12, 0x34, 7]) := by
    decide +kernel
  cases split.symm.trans known
  exact ⟨⟨words, written, length, carried, called⟩, halves, bytes, joined⟩

/-- A buffer that ends inside a pair of tagged words. -/
example : (tagHalves .data).call [0x1234, 0x5678] [0, 0, 7] = (.ok 2, [0x112, 0x134, 7]) := by
  decide +kernel

end Adaptation

end PanelLink
