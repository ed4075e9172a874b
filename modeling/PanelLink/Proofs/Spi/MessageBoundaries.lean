/-
**Where the messages of a block end.**

A block is cut into segments, a few of them to a message, without regard to what its words stand for.
So a message may end inside a unit of words that belong together.

* `Cutter.reach`: how many words the first segments of a run take;
* `flatten_take_segments`: the first segments of a run are its first words, as far as they reach;
* `Cutter.Aligned`: no message that ends inside a block ends inside a unit;
* **`dvd_messages_iff`**: the messages of a block hold whole units exactly if they are aligned;
* `aligned_iff_of_unpaged`: what that comes to if segments may cross pages.
-/

import PanelLink.Proofs.Packing.Groups
import PanelLink.Spi.Message

namespace PanelLink.Spi.Cutter

variable (cutter : Cutter) (element : Element)

/-! ### Segments -/

/-- How many words the first segments of a run take, if the run is long enough. -/
def reach : Nat → Nat → Nat
  | _, 0 => 0
  | address, count + 1 =>
    cutter.segmentLength element address +
      reach (address + cutter.segmentLength element address * element.bytes) count

theorem segments_of_ne_nil (address : Nat) {values : List Nat} (nonempty : values ≠ []) :
    cutter.segments element address values =
      values.take (cutter.segmentLength element address) ::
        cutter.segments element (address + cutter.segmentLength element address * element.bytes)
          (values.drop (cutter.segmentLength element address)) := by
  obtain ⟨value, rest, rfl⟩ := List.exists_cons_of_ne_nil nonempty
  obtain ⟨further, length⟩ : ∃ further, cutter.segmentLength element address = further + 1 :=
    ⟨_, (Nat.sub_add_cancel (cutter.segmentLength_pos element address)).symm⟩
  rw [segments, length, Nat.add_sub_cancel, List.take_succ_cons, List.drop_succ_cons]

/-- **The first segments of a run** are its first words, as far as they reach. -/
theorem flatten_take_segments (address count : Nat) (values : List Nat) :
    ((cutter.segments element address values).take count).flatten =
      values.take (cutter.reach element address count) := by
  -- The address moves along with the run, since the next segment begins where this one ends.
  induction count generalizing address values with
  | zero => rfl
  | succ count ih =>
    by_cases empty : values = []
    · rw [empty, segments, List.take_nil, List.take_nil]
      rfl
    · rw [segments_of_ne_nil cutter element address empty, List.take_succ_cons, List.flatten_cons, ih,
        ← List.take_add]
      rfl

/-- The segments after some others reach as if they began where these end. -/
theorem reach_add (address first later : Nat) :
    cutter.reach element address (first + later) =
      cutter.reach element address first +
        cutter.reach element (address + cutter.reach element address first * element.bytes) later := by
  induction first generalizing address with
  | zero => simp [reach]
  | succ first ih =>
    rw [Nat.add_right_comm, reach, ih, reach, Nat.add_assoc, Nat.add_mul, Nat.add_assoc]

theorem reach_le_reach_add (address first later : Nat) :
    cutter.reach element address first ≤ cutter.reach element address (first + later) := by
  rw [reach_add]
  exact Nat.le_add_right _ _

/-! ### Messages -/

/-- The segments of a block that fit into one message. -/
def slots (opened : Bool) : Nat :=
  if opened then messageSlots - 1 else messageSlots

theorem three_le_slots (opened : Bool) : 3 ≤ slots opened := by
  cases opened <;> decide

theorem slots_pos (opened : Bool) : 0 < slots opened :=
  Nat.lt_of_lt_of_le (by decide) (three_le_slots opened)

/-- **No message of a run ends inside a unit**, except with the run itself. -/
def Aligned (address : Nat) (opened : Bool) (unit length : Nat) : Prop :=
  ∀ count, cutter.reach element address (slots opened * count) < length →
    unit ∣ cutter.reach element address (slots opened * count)

variable {cutter element}

theorem Aligned.mono {address unit length shorter : Nat} {opened : Bool}
    (aligned : cutter.Aligned element address opened unit length) (shortened : shorter ≤ length) :
    cutter.Aligned element address opened unit shorter :=
  fun count inside => aligned count (Nat.lt_of_lt_of_le inside shortened)

theorem aligned_one (address : Nat) (opened : Bool) (length : Nat) :
    cutter.Aligned element address opened 1 length :=
  fun _ _ => Nat.one_dvd _

/-- A run that fits into one message is not cut between messages. -/
theorem aligned_of_length_le {address unit length : Nat} {opened : Bool}
    (fits : length ≤ cutter.reach element address (slots opened)) :
    cutter.Aligned element address opened unit length := by
  intro count inside
  cases count with
  | zero => exact Nat.dvd_zero unit
  | succ count =>
    have further := cutter.reach_le_reach_add element address (slots opened) (slots opened * count)
    rw [Nat.mul_succ, Nat.add_comm] at inside
    omega

/-- The words of a message of a block. -/
def wordsIn (message : List Slice) : List Nat :=
  message.flatMap fun slice => slice.words.values

/-- The first slices of a block are its first words. -/
theorem wordsIn_take_slices (cutter : Cutter) (block : Block) (count : Nat) :
    wordsIn ((cutter.slices block).take count) =
      block.words.values.take (cutter.reach block.words.element block.address count) := by
  have same : block.words.values.map block.words.element.truncate = block.words.values :=
    congrArg Words.values block.words.ofList_values
  have placed : ((cutter.slices block).take count).map Slice.words = (cutter.runs block).take count := by
    rw [List.map_take, slices, Slice.map_words_consecutive]
  calc wordsIn ((cutter.slices block).take count)
      = ((cutter.runs block).take count).flatMap Words.values := by
        rw [← placed, List.flatMap_map]
        rfl
    _ = (((cutter.segments block.words.element block.address block.words.values).take count).map
          (List.map block.words.element.truncate)).flatten := by
        rw [runs, ← List.map_take, List.flatMap_map, List.flatMap_def]
        rfl
    _ = block.words.values.take (cutter.reach block.words.element block.address count) := by
        rw [← List.map_flatten, flatten_take_segments, List.map_take, same]

/-- **The first messages of a block** are its first words. -/
theorem flatten_take_messages (cutter : Cutter) (opened : Bool) (block : Block) (count : Nat) :
    (((cutter.messages opened block).map wordsIn).take count).flatten =
      block.words.values.take
        (cutter.reach block.words.element block.address (slots opened * count)) := by
  have joined (messages : List (List Slice)) :
      (messages.map wordsIn).flatten = wordsIn messages.flatten := by
    induction messages with
    | nil => rfl
    | cons message messages ih =>
      rw [List.map_cons, List.flatten_cons, ih, List.flatten_cons, wordsIn, wordsIn, wordsIn,
        List.flatMap_append]
  have slots_max : max (slots opened) 1 = slots opened := Nat.max_eq_left (slots_pos opened)
  rw [← List.map_take, joined]
  show wordsIn (((portions (slots opened) (cutter.slices block)).take count).flatten) = _
  rw [flatten_take_portions, slots_max, wordsIn_take_slices]

/-- **The messages of a block hold whole units** exactly if none of them ends inside one. -/
theorem dvd_messages_iff (cutter : Cutter) (opened : Bool) {block : Block} {unit : Nat}
    (whole : unit ∣ block.words.length) :
    (∀ message ∈ cutter.messages opened block, unit ∣ (wordsIn message).length) ↔
      cutter.Aligned block.words.element block.address opened unit block.words.length := by
  have parts : (∀ message ∈ cutter.messages opened block, unit ∣ (wordsIn message).length) ↔
      ∀ part ∈ (cutter.messages opened block).map wordsIn, unit ∣ part.length := by
    rw [List.forall_mem_map]
  rw [parts, dvd_length_iff]
  refine forall_congr' fun count => ?_
  rw [flatten_take_messages, List.length_take]
  change unit ∣ min _ block.words.length ↔ _
  -- The cut behind the last message is that behind the block, which is whole.
  rcases Nat.lt_or_ge (cutter.reach block.words.element block.address (slots opened * count))
    block.words.length with inside | behind
  · rw [Nat.min_eq_left (Nat.le_of_lt inside)]
    exact ⟨fun dvd _ => dvd, fun aligned => aligned inside⟩
  · rw [Nat.min_eq_right behind]
    exact ⟨fun _ inside => absurd inside (Nat.not_lt.mpr behind), fun _ => whole⟩

/-! ### Limits that any link keeps to -/

/-- A segment takes four bytes or more, unless its page ends before. Then it takes what is left of the
page, or one element that does not fit in there. -/
theorem four_le_segmentLength_or (roomy : 4 ≤ cutter.segmentLimit) (element : Element)
    (address : Nat) :
    element.bytes ≤ cutter.segmentLength element address * element.bytes ∧
      (4 ≤ cutter.segmentLength element address * element.bytes ∨
        pageSize - address % pageSize < 4 ∧
          (pageSize - address % pageSize ≤ cutter.segmentLength element address * element.bytes ∨
            2 ≤ element.bytes)) := by
  have inside : address % pageSize < pageSize := Nat.mod_lt _ (by decide)
  unfold segmentLength
  cases element <;> simp only [Element.bytes] <;> split <;> omega

/-- Wherever they begin, three segments take eight bytes or more and four segments twelve. -/
theorem le_reach (roomy : 4 ≤ cutter.segmentLimit) (element : Element) (address : Nat) :
    8 ≤ cutter.reach element address 3 * element.bytes ∧
      12 ≤ cutter.reach element address 4 * element.bytes := by
  have page : pageSize = 4096 := rfl
  have limits (address : Nat) := four_le_segmentLength_or roomy element address
  simp only [reach, Nat.add_zero, Nat.add_mul, page] at limits ⊢
  have one := limits address
  generalize cutter.segmentLength element address * element.bytes = first at *
  have two := limits (address + first)
  generalize cutter.segmentLength element (address + first) * element.bytes = second at *
  have three := limits (address + first + second)
  generalize cutter.segmentLength element (address + first + second) * element.bytes = third at *
  have four := limits (address + first + second + third)
  -- Only one page can end within so few bytes, so most of the segments are not cut short.
  generalize cutter.segmentLength element (address + first + second + third) * element.bytes = fourth
    at *
  clear limits
  omega

/-- A message takes four bytes a segment, or four bytes less. -/
theorem le_reach_slots (roomy : 4 ≤ cutter.segmentLimit) (element : Element) (address : Nat)
    (opened : Bool) :
    4 * slots opened ≤ cutter.reach element address (slots opened) * element.bytes + 4 := by
  obtain ⟨three, four⟩ := le_reach roomy element address
  cases opened with
  | true => exact Nat.add_le_add_right three 4
  | false => exact Nat.add_le_add_right four 4

/-! ### Segments that may cross pages -/

theorem reach_of_unpaged (unpaged : cutter.splitsAtPages = false) (address count : Nat) :
    cutter.reach element address count = max (cutter.segmentLimit / element.bytes) 1 * count := by
  have length (address : Nat) : cutter.segmentLength element address =
      max (cutter.segmentLimit / element.bytes) 1 := by
    unfold segmentLength
    rw [unpaged, if_neg Bool.false_ne_true]
  induction count generalizing address with
  | zero => rfl
  | succ count ih => rw [reach, ih, length, Nat.mul_succ, Nat.add_comm]

/-- Four segments of ten bytes, which is not a multiple of nine. -/
example : (Cutter.mk 10 false).reach .byte 0 (slots false) = 40 := by decide

/-- **If segments may cross pages**, a run is aligned exactly if it fits into one message or a full
message holds whole units. -/
theorem aligned_iff_of_unpaged (unpaged : cutter.splitsAtPages = false) (address : Nat) (opened : Bool)
    (unit length : Nat) :
    cutter.Aligned element address opened unit length ↔
      length ≤ max (cutter.segmentLimit / element.bytes) 1 * slots opened ∨
        unit ∣ max (cutter.segmentLimit / element.bytes) 1 * slots opened := by
  refine ⟨fun aligned => ?_, fun either => ?_⟩
  · have first := aligned 1
    rw [reach_of_unpaged unpaged, Nat.mul_one] at first
    exact (Nat.lt_or_ge _ length).symm.imp_right first
  · rcases either with fits | whole
    · exact aligned_of_length_le ((reach_of_unpaged unpaged _ _).symm ▸ fits)
    · intro count _
      rw [reach_of_unpaged unpaged, ← Nat.mul_assoc]
      exact Nat.dvd_mul_right_of_dvd whole count

end PanelLink.Spi.Cutter
