/-
**How far a block is cut.**

A segment takes as many elements as the limits allow from where it begins, and a message as many
segments as it has room for.

* `Cutter.chunk` and `Cutter.rest`: the next segment of a block, and what is left behind it, and
  `Cutter.nextSlice`: where the segment lies;
* `Cutter.block_induction`: what is left of a block is shorter, segment by segment;
* `Cutter.Cuts`: what the limits ask of the segments of a block, each judged from where it begins;
* **`Cutter.cuts_runs`**: the segments of a block meet the limits, and none but the last could be
  longer;
* `length_of_mem_dropLast_portions`: all messages but the last are full.
-/

import PanelLink.Proofs.Spi.MessageBoundaries

namespace PanelLink

/-- All portions but the last one are as long as asked for. -/
theorem length_of_mem_dropLast_portions {α : Type} {size : Nat} (positive : 0 < size)
    {items portion : List α} (member : portion ∈ (portions size items).dropLast) :
    portion.length = size := by
  fun_induction portions size items with
  | case1 => cases member
  | case2 items nonempty ih =>
    rw [Nat.max_eq_left positive] at ih member
    by_cases ends : items.drop size = []
    · rw [ends, portions_nil] at member
      cases member
    · have more : portions size (items.drop size) ≠ [] := by
        rw [portions_of_ne_nil size ends]
        exact List.cons_ne_nil _ _
      rw [List.dropLast_cons_of_ne_nil more] at member
      rcases List.mem_cons.mp member with rfl | later
      · have := mt List.drop_eq_nil_iff.mpr ends
        rw [List.length_take]
        omega
      · exact ih later

namespace Spi

/-! ### One segment after the other -/

/-- What is left of a block behind its first elements. -/
def Block.dropFirst (block : Block) (count : Nat) : Block :=
  { block with
    words := block.words.drop count
    address := block.address + count * block.words.element.bytes }

namespace Cutter

variable (cutter : Cutter)

/-- How many elements the next segment of a block takes. -/
def takes (block : Block) : Nat :=
  min (cutter.segmentLength block.words.element block.address) block.words.length

/-- The next segment of a block. -/
def chunk (block : Block) : Words :=
  (block.words.split (cutter.takes block)).1

/-- The next segment where it lies in memory. -/
def nextSlice (block : Block) : Slice where
  address := block.address
  words := cutter.chunk block

/-- What is left of a block behind its next segment. -/
def rest (block : Block) : Block :=
  block.dropFirst (cutter.takes block)

variable {cutter} {block : Block}

theorem takes_pos (filled : block.words.values ≠ []) : 0 < cutter.takes block :=
  Nat.lt_min.mpr ⟨cutter.segmentLength_pos _ _, List.length_pos_iff.mpr filled⟩

theorem length_chunk : (cutter.chunk block).length = cutter.takes block := by
  show (block.words.values.take _).length = _
  rw [List.length_take]
  exact Nat.min_eq_left (Nat.min_le_right _ _)

theorem length_rest : (cutter.rest block).words.length = block.words.length - cutter.takes block :=
  List.length_drop

theorem length_rest_lt (filled : block.words.values ≠ []) :
    (cutter.rest block).words.length < block.words.length := by
  have : 0 < cutter.takes block := takes_pos filled
  have : 0 < block.words.length := List.length_pos_iff.mpr filled
  rw [length_rest]
  omega

/-- **Segment by segment**: what is left of a block is shorter. -/
theorem block_induction (cutter : Cutter) {motive : Block → Prop}
    (done : ∀ block, block.words.values = [] → motive block)
    (further : ∀ block, block.words.values ≠ [] → motive (cutter.rest block) → motive block)
    (block : Block) : motive block := by
  induction length : block.words.length using Nat.strongRecOn generalizing block with
  | ind count shorter =>
    by_cases empty : block.words.values = []
    · exact done block empty
    · exact further block empty (shorter _ (length ▸ length_rest_lt empty) _ rfl)

theorem runs_of_eq_nil (empty : block.words.values = []) : cutter.runs block = [] := by
  rw [runs, empty, segments, List.map_nil]

/-- The segments of a block are its next one and those of the rest. -/
theorem runs_eq_cons (filled : block.words.values ≠ []) :
    cutter.runs block = cutter.chunk block :: cutter.runs (cutter.rest block) := by
  have first : Words.ofList block.words.element
      (block.words.values.take (cutter.segmentLength block.words.element block.address)) =
      cutter.chunk block := by
    refine (Words.ofList_values (block.words.take _)).trans (Words.ext rfl ?_)
    show block.words.values.take _ = block.words.values.take (min _ block.words.values.length)
    rw [List.take_eq_take_iff, Nat.min_assoc, Nat.min_self]
  rw [runs, segments_of_ne_nil cutter _ _ filled, List.map_cons, first]
  refine congrArg (cutter.chunk block :: ·) ?_
  -- A segment that the block does not fill is its last one, so where it ends is of no use.
  rcases Nat.le_total (cutter.segmentLength block.words.element block.address) block.words.length
    with long | short
  · have takes : cutter.takes block = cutter.segmentLength block.words.element block.address :=
      Nat.min_eq_left long
    rw [runs, rest, takes]
    rfl
  · have takes : cutter.takes block = block.words.length := Nat.min_eq_right short
    have none : (cutter.rest block).words.values = [] := by
      show block.words.values.drop _ = []
      exact List.drop_eq_nil_iff.mpr (Nat.le_of_eq takes.symm)
    rw [runs_of_eq_nil none, List.drop_eq_nil_iff.mpr short, segments, List.map_nil]

/-! ### What the limits ask for -/

variable (cutter) in
/-- Whether one more element would break a limit. -/
def Exhausts (start : Nat) (run : Words) : Prop :=
  cutter.segmentLimit < run.byteLength + run.element.bytes ∨
    cutter.splitsAtPages = true ∧
      pageSize < start % pageSize + run.byteLength + run.element.bytes

/-- The bytes of runs. -/
def bytesIn : List Words → Nat
  | [] => 0
  | run :: runs => run.byteLength + bytesIn runs

variable (cutter block) in
/-- **A block is cut as its limits allow.** A segment begins where those before it end. -/
structure Cuts (runs : List Words) : Prop where
  joined : runs.flatMap Words.values = block.words.values
  element : ∀ run ∈ runs, run.element = block.words.element
  nonempty : ∀ run ∈ runs, 0 < run.length
  limited : ∀ run ∈ runs, run.byteLength ≤ cutter.segmentLimit
  /-- The first and the last byte of a segment lie in one page, if the block begins at a whole
  element. -/
  paged : cutter.splitsAtPages = true → block.words.element.bytes ∣ block.address →
    ∀ before run after, runs = before ++ run :: after →
      (block.address + bytesIn before + run.byteLength - 1) / pageSize =
        (block.address + bytesIn before) / pageSize
  /-- No segment but the last could be longer. -/
  exhausts : ∀ before run after, runs = before ++ run :: after → after ≠ [] →
    cutter.Exhausts (block.address + bytesIn before) run

/-! ### Single segments -/

variable {element : Element} {address : Nat}

theorem segmentLength_limited (roomy : 4 ≤ cutter.segmentLimit) :
    cutter.segmentLength element address * element.bytes ≤ cutter.segmentLimit := by
  have small : element.bytes ≤ 4 := by cases element <;> decide
  have whole : 1 ≤ cutter.segmentLimit / element.bytes :=
    (Nat.one_le_div_iff element.bytes_pos).mpr (by omega)
  have most : cutter.segmentLength element address ≤ cutter.segmentLimit / element.bytes := by
    unfold segmentLength
    dsimp only
    split <;> omega
  exact Nat.le_trans (Nat.mul_le_mul_right _ most) (Nat.div_mul_le_self _ _)

/-- An aligned segment ends no later than its page. -/
theorem segmentLength_paged (splits : cutter.splitsAtPages = true) (aligned : element.bytes ∣ address) :
    address % pageSize + cutter.segmentLength element address * element.bytes ≤ pageSize := by
  have room : cutter.segmentLength element address ≤
      max ((pageSize - address % pageSize) / element.bytes) 1 := by
    unfold segmentLength
    dsimp only
    rw [splits, if_pos rfl]
    exact Nat.min_le_right _ _
  have inside : address % pageSize < pageSize := Nat.mod_lt _ (by decide)
  -- The bytes up to the end of the page are those of whole elements.
  have pages : element.bytes ∣ pageSize := by cases element <;> decide
  obtain ⟨count, whole⟩ : element.bytes ∣ pageSize - address % pageSize :=
    Nat.dvd_sub pages ((Nat.dvd_mod_iff pages).mpr aligned)
  have positive : 0 < count := Nat.pos_of_mul_pos_left (a := element.bytes) (by omega)
  rw [whole, Nat.mul_div_cancel_left _ element.bytes_pos, Nat.max_eq_left positive] at room
  have := Nat.mul_le_mul_right element.bytes room
  rw [Nat.mul_comm count] at this
  omega

/-- A segment that is as long as it may be could not be longer. -/
theorem segmentLength_exhausts (cutter : Cutter) (element : Element) (address : Nat) :
    cutter.segmentLimit < cutter.segmentLength element address * element.bytes + element.bytes ∨
      cutter.splitsAtPages = true ∧
        pageSize < address % pageSize +
          (cutter.segmentLength element address * element.bytes + element.bytes) := by
  have exceeds (bytes : Nat) :
      bytes < max (bytes / element.bytes) 1 * element.bytes + element.bytes := by
    rw [← Nat.succ_mul]
    have := Nat.lt_mul_div_succ bytes element.bytes_pos
    rw [Nat.mul_comm]
    exact Nat.lt_of_lt_of_le this (Nat.mul_le_mul_left _ (Nat.succ_le_succ (Nat.le_max_left _ _)))
  unfold segmentLength
  dsimp only
  split
  · rename_i splits
    rcases Nat.le_total (max (cutter.segmentLimit / element.bytes) 1)
      (max ((pageSize - address % pageSize) / element.bytes) 1) with limit | page
    · rw [Nat.min_eq_left limit]
      exact Or.inl (exceeds _)
    · rw [Nat.min_eq_right page]
      have := exceeds (pageSize - address % pageSize)
      exact Or.inr ⟨splits, by omega⟩
  · exact Or.inl (exceeds _)

/-! ### The next segment -/

theorem byteLength_chunk :
    (cutter.chunk block).byteLength = cutter.takes block * block.words.element.bytes := by
  rw [Words.byteLength, length_chunk]
  rfl

variable (cutter block) in
theorem byteLength_chunk_le :
    (cutter.chunk block).byteLength ≤
      cutter.segmentLength block.words.element block.address * block.words.element.bytes := by
  rw [byteLength_chunk]
  exact Nat.mul_le_mul_right _ (Nat.min_le_left _ _)

/-- The rest of a block begins behind its next segment. -/
theorem address_rest : (cutter.rest block).address = block.address + (cutter.chunk block).byteLength := by
  rw [byteLength_chunk]
  rfl

theorem slices_of_eq_nil (empty : block.words.values = []) : cutter.slices block = [] := by
  rw [slices, runs_of_eq_nil empty, Slice.consecutive]

/-- The slices of a block are the next one and those of the rest. -/
theorem slices_eq_cons (filled : block.words.values ≠ []) :
    cutter.slices block = cutter.nextSlice block :: cutter.slices (cutter.rest block) := by
  rw [slices, runs_eq_cons filled, Slice.consecutive, slices, address_rest, nextSlice]

theorem paged_chunk (splits : cutter.splitsAtPages = true)
    (aligned : block.words.element.bytes ∣ block.address) (filled : block.words.values ≠ []) :
    (block.address + (cutter.chunk block).byteLength - 1) / pageSize = block.address / pageSize := by
  have positive : 0 < (cutter.chunk block).byteLength := by
    rw [byteLength_chunk]
    exact Nat.mul_pos (takes_pos filled) block.words.element.bytes_pos
  have page := segmentLength_paged splits aligned
  have short := cutter.byteLength_chunk_le block
  unfold pageSize at page ⊢
  omega

/-- A segment behind which something is left is not cut short by the end of the block. -/
theorem exhausts_chunk (more : (cutter.rest block).words.values ≠ []) :
    cutter.Exhausts block.address (cutter.chunk block) := by
  have whole : cutter.takes block = cutter.segmentLength block.words.element block.address := by
    rcases Nat.le_total (cutter.segmentLength block.words.element block.address) block.words.length
      with long | ends
    · exact Nat.min_eq_left long
    · exact absurd (List.drop_eq_nil_iff.mpr (Nat.le_of_eq (Nat.min_eq_right ends).symm)) more
  have exhausts := cutter.segmentLength_exhausts block.words.element block.address
  rwa [← whole, ← byteLength_chunk, ← Nat.add_assoc] at exhausts

/-! ### All segments -/

theorem cuts_nil (empty : block.words.values = []) : cutter.Cuts block [] where
  joined := empty.symm
  element := nofun
  nonempty := nofun
  limited := nofun
  paged _ _ before run after split := by cases before <;> cases split
  exhausts before run after split := by cases before <;> cases split

/-- Nothing is left of a block that is cut into no segments. -/
theorem Cuts.ne_nil {runs : List Words} (cuts : cutter.Cuts block runs) (more : runs ≠ []) :
    block.words.values ≠ [] := by
  obtain ⟨next, others, rfl⟩ := List.exists_cons_of_ne_nil more
  have positive := cuts.nonempty next List.mem_cons_self
  rw [← cuts.joined, List.flatMap_cons]
  exact List.append_ne_nil_of_left_ne_nil (List.ne_nil_of_length_pos positive) _

/-- **The next segment of a block**, in front of those of the rest. -/
theorem Cuts.cons (roomy : 4 ≤ cutter.segmentLimit) (filled : block.words.values ≠ [])
    {runs : List Words} (cuts : cutter.Cuts (cutter.rest block) runs) :
    cutter.Cuts block (cutter.chunk block :: runs) := by
  have start (before : List Words) : (cutter.rest block).address + bytesIn before =
      block.address + bytesIn (cutter.chunk block :: before) := by
    rw [address_rest, bytesIn, Nat.add_assoc]
  refine ⟨?_, ?_, ?_, ?_, ?_, ?_⟩
  · rw [List.flatMap_cons, cuts.joined]
    exact block.words.values_split _
  · intro run member
    rcases List.mem_cons.mp member with rfl | later
    · rfl
    · exact cuts.element run later
  · intro run member
    rcases List.mem_cons.mp member with rfl | later
    · rw [length_chunk]
      exact takes_pos filled
    · exact cuts.nonempty run later
  · intro run member
    rcases List.mem_cons.mp member with rfl | later
    · exact Nat.le_trans (cutter.byteLength_chunk_le block) (segmentLength_limited roomy)
    · exact cuts.limited run later
  · intro splits aligned before run after split
    cases before with
    | nil =>
      obtain ⟨rfl, -⟩ := List.cons.inj split
      exact paged_chunk splits aligned filled
    | cons head before =>
      obtain ⟨rfl, tail⟩ := List.cons.inj split
      have alignedRest : (cutter.rest block).words.element.bytes ∣ (cutter.rest block).address :=
        Nat.dvd_add aligned (Nat.dvd_mul_left _ _)
      rw [← start]
      exact cuts.paged splits alignedRest before run after tail
  · intro before run after split more
    cases before with
    | nil =>
      obtain ⟨rfl, rfl⟩ := List.cons.inj split
      exact exhausts_chunk (cuts.ne_nil more)
    | cons head before =>
      obtain ⟨rfl, tail⟩ := List.cons.inj split
      rw [← start]
      exact cuts.exhausts before run after tail more

/-- **The segments of a block** meet the limits, and none but the last could be longer. -/
theorem cuts_runs (roomy : 4 ≤ cutter.segmentLimit) (block : Block) :
    cutter.Cuts block (cutter.runs block) := by
  induction block using block_induction cutter with
  | done block empty =>
    rw [runs_of_eq_nil empty]
    exact cuts_nil empty
  | further block filled ih =>
    rw [runs_eq_cons filled]
    exact ih.cons roomy filled

/-- The slices of a message are segments of the block. -/
theorem mem_runs_of_mem_messages {opened : Bool} {message : List Slice} {slice : Slice}
    (inBlock : message ∈ cutter.messages opened block) (member : slice ∈ message) :
    slice.words ∈ cutter.runs block := by
  have inSlices : slice ∈ cutter.slices block := by
    rw [← flatten_portions (slots opened) (cutter.slices block)]
    exact List.mem_flatten.mpr ⟨message, inBlock, member⟩
  rw [← Slice.map_words_consecutive block.address (cutter.runs block)]
  exact List.mem_map_of_mem inSlices

/-- Three 16-bit elements that begin four bytes before the end of a page. -/
example :
    (Cutter.mk 4096 true).runs ⟨.ofList .half [1, 2, 3], 16, 4092⟩ =
      [.ofList .half [1, 2], .ofList .half [3]] := by
  decide +kernel

end Cutter

end Spi

end PanelLink
