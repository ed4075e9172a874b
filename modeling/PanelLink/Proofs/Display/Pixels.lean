/-
**The pixels of video memory.**

Video memory is one run of elements, line after line. A pixel takes a bit of an element, an element,
or three of them.

* `PixelFormat.pixelOf`: the value of a pixel in a run of elements, and `PixelFormat.pixels`: all of
  them; `PixelFormat.storedOf`: what its storage holds;
* `Frame.pixelAt` and `Frame.window`: the pixel at a column and a line, and those of a range of lines;
* `Frame.Fits`: memory as valid settings want it, and **`Frame.Fits.drawAll`**: drawing keeps it so;
* **`Frame.Fits.pixels_lines`**: the elements of a range of lines are the pixels of these lines;
* **`Frame.storedAt_drawPixel`**: drawing a pixel sets that pixel and no other.
-/

import Mathlib.Data.List.Basic
import Mathlib.Tactic.Ring
import PanelLink.Display.Frame

namespace PanelLink.Display

/-! ### Pixels -/

namespace PixelFormat

/-- **The value of a pixel** in a run of elements, the pixels being numbered from its start. Of a
byte the lowest bit comes first, and of three bytes the lowest one. -/
def pixelOf (format : PixelFormat) (elements : Nat → Nat) (pixel : Nat) : Nat :=
  match format with
  | mono01 => elements (pixel / 8) / 2 ^ (pixel % 8) % 2
  | rgb565 => elements pixel
  | rgb888 =>
    elements (pixel * 3) + 256 * elements (pixel * 3 + 1) + 65536 * elements (pixel * 3 + 2)
  | xrgb8888 => elements pixel % 16777216

/-- **What the storage of a pixel holds**: its value, and in a word the byte above it as well. -/
def storedOf (format : PixelFormat) (elements : Nat → Nat) (pixel : Nat) : Nat :=
  match format with
  | mono01 => mono01.pixelOf elements pixel
  | rgb565 => elements pixel
  | rgb888 => rgb888.pixelOf elements pixel
  | xrgb8888 => elements pixel

/-- What can be seen of the storage of a pixel. -/
def visible (format : PixelFormat) (stored : Nat) : Nat :=
  match format with
  | xrgb8888 => stored % 16777216
  | _ => stored

theorem pixelOf_eq_visible (format : PixelFormat) (elements : Nat → Nat) (pixel : Nat) :
    format.pixelOf elements pixel = format.visible (format.storedOf elements pixel) := by
  cases format <;> rfl

/-- How many pixels a number of elements makes. -/
def pixelCount (format : PixelFormat) (elements : Nat) : Nat :=
  match format with
  | mono01 => 8 * elements
  | rgb565 => elements
  | rgb888 => elements / 3
  | xrgb8888 => elements

/-- The pixels of a run of elements. -/
def pixels (format : PixelFormat) (elements : List Nat) : List Nat :=
  (List.range (format.pixelCount elements.length)).map
    (format.pixelOf fun place => elements.getD place 0)

/-- Lines of so many pixels take so many elements, with none left over. -/
def Spans (format : PixelFormat) (columns elements : Nat) : Prop :=
  match format with
  | mono01 => columns = 8 * elements
  | rgb565 => elements = columns
  | rgb888 => elements = 3 * columns
  | xrgb8888 => elements = columns

variable {format : PixelFormat} {columns perLine : Nat}

theorem Spans.pixelCount (spans : format.Spans columns perLine) (lines : Nat) :
    format.pixelCount (lines * perLine) = lines * columns := by
  cases format with
  | mono01 =>
    rw [show columns = 8 * perLine from spans]
    show 8 * (lines * perLine) = lines * (8 * perLine)
    ring
  | rgb888 =>
    rw [show perLine = 3 * columns from spans]
    show lines * (3 * columns) / 3 = lines * columns
    rw [Nat.mul_left_comm, Nat.mul_div_cancel_left _ (by decide)]
  | rgb565 => rw [show perLine = columns from spans]; rfl
  | xrgb8888 => rw [show perLine = columns from spans]; rfl

theorem Spans.lt_pixelCount (spans : format.Spans columns perLine) {pixel : Nat}
    (inLine : pixel < columns) : pixel < format.pixelCount perLine := by
  have whole := spans.pixelCount 1
  rw [Nat.one_mul, Nat.one_mul] at whole
  exact whole ▸ inLine

/-- **A pixel of a line** lies where it would if the run started with the line. -/
theorem Spans.storedOf (spans : format.Spans columns perLine) (elements : Nat → Nat)
    (line pixel : Nat) :
    format.storedOf elements (line * columns + pixel) =
      format.storedOf (fun place => elements (line * perLine + place)) pixel := by
  cases format with
  | mono01 =>
    have start : line * columns = 8 * (line * perLine) := by
      rw [show columns = 8 * perLine from spans]
      ring
    have place : (line * columns + pixel) / 8 = line * perLine + pixel / 8 := by omega
    have bit : (line * columns + pixel) % 8 = pixel % 8 := by omega
    simp only [PixelFormat.storedOf, PixelFormat.pixelOf, place, bit]
  | rgb888 =>
    have start : (line * columns + pixel) * 3 = line * perLine + pixel * 3 := by
      rw [show perLine = 3 * columns from spans]
      ring
    simp only [PixelFormat.storedOf, PixelFormat.pixelOf, start, Nat.add_assoc]
  | rgb565 => rw [show perLine = columns from spans]; rfl
  | xrgb8888 => rw [show perLine = columns from spans]; rfl

theorem Spans.pixelOf (spans : format.Spans columns perLine) (elements : Nat → Nat)
    (line pixel : Nat) :
    format.pixelOf elements (line * columns + pixel) =
      format.pixelOf (fun place => elements (line * perLine + place)) pixel := by
  rw [pixelOf_eq_visible, pixelOf_eq_visible, spans.storedOf]

/-- A pixel depends on the elements that it lies in only. -/
theorem storedOf_congr {elements others : Nat → Nat} {pixel size : Nat}
    (inside : pixel < format.pixelCount size)
    (same : ∀ place, place < size → elements place = others place) :
    format.storedOf elements pixel = format.storedOf others pixel := by
  cases format with
  | mono01 =>
    have place : pixel / 8 < size := by simp only [PixelFormat.pixelCount] at inside; omega
    simp only [PixelFormat.storedOf, PixelFormat.pixelOf, same _ place]
  | rgb888 =>
    have place : pixel * 3 + 2 < size := by simp only [PixelFormat.pixelCount] at inside; omega
    simp only [PixelFormat.storedOf, PixelFormat.pixelOf, same (pixel * 3) (by omega),
      same (pixel * 3 + 1) (by omega), same (pixel * 3 + 2) place]
  | rgb565 => exact same pixel inside
  | xrgb8888 => exact same pixel inside

end PixelFormat

/-- Numbers up to a product, in rows. -/
theorem range_mul_map {α : Type} (rows columns : Nat) (value : Nat → α) :
    (List.range (rows * columns)).map value =
      (List.range rows).flatMap fun row =>
        (List.range columns).map fun column => value (row * columns + column) := by
  induction rows with
  | zero => simp
  | succ rows ih =>
    rw [Nat.succ_mul, List.range_add, List.map_append, ih, List.range_succ, List.flatMap_append,
      List.map_map]
    simp

/-! ### Video memory -/

/-- One way to change video memory. -/
inductive Drawing where
  | pixel (x y value : Nat)
  | element (place value : Nat)
  | fill (value : Nat)
  deriving DecidableEq, Repr

namespace Frame

/-- **The pixel** at a column and a line. -/
def pixelAt (frame : Frame) (column line : Nat) : Nat :=
  frame.format.pixelOf
    (fun place => frame.memory.getD (line * frame.elementsPerLine + place) 0) column

/-- What the storage of the pixel at a column and a line holds. -/
def storedAt (frame : Frame) (column line : Nat) : Nat :=
  frame.format.storedOf
    (fun place => frame.memory.getD (line * frame.elementsPerLine + place) 0) column

/-- The pixels of the lines from `first` to `last` over the full width, line after line. -/
def window (frame : Frame) (first last : Nat) : List Nat :=
  (List.range' first (last + 1 - first)).flatMap fun line =>
    (List.range frame.columns).map fun column => frame.pixelAt column line

def draw (frame : Frame) : Drawing → Frame
  | .pixel x y value => frame.drawPixel x y value
  | .element place value => frame.store place value
  | .fill value => frame.fill value

def drawAll (frame : Frame) (drawings : List Drawing) : Frame :=
  drawings.foldl draw frame

/-- Drawing leaves video memory where it lies. -/
theorem address_draw (frame : Frame) (drawing : Drawing) :
    (frame.draw drawing).address = frame.address := by
  cases drawing with
  | element place value => rfl
  | fill value => rfl
  | pixel x y value =>
    show (frame.drawPixel x y value).address = frame.address
    unfold drawPixel
    split
    · rfl
    · split
      · dsimp only
        split <;> rfl
      · rfl
      · dsimp only
        split <;> rfl
      · rfl

theorem address_drawAll (frame : Frame) (drawings : List Drawing) :
    (frame.drawAll drawings).address = frame.address :=
  List.foldlRecOn (motive := fun drawn : Frame => drawn.address = frame.address) drawings draw rfl
    fun drawn same drawing _ => (drawn.address_draw drawing).trans same

/-- **Video memory as valid settings want it.** -/
structure Fits (settings : Settings) (frame : Frame) : Prop where
  checked : settings.checkGeometry = .ok ()
  format : frame.format = settings.format
  columns : frame.columns = settings.columns
  rows : frame.rows = settings.rows
  bytesPerLine : frame.bytesPerLine = settings.bytesPerLine
  size : frame.memory.size = settings.bytesPerLine * settings.rows / settings.format.element.bytes
  bounded : ∀ element ∈ frame.memory, element < settings.format.element.modulus

section Fits

variable {settings : Settings} {frame : Frame} {address : Nat}

/-- Video memory that can be had is dark, and its settings are valid. -/
theorem create_eq_ok (made : create settings address = .ok frame) :
    settings.checkGeometry = .ok () ∧
      frame = {
        format := settings.format
        columns := settings.columns
        rows := settings.rows
        bytesPerLine := settings.bytesPerLine
        memory := Array.replicate
          (settings.bytesPerLine * settings.rows / settings.format.element.bytes) 0
        address } := by
  unfold create at made
  match checked : settings.checkGeometry with
  | .error error =>
    rw [checked] at made
    cases made
  | .ok () =>
    rw [checked] at made
    by_cases large : bufferLimit ≤ settings.bytesPerLine * settings.rows
    · rw [if_pos large] at made
      cases made
    · rw [if_neg large] at made
      cases made
      exact ⟨rfl, rfl⟩

theorem fits_create (made : create settings address = .ok frame) : Fits settings frame := by
  obtain ⟨checked, rfl⟩ := create_eq_ok made
  exact {
    checked := checked
    format := rfl
    columns := rfl
    rows := rfl
    bytesPerLine := rfl
    size := Array.size_replicate
    bounded := fun element member =>
      (Array.mem_replicate.mp member).2 ▸ settings.format.element.modulus_pos }

/-- Elements may change as long as their number and size stay. -/
theorem Fits.withMemory (fits : Fits settings frame) {memory : Array Nat}
    (size : memory.size = frame.memory.size)
    (bounded : ∀ element ∈ memory, element < settings.format.element.modulus) :
    Fits settings { frame with memory } :=
  { fits with size := size.trans fits.size, bounded }

theorem Fits.store (fits : Fits settings frame) (place value : Nat) :
    Fits settings (frame.store place value) := by
  refine fits.withMemory Array.size_setIfInBounds fun element member => ?_
  rcases Array.mem_or_eq_of_mem_setIfInBounds member with old | rfl
  · exact fits.bounded element old
  · exact fits.format ▸ Element.truncate_lt _ value

theorem Fits.fill (fits : Fits settings frame) (value : Nat) :
    Fits settings (frame.fill value) := by
  refine fits.withMemory Array.size_replicate fun element member => ?_
  rw [(Array.mem_replicate.mp member).2]
  exact fits.format ▸ Element.truncate_lt _ value

theorem Fits.draw (fits : Fits settings frame) (drawing : Drawing) :
    Fits settings (frame.draw drawing) := by
  cases drawing with
  | element place value => exact fits.store place value
  | fill value => exact fits.fill value
  | pixel x y value =>
    show Fits settings (frame.drawPixel x y value)
    unfold drawPixel
    split
    · exact fits
    · split
      · dsimp only
        split
        · exact fits.store _ _
        · exact fits
      · exact fits.store _ _
      · dsimp only
        split
        · exact ((fits.store _ _).store _ _).store _ _
        · exact fits
      · exact fits.store _ _

/-- **Drawing keeps the shape of video memory.** -/
theorem Fits.drawAll (fits : Fits settings frame) (drawings : List Drawing) :
    Fits settings (frame.drawAll drawings) :=
  List.foldlRecOn (motive := Fits settings) drawings Frame.draw fits
    fun _ fits drawing _ => fits.draw drawing

end Fits

end Frame

/-! ### Lines -/

/-- What valid settings say of the geometry. -/
theorem Settings.geometry_of_check {settings : Settings} (checked : settings.checkGeometry = .ok ()) :
    0 < settings.columns ∧ 0 < settings.rows ∧
      (settings.format = .mono01 → settings.columns % 8 = 0) := by
  unfold checkGeometry at checked
  by_cases narrow : settings.width = 0
  · rw [if_pos narrow] at checked
    cases checked
  by_cases low : settings.height = 0
  · rw [if_neg narrow, if_pos low] at checked
    cases checked
  by_cases broken : settings.format = .mono01 ∧ settings.columns % 8 ≠ 0
  · rw [if_neg narrow, if_neg low, if_pos broken] at checked
    cases checked
  refine ⟨?_, ?_, fun format => Decidable.not_not.mp fun partly => broken ⟨format, partly⟩⟩
  · unfold columns
    split <;> omega
  · unfold rows
    split <;> omega

/-- **32 bits measure a line**: its bytes are as many as its pixels need. -/
def Settings.Measured (settings : Settings) : Prop :=
  settings.columns * settings.format.bitsPerPixel / 8 ≤ largestNumber

instance (settings : Settings) : Decidable settings.Measured :=
  inferInstanceAs (Decidable (_ ≤ _))

theorem Settings.measured_of_short {settings : Settings} (short : settings.columns < 1073741824) :
    settings.Measured := by
  unfold Measured largestNumber
  cases settings.format <;> simp only [PixelFormat.bitsPerPixel] <;> omega

section Lines

variable {settings : Settings} {frame : Frame}

/-- The bytes of a line, where 32 bits measure them. -/
theorem Settings.Measured.bytesPerLine (measured : settings.Measured) :
    settings.bytesPerLine = settings.columns * settings.format.bitsPerPixel / 8 := by
  unfold Measured largestNumber at measured
  unfold Settings.bytesPerLine
  cases format : settings.format <;> rw [format] at measured <;>
    simp only [PixelFormat.bitsPerPixel, PixelFormat.bytesPerLine, largestNumber] at measured ⊢ <;>
    omega

/-- Lines that are measured take the elements that their pixels need. -/
theorem Frame.Fits.spans_of_measured (fits : Frame.Fits settings frame)
    (measured : settings.Measured) :
    settings.format.Spans settings.columns frame.elementsPerLine := by
  obtain ⟨-, -, whole⟩ := Settings.geometry_of_check fits.checked
  unfold Frame.elementsPerLine
  rw [fits.bytesPerLine, fits.format, measured.bytesPerLine]
  cases format : settings.format with
  | mono01 =>
    have whole := whole format
    simp only [PixelFormat.Spans, PixelFormat.bitsPerPixel, PixelFormat.element, Element.bytes]
    omega
  | _ =>
    simp only [PixelFormat.Spans, PixelFormat.bitsPerPixel, PixelFormat.element, Element.bytes]
    omega

theorem Frame.Fits.spans (fits : Frame.Fits settings frame)
    (short : settings.columns < 1073741824) :
    settings.format.Spans settings.columns frame.elementsPerLine :=
  fits.spans_of_measured (Settings.measured_of_short short)

/-- A line has elements. -/
theorem Frame.Fits.elementsPerLine_pos (fits : Frame.Fits settings frame) :
    0 < frame.elementsPerLine := by
  obtain ⟨wide, -, whole⟩ := Settings.geometry_of_check fits.checked
  unfold Frame.elementsPerLine
  rw [fits.bytesPerLine, fits.format, Settings.bytesPerLine]
  cases format : settings.format with
  | mono01 =>
    have whole := whole format
    simp only [PixelFormat.bytesPerLine, PixelFormat.element, Element.bytes]
    omega
  | _ =>
    simp only [PixelFormat.bytesPerLine, PixelFormat.element, Element.bytes, largestNumber]
    omega

/-- **All lines lie in video memory.** -/
theorem Frame.Fits.line_le (fits : Frame.Fits settings frame) {line : Nat}
    (inside : line < settings.rows) :
    (line + 1) * frame.elementsPerLine ≤ frame.memory.size := by
  rw [fits.size, Nat.le_div_iff_mul_le (Element.bytes_pos _)]
  calc (line + 1) * frame.elementsPerLine * settings.format.element.bytes
      = (line + 1) *
          (settings.bytesPerLine / settings.format.element.bytes * settings.format.element.bytes) := by
        rw [Frame.elementsPerLine, fits.bytesPerLine, fits.format, Nat.mul_assoc]
    _ ≤ settings.rows * settings.bytesPerLine :=
        Nat.mul_le_mul inside (Nat.div_mul_le_self _ _)
    _ = settings.bytesPerLine * settings.rows := Nat.mul_comm _ _

/-- The elements of the lines from `first` to `last`. -/
def Frame.lines (frame : Frame) (first last : Nat) : Words :=
  Words.ofList frame.format.element (frame.memory.extract (first * frame.elementsPerLine)
    ((last + 1) * frame.elementsPerLine)).toList

/-- **Lines of the display** are there to be sent. -/
theorem Frame.Fits.lineRange?_eq (fits : Frame.Fits settings frame) {first last : Nat}
    (ordered : first ≤ last) (inside : last < settings.rows) :
    frame.lineRange? first last = .ok (frame.lines first last) := by
  have valid : ¬(last < first ∨ frame.rows ≤ last) := by
    rw [fits.rows]
    omega
  unfold lineRange?
  rw [if_neg valid]
  dsimp only
  rw [if_pos (fits.line_le inside), Frame.lines]

theorem Frame.Fits.values_lines (fits : Frame.Fits settings frame) (first last : Nat) :
    (frame.lines first last).values = (frame.memory.extract (first * frame.elementsPerLine)
      ((last + 1) * frame.elementsPerLine)).toList := by
  refine (List.map_congr_left fun element member => ?_).trans (List.map_id _)
  rw [Array.toList_extract, List.extract_eq_take_drop] at member
  have stored : element ∈ frame.memory :=
    Array.mem_toList_iff.mp (List.mem_of_mem_drop (List.mem_of_mem_take member))
  exact Element.truncate_of_lt (fits.format ▸ fits.bounded element stored)

theorem Frame.Fits.length_lines (fits : Frame.Fits settings frame) (first : Nat) {last : Nat}
    (inside : last < settings.rows) :
    (frame.lines first last).values.length = (last + 1 - first) * frame.elementsPerLine := by
  rw [fits.values_lines, Array.length_toList, Array.size_extract,
    Nat.min_eq_left (fits.line_le inside), Nat.sub_mul]

/-- **The elements of a range of lines** are its pixels, line after line. -/
theorem Frame.Fits.pixels_lines (fits : Frame.Fits settings frame)
    (spans : settings.format.Spans settings.columns frame.elementsPerLine) {first last : Nat}
    (inside : last < settings.rows) :
    settings.format.pixels (frame.lines first last).values = frame.window first last := by
  have fitsIn := fits.line_le inside
  unfold PixelFormat.pixels Frame.window
  rw [fits.length_lines first inside, fits.values_lines, spans.pixelCount, range_mul_map,
    List.range'_eq_map_range, List.flatMap_map, fits.columns]
  refine List.flatMap_congr fun line member => List.map_congr_left fun column inRow => ?_
  generalize perLine : frame.elementsPerLine = per at *
  have inRange := List.mem_range.mp member
  have inLine := spans.lt_pixelCount (List.mem_range.mp inRow)
  rw [spans.pixelOf, Frame.pixelAt, fits.format, perLine, PixelFormat.pixelOf_eq_visible,
    PixelFormat.pixelOf_eq_visible]
  refine congrArg settings.format.visible (PixelFormat.storedOf_congr inLine fun place inPlace => ?_)
  have inRun : line * per + place < (last + 1 - first) * per :=
    calc line * per + place < (line + 1) * per := by rw [Nat.succ_mul]; omega
      _ ≤ (last + 1 - first) * per := Nat.mul_le_mul_right _ inRange
  rw [Nat.sub_mul] at inRun
  rw [List.getD_eq_getElem?_getD, Array.getElem?_toList, Array.getElem?_extract,
    Nat.min_eq_left fitsIn, if_pos inRun, Array.getD_eq_getD_getElem?, Nat.add_mul, Nat.add_assoc]

end Lines

/-! ### Drawing a pixel -/

/-- The low bits of a value, as many as the storage of a pixel has. -/
def PixelFormat.truncate (format : PixelFormat) (value : Nat) : Nat :=
  match format with
  | mono01 => value % 2
  | rgb565 => value % 65536
  | rgb888 => value % 16777216
  | xrgb8888 => value % 4294967296

/-- Places in rows of one length tell the row and the place in it. -/
theorem place_eq_iff {columns column other line row : Nat} (inRow : column < columns)
    (otherInRow : other < columns) :
    line * columns + column = row * columns + other ↔ column = other ∧ line = row := by
  constructor
  · intro same
    have rests := congrArg (· % columns) same
    have lines := congrArg (· / columns) same
    simp only [Nat.mul_add_mod_self_right, Nat.mod_eq_of_lt inRow, Nat.mod_eq_of_lt otherInRow] at rests
    simp only [Nat.mul_comm _ columns, Nat.mul_add_div (Nat.zero_lt_of_lt inRow),
      Nat.div_eq_of_lt inRow, Nat.div_eq_of_lt otherInRow, Nat.add_zero] at lines
    exact ⟨rests, lines⟩
  · rintro ⟨rfl, rfl⟩
    rfl

namespace Frame

theorem testBit_withBit (byte bit value other : Nat) :
    (withBit byte bit value).testBit other =
      if other = bit then value.testBit 0 else byte.testBit other := by
  unfold withBit
  by_cases same : byte.testBit bit == value.testBit 0
  · rw [if_pos same]
    split
    · next here => rw [here, beq_iff_eq.mp same]
    · rfl
  · have differ : byte.testBit bit ≠ value.testBit 0 := fun equal => same (beq_iff_eq.mpr equal)
    rw [if_neg same, Nat.testBit_xor, Nat.one_shiftLeft, Nat.testBit_two_pow]
    split
    · next here =>
      rw [here, decide_eq_true rfl, Bool.xor_true, Bool.not_eq]
      exact differ
    · next away => rw [decide_eq_false (Ne.symm away), Bool.xor_false]

/-- A bit of a byte is set, and the others stay. -/
theorem digit_withBit {other : Nat} (inByte : other < 8) (byte bit value : Nat) :
    Element.byte.truncate (withBit byte bit value) / 2 ^ other % 2 =
      if other = bit then value % 2 else byte / 2 ^ other % 2 := by
  have lowest : (value.testBit 0).toNat = value % 2 := by
    rw [Nat.toNat_testBit, Nat.pow_zero, Nat.div_one]
  have kept : (Element.byte.truncate (withBit byte bit value)).testBit other =
      (withBit byte bit value).testBit other := by
    show (withBit byte bit value % 2 ^ 8).testBit other = _
    rw [Nat.testBit_mod_two_pow, decide_eq_true inByte, Bool.true_and]
  rw [← Nat.toNat_testBit, kept, testBit_withBit, ← lowest, ← Nat.toNat_testBit]
  split <;> rfl

theorem getD_store {frame : Frame} {place : Nat} (inside : place < frame.memory.size)
    (value other : Nat) :
    (frame.store place value).memory.getD other 0 =
      if other = place then frame.format.element.truncate value else frame.memory.getD other 0 := by
  show (frame.memory.setIfInBounds place _).getD other 0 = _
  rw [Array.getD_eq_getD_getElem?, Array.getElem?_setIfInBounds, Array.getD_eq_getD_getElem?]
  by_cases here : other = place
  · rw [if_pos here.symm, if_pos inside, if_pos here, Option.getD_some]
  · rw [if_neg (Ne.symm here), if_neg here]

section Pixel

variable {settings : Settings} {frame : Frame}

/-- Setting the bit of a pixel. -/
theorem pixelOf_storeBit (mono : frame.format = .mono01) {place bit byte : Nat} (inByte : bit < 8)
    (found : frame.memory[place]? = some byte) (value other : Nat) :
    PixelFormat.mono01.pixelOf
        (fun index => (frame.store place (withBit byte bit value)).memory.getD index 0) other =
      if other = 8 * place + bit then value % 2
      else PixelFormat.mono01.pixelOf (fun index => frame.memory.getD index 0) other := by
  obtain ⟨inside, -⟩ := Array.getElem?_eq_some_iff.mp found
  have held : frame.memory.getD place 0 = byte := by
    rw [Array.getD_eq_getD_getElem?, found, Option.getD_some]
  have number : other = 8 * place + bit ↔ other / 8 = place ∧ other % 8 = bit := by omega
  simp only [PixelFormat.pixelOf, getD_store inside, mono, number]
  by_cases here : other / 8 = place
  · rw [if_pos here, here, held]
    simp only [true_and]
    exact digit_withBit (Nat.mod_lt _ (by decide)) byte bit value
  · rw [if_neg here, if_neg fun both => here both.1]

/-- Setting the three bytes of a pixel. -/
theorem pixelOf_storeBytes (colour : frame.format = .rgb888) {pixel : Nat}
    (inside : pixel * 3 + 3 ≤ frame.memory.size) (value other : Nat) :
    PixelFormat.rgb888.pixelOf
        (fun index => (((frame.store (pixel * 3) value).store (pixel * 3 + 1) (value / 256)).store
          (pixel * 3 + 2) (value / 65536)).memory.getD index 0) other =
      if other = pixel then value % 16777216
      else PixelFormat.rgb888.pixelOf (fun index => frame.memory.getD index 0) other := by
  have size (frame : Frame) (place value : Nat) :
      (frame.store place value).memory.size = frame.memory.size := Array.size_setIfInBounds
  have kept (frame : Frame) (place value : Nat) : (frame.store place value).format = frame.format :=
    rfl
  have blue : pixel * 3 < frame.memory.size := by omega
  have green : pixel * 3 + 1 < (frame.store (pixel * 3) value).memory.size := by
    rw [size]
    omega
  have red : pixel * 3 + 2 <
      ((frame.store (pixel * 3) value).store (pixel * 3 + 1) (value / 256)).memory.size := by
    rw [size, size]
    omega
  have read (place : Nat) : (((frame.store (pixel * 3) value).store (pixel * 3 + 1)
      (value / 256)).store (pixel * 3 + 2) (value / 65536)).memory.getD place 0 =
        if place = pixel * 3 + 2 then value / 65536 % 256
        else if place = pixel * 3 + 1 then value / 256 % 256
        else if place = pixel * 3 then value % 256 else frame.memory.getD place 0 := by
    rw [getD_store red, getD_store green, getD_store blue]
    simp only [kept, colour]
    rfl
  by_cases here : other = pixel
  · simp only [PixelFormat.pixelOf, here]
    rw [if_pos True.intro, read, read, read, if_neg (by omega), if_neg (by omega), if_pos rfl,
      if_neg (by omega), if_pos rfl, if_pos rfl]
    omega
  · have away (place : Nat) (low : other * 3 ≤ place) (high : place < other * 3 + 3) :
        _ = frame.memory.getD place 0 :=
      (read place).trans (by rw [if_neg (by omega), if_neg (by omega), if_neg (by omega)])
    simp only [PixelFormat.pixelOf]
    rw [if_neg here, away (other * 3) (by omega) (by omega), away (other * 3 + 1) (by omega) (by omega),
      away (other * 3 + 2) (by omega) (by omega)]

/-- The bytes of a line are those of its elements. -/
theorem Fits.bytesPerLine_eq (fits : Fits settings frame) (measured : settings.Measured) :
    frame.bytesPerLine = frame.elementsPerLine * frame.format.element.bytes := by
  have whole : settings.format.element.bytes ∣ settings.bytesPerLine := by
    rw [measured.bytesPerLine]
    cases settings.format with
    | mono01 => exact Nat.one_dvd _
    | rgb888 => exact Nat.one_dvd _
    | rgb565 =>
      simp only [PixelFormat.bitsPerPixel, PixelFormat.element, Element.bytes]
      omega
    | xrgb8888 =>
      simp only [PixelFormat.bitsPerPixel, PixelFormat.element, Element.bytes]
      omega
  rw [elementsPerLine, fits.format, fits.bytesPerLine, Nat.div_mul_cancel whole]

/-- **Drawing a pixel** that the display has sets the storage of that pixel and leaves that of every
other one. -/
theorem storedAt_drawPixel (fits : Fits settings frame) (measured : settings.Measured)
    {x y column line : Nat} (xInside : x < settings.columns) (yInside : y < settings.rows)
    (columnInside : column < settings.columns) (value : Nat) :
    (frame.drawPixel x y value).storedAt column line =
      if column = x ∧ line = y then settings.format.truncate value
      else frame.storedAt column line := by
  have fitsAfter : Fits settings (frame.drawPixel x y value) := fits.draw (.pixel x y value)
  have storedAt_eq {frame : Frame} (fits : Fits settings frame) : frame.storedAt column line =
      frame.format.storedOf (fun place => frame.memory.getD place 0)
        (line * settings.columns + column) := by
    rw [fits.format, (fits.spans_of_measured measured).storedOf, storedAt, fits.format]
  have visible : ¬(frame.columns ≤ x ∨ frame.rows ≤ y) := by
    rw [fits.columns, fits.rows]
    omega
  have spans := fits.spans_of_measured measured
  have inMemory := fits.line_le yInside
  rw [storedAt_eq fitsAfter, storedAt_eq fits, fitsAfter.format]
  simp only [← place_eq_iff columnInside xInside, fits.format]
  -- From here on both pixels are numbers in the whole memory, and lines no longer matter.
  generalize line * settings.columns + column = other
  unfold drawPixel
  rw [if_neg visible, fits.bytesPerLine_eq measured, ← Nat.mul_assoc, fits.format]
  generalize perLine : frame.elementsPerLine = per at *
  rw [Nat.succ_mul] at inMemory
  cases format : settings.format with
  | mono01 =>
    rw [format] at spans
    have columns : settings.columns = 8 * per := spans
    have place : y * per * 1 + x / 8 = y * per + x / 8 := by rw [Nat.mul_one]
    have inside : y * per + x / 8 < frame.memory.size := by omega
    have number : 8 * (y * per + x / 8) + x % 8 = y * settings.columns + x := by
      have start : y * settings.columns = 8 * (y * per) := by
        rw [columns]
        ring
      omega
    have found := Array.getElem?_eq_getElem inside
    have drawn := pixelOf_storeBit (fits.format.trans format) (Nat.mod_lt x (by decide)) found value
      other
    rw [number] at drawn
    simp only [PixelFormat.element, Element.bytes, place, found]
    exact drawn
  | rgb565 =>
    rw [format] at spans
    have columns : per = settings.columns := spans
    have place : y * per * 2 / 2 + x = y * settings.columns + x := by
      rw [Nat.mul_div_cancel _ (by decide), columns]
    have inside : y * per * 2 / 2 + x < frame.memory.size := by omega
    show (frame.store (y * per * 2 / 2 + x) value).memory.getD other 0 = _
    rw [getD_store inside, place, fits.format, format]
    rfl
  | rgb888 =>
    rw [format] at spans
    have columns : per = 3 * settings.columns := spans
    have place : y * per * 1 + x * 3 = (y * settings.columns + x) * 3 := by
      rw [columns]
      ring
    have inside : (y * settings.columns + x) * 3 + 3 ≤ frame.memory.size := by omega
    simp only [PixelFormat.element, Element.bytes, place, if_pos inside]
    exact pixelOf_storeBytes (fits.format.trans format) inside value other
  | xrgb8888 =>
    rw [format] at spans
    have columns : per = settings.columns := spans
    have place : y * per * 4 / 4 + x = y * settings.columns + x := by
      rw [Nat.mul_div_cancel _ (by decide), columns]
    have inside : y * per * 4 / 4 + x < frame.memory.size := by omega
    show (frame.store (y * per * 4 / 4 + x) value).memory.getD other 0 = _
    rw [getD_store inside, place, fits.format, format]
    rfl

end Pixel

end Frame

end PanelLink.Display
