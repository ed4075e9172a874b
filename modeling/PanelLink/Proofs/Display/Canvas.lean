/-
**What is drawn and what is sent.**

Video memory is a picture: what the storage of each pixel holds is what the last stroke that reached it
has left there. The elements of a range of lines are these pixels in the layout of their format.

* `Stroke`: setting a pixel and filling the memory, and `Stroke.leaves?`: what a stroke leaves in the
  storage of a pixel;
* **`Frame.Fits.storedAt_paintAll`**: each pixel's storage holds what was left there last;
* `PixelFormat.row`: the elements in which the pixels of a line are laid out;
* **`Frame.Fits.values_lines_eq_rows`**: the elements of a range of lines are the rows of its pixels;
* **`sends_picture`**: what an update hands to the register bank, after any strokes.
-/

import Mathlib.Data.List.Induction
import PanelLink.Proofs.Display.AddressWindow

namespace PanelLink.Display

/-! ### Strokes -/

/-- One call that draws. -/
inductive Stroke where
  | pixel (x y value : Nat)
  | fill (value : Nat)
  deriving DecidableEq, Repr

namespace Stroke

def drawing : Stroke → Drawing
  | pixel x y value => .pixel x y value
  | fill value => .fill value

/-- **What a stroke leaves** in the storage of the pixel at a column and a line, if it reaches it. Of a
pixel that is the low bits of its value. A fill leaves its own in every element, whichever part of
a pixel that is. -/
def leaves? (format : PixelFormat) (column line : Nat) : Stroke → Option Nat
  | pixel x y value => if column = x ∧ line = y then some (format.truncate value) else none
  | fill value => some (format.storedOf (fun _ => format.element.truncate value) column)

end Stroke

/-- **What strokes leave** in the storage of a pixel of a display that was dark: what the last of them
that reaches it does. -/
def leftAt (format : PixelFormat) (strokes : List Stroke) (column line : Nat) : Nat :=
  (strokes.reverse.findSome? (Stroke.leaves? format column line)).getD 0

theorem leftAt_concat (format : PixelFormat) (strokes : List Stroke) (stroke : Stroke)
    (column line : Nat) :
    leftAt format (strokes ++ [stroke]) column line =
      (stroke.leaves? format column line).getD (leftAt format strokes column line) := by
  unfold leftAt
  rw [List.reverse_append, List.reverse_singleton, List.singleton_append, List.findSome?_cons]
  cases stroke.leaves? format column line <;> rfl

theorem PixelFormat.storedOf_dark (format : PixelFormat) (pixel : Nat) :
    format.storedOf (fun _ => 0) pixel = 0 := by
  cases format <;> simp [storedOf, pixelOf]

namespace Frame

def paintAll (frame : Frame) (strokes : List Stroke) : Frame :=
  frame.drawAll (strokes.map Stroke.drawing)

theorem paintAll_concat (frame : Frame) (strokes : List Stroke) (stroke : Stroke) :
    frame.paintAll (strokes ++ [stroke]) = (frame.paintAll strokes).draw stroke.drawing := by
  simp [paintAll, drawAll]

section Paint

variable {settings : Settings} {frame : Frame} {address : Nat}

theorem Fits.paintAll (fits : Fits settings frame) (strokes : List Stroke) :
    Fits settings (frame.paintAll strokes) :=
  fits.drawAll _

/-- Every element of a line is one of the memory. -/
theorem Fits.place_lt (fits : Fits settings frame) {line place : Nat} (inside : line < settings.rows)
    (inLine : place < frame.elementsPerLine) :
    line * frame.elementsPerLine + place < frame.memory.size := by
  have fitsIn := fits.line_le inside
  rw [Nat.succ_mul] at fitsIn
  omega

/-- Pixels that the display does not have cannot be set. -/
theorem Fits.drawPixel_of_not_inside (fits : Fits settings frame) {x y : Nat}
    (outside : ¬(x < settings.columns ∧ y < settings.rows)) (value : Nat) :
    frame.drawPixel x y value = frame := by
  have hidden : frame.columns ≤ x ∨ frame.rows ≤ y := by
    rw [fits.columns, fits.rows]
    omega
  unfold drawPixel
  rw [if_pos hidden]

theorem Fits.storedAt_fill (fits : Fits settings frame) (measured : settings.Measured)
    {column line : Nat} (columnInside : column < settings.columns) (lineInside : line < settings.rows)
    (value : Nat) :
    (frame.fill value).storedAt column line =
      settings.format.storedOf (fun _ => settings.format.element.truncate value) column := by
  have format := (fits.fill value).format
  have inLine := (fits.spans_of_measured measured).lt_pixelCount columnInside
  unfold storedAt
  rw [format]
  refine PixelFormat.storedOf_congr inLine fun place inPlace => ?_
  have inside := fits.place_lt lineInside inPlace
  show (Array.replicate frame.memory.size (frame.format.element.truncate value)).getD
    (line * frame.elementsPerLine + place) 0 = _
  rw [Array.getD_eq_getD_getElem?, Array.getElem?_replicate, if_pos inside, fits.format,
    Option.getD_some]

/-- **One stroke** replaces what it reaches and keeps the rest. -/
theorem Fits.storedAt_draw (fits : Fits settings frame) (measured : settings.Measured)
    (stroke : Stroke) {column line : Nat} (columnInside : column < settings.columns)
    (lineInside : line < settings.rows) :
    (frame.draw stroke.drawing).storedAt column line =
      (stroke.leaves? settings.format column line).getD (frame.storedAt column line) := by
  cases stroke with
  | fill value => exact fits.storedAt_fill measured columnInside lineInside value
  | pixel x y value =>
    show (frame.drawPixel x y value).storedAt column line =
      (if column = x ∧ line = y then some (settings.format.truncate value) else none).getD _
    by_cases visible : x < settings.columns ∧ y < settings.rows
    · rw [storedAt_drawPixel fits measured visible.1 visible.2 columnInside]
      split <;> rfl
    · have elsewhere : ¬(column = x ∧ line = y) := by omega
      rw [fits.drawPixel_of_not_inside visible, if_neg elsewhere, Option.getD_none]

theorem storedAt_create (made : create settings address = .ok frame) (column line : Nat) :
    frame.storedAt column line = 0 := by
  have dark (place : Nat) : frame.memory.getD place 0 = 0 := by
    obtain ⟨-, rfl⟩ := create_eq_ok made
    rw [Array.getD_eq_getD_getElem?, Array.getElem?_replicate]
    split <;> rfl
  unfold storedAt
  simp only [dark]
  exact PixelFormat.storedOf_dark _ _

/-- **Each pixel's storage holds what was left there last.** -/
theorem storedAt_paintAll (made : create settings address = .ok frame) (measured : settings.Measured)
    (strokes : List Stroke) {column line : Nat} (columnInside : column < settings.columns)
    (lineInside : line < settings.rows) :
    (frame.paintAll strokes).storedAt column line = leftAt settings.format strokes column line := by
  induction strokes using List.reverseRecOn with
  | nil => exact storedAt_create made column line
  | append_singleton strokes stroke hyp =>
    have fits := (fits_create made).paintAll strokes
    rw [paintAll_concat, fits.storedAt_draw measured stroke columnInside lineInside, leftAt_concat,
      hyp]

end Paint

end Frame

/-! ### Rows of elements -/

namespace PixelFormat

/-- **The elements of a line**, of what the storage of its pixels holds: eight pixels to a byte, the
first in the lowest bit; or an element for each pixel; or its three bytes, the lowest one first. -/
def row (format : PixelFormat) (columns : Nat) (stored : Nat → Nat) : List Nat :=
  match format with
  | mono01 => (List.range (columns / 8)).map fun place =>
      ((List.range 8).map fun bit => stored (8 * place + bit) * 2 ^ bit).sum
  | rgb565 => (List.range columns).map stored
  | rgb888 => (List.range columns).flatMap fun column =>
      [stored column % 256, stored column / 256 % 256, stored column / 65536]
  | xrgb8888 => (List.range columns).map stored

theorem row_congr {format : PixelFormat} {columns : Nat} {stored others : Nat → Nat}
    (same : ∀ column, column < columns → stored column = others column) :
    format.row columns stored = format.row columns others := by
  cases format with
  | mono01 =>
    refine List.map_congr_left fun place inLine => congrArg List.sum ?_
    refine List.map_congr_left fun bit inByte => ?_
    rw [same]
    rw [List.mem_range] at inLine inByte
    omega
  | rgb565 => exact List.map_congr_left fun column inLine => same column (List.mem_range.mp inLine)
  | rgb888 =>
    refine List.flatMap_congr fun column inLine => ?_
    rw [same column (List.mem_range.mp inLine)]
  | xrgb8888 => exact List.map_congr_left fun column inLine => same column (List.mem_range.mp inLine)

/-- A byte is the sum of its bits. -/
theorem sum_bits {byte : Nat} (small : byte < 256) :
    ((List.range 8).map fun bit => byte / 2 ^ bit % 2 * 2 ^ bit).sum = byte := by
  simp [List.range_succ]
  omega

/-- **A line is the row of its pixels.** -/
theorem Spans.row_storedOf {format : PixelFormat} {columns perLine : Nat}
    (spans : format.Spans columns perLine) {elements : Nat → Nat}
    (bounded : ∀ place, elements place < format.element.modulus) :
    format.row columns (format.storedOf elements) = (List.range perLine).map elements := by
  cases format with
  | mono01 =>
    have whole : columns / 8 = perLine := by
      rw [show columns = 8 * perLine from spans]
      omega
    show (List.range (columns / 8)).map _ = _
    rw [whole]
    refine List.map_congr_left fun place _ => ?_
    refine Eq.trans (congrArg List.sum (List.map_congr_left fun bit inByte => ?_))
      (sum_bits (bounded place))
    have bitOf : (8 * place + bit) / 8 = place ∧ (8 * place + bit) % 8 = bit := by
      rw [List.mem_range] at inByte
      omega
    show elements ((8 * place + bit) / 8) / 2 ^ ((8 * place + bit) % 8) % 2 * 2 ^ bit = _
    rw [bitOf.1, bitOf.2]
  | rgb888 =>
    rw [show perLine = columns * 3 from Eq.trans spans (Nat.mul_comm _ _), range_mul_map]
    refine List.flatMap_congr fun column _ => ?_
    have blue : elements (column * 3) < 256 := bounded _
    have green : elements (column * 3 + 1) < 256 := bounded _
    have red : elements (column * 3 + 2) < 256 := bounded _
    show [_, _, _] = [elements (column * 3), _, _]
    simp only [PixelFormat.storedOf, PixelFormat.pixelOf, List.cons.injEq, and_true]
    omega
  | rgb565 => rw [show perLine = columns from spans]; rfl
  | xrgb8888 => rw [show perLine = columns from spans]; rfl

end PixelFormat

/-- A run of elements of an array, place by place. -/
theorem toList_extract_eq_map {elements : Array Nat} (start count : Nat)
    (inside : start + count ≤ elements.size) :
    (elements.extract start (start + count)).toList =
      (List.range count).map fun place => elements.getD (start + place) 0 := by
  refine List.ext_getElem? fun place => ?_
  rw [Array.getElem?_toList, Array.getElem?_extract, Nat.min_eq_left inside, Nat.add_sub_cancel_left,
    List.getElem?_map]
  by_cases inRun : place < count
  · have found : start + place < elements.size := by omega
    rw [if_pos inRun, List.getElem?_range inRun, Option.map_some, Array.getD_eq_getD_getElem?,
      Array.getElem?_eq_getElem found, Option.getD_some]
  · rw [if_neg inRun, List.getElem?_eq_none (by simpa using inRun)]
    rfl

namespace Frame

section Rows

variable {settings : Settings} {frame : Frame}

theorem Fits.getD_lt (fits : Fits settings frame) (place : Nat) :
    frame.memory.getD place 0 < settings.format.element.modulus := by
  rw [Array.getD_eq_getD_getElem?]
  match found : frame.memory[place]? with
  | none => exact settings.format.element.modulus_pos
  | some element => exact fits.bounded element (Array.mem_of_getElem? found)

/-- **The elements of a range of lines** are the rows of its pixels, line after line. -/
theorem Fits.values_lines_eq_rows (fits : Fits settings frame) (measured : settings.Measured)
    {first last : Nat} (ordered : first ≤ last) (inside : last < settings.rows) :
    (frame.lines first last).values =
      (List.range' first (last + 1 - first)).flatMap fun line =>
        settings.format.row settings.columns fun column => frame.storedAt column line := by
  have spans := fits.spans_of_measured measured
  have fitsIn := fits.line_le inside
  rw [fits.values_lines, List.range'_eq_map_range, List.flatMap_map]
  generalize perLine : frame.elementsPerLine = per at *
  have stop : (last + 1) * per = first * per + (last + 1 - first) * per := by
    rw [← Nat.add_mul]
    congr 1
    omega
  rw [stop] at fitsIn ⊢
  rw [toList_extract_eq_map _ _ fitsIn, range_mul_map]
  refine List.flatMap_congr fun line _ => ?_
  rw [← spans.row_storedOf fun place => fits.getD_lt _]
  refine PixelFormat.row_congr fun column _ => ?_
  rw [storedAt, fits.format, perLine]
  simp only [Nat.add_mul, Nat.add_assoc]

/-- Video memory has nothing but the lines of the display. -/
theorem Fits.size_eq (fits : Fits settings frame) (measured : settings.Measured) :
    frame.memory.size = settings.rows * frame.elementsPerLine := by
  have bytes := fits.bytesPerLine_eq measured
  rw [fits.bytesPerLine, fits.format] at bytes
  rw [fits.size, bytes, Nat.mul_right_comm, Nat.mul_div_cancel _ (Element.bytes_pos _),
    Nat.mul_comm]

theorem Fits.toList_memory (fits : Fits settings frame) (measured : settings.Measured) :
    frame.memory.toList = (frame.lines 0 (settings.rows - 1)).values := by
  obtain ⟨-, tall, -⟩ := Settings.geometry_of_check fits.checked
  rw [fits.values_lines, Nat.zero_mul, Nat.sub_add_cancel tall, ← fits.size_eq measured,
    Array.extract_size]

end Rows

end Frame

/-! ### Updates -/

/-- The elements of a range of lines, after strokes on a dark display. -/
def Settings.picture (settings : Settings) (strokes : List Stroke) (first last : Nat) : List Nat :=
  (List.range' first (last + 1 - first)).flatMap fun line =>
    settings.format.row settings.columns fun column => leftAt settings.format strokes column line

/-- Two ranges of lines, one after the other, are the range of all of them. -/
theorem Settings.picture_append (settings : Settings) (strokes : List Stroke)
    {first middle last : Nat} (ordered : first ≤ middle) (below : middle < last) :
    settings.picture strokes first middle ++ settings.picture strokes (middle + 1) last =
      settings.picture strokes first last := by
  have upper : List.range' (middle + 1) (last + 1 - (middle + 1)) =
      List.range' (first + (middle + 1 - first)) (last - middle) := by
    congr 1 <;> omega
  have all : middle + 1 - first + (last - middle) = last + 1 - first := by omega
  unfold picture
  rw [← List.flatMap_append, upper, List.range'_append_1, all]

/-- **What an update sends.** On a display whose lines 32 bits measure, after any strokes, an update of
lines that the display has is one write to the register bank, at the width at which the format travels.
Its elements are the pixels of these lines in row-major order, each as the last stroke that reached it
has left it; video memory is all lines and nothing else. One more pixel changes what its own storage
holds and what no other one does, or nothing at all where the display has no such pixel. And the lines
that are sent in two updates are those that are sent in one. -/
theorem sends_picture {settings : Settings} {address : Nat} {frame : Frame}
    (made : Frame.create settings address = .ok frame) (measured : settings.Measured)
    (strokes : List Stroke) :
    let drawn := frame.paintAll strokes
    (∀ {m : Type → Type} [Monad m] [LawfulMonad m] (bank : RegisterBank m)
        (register first last : Nat), first ≤ last → last < settings.rows →
      drawn.send bank register first last =
        (bank.write register (some {
          words := drawn.lines first last
          width := some settings.format.wireWidth
          address := address + first * settings.bytesPerLine })).adapt .register) ∧
    (∀ first last, first ≤ last → last < settings.rows →
      (drawn.lines first last).element = settings.format.wireWidth.element ∧
      (drawn.lines first last).values = settings.picture strokes first last) ∧
    drawn.memory.toList = settings.picture strokes 0 (settings.rows - 1) ∧
    (∀ column line, column < settings.columns → line < settings.rows →
      drawn.storedAt column line = leftAt settings.format strokes column line) ∧
    (∀ x y value, x < settings.columns → y < settings.rows →
      ∀ column line, column < settings.columns →
        (drawn.drawPixel x y value).storedAt column line =
          if column = x ∧ line = y then settings.format.truncate value
          else drawn.storedAt column line) ∧
    (∀ x y value, ¬(x < settings.columns ∧ y < settings.rows) →
      drawn.drawPixel x y value = drawn) ∧
    (∀ first middle last, first ≤ middle → middle < last → last < settings.rows →
      (drawn.lines first middle).values ++ (drawn.lines (middle + 1) last).values =
        (drawn.lines first last).values) := by
  intro drawn
  have fits : Frame.Fits settings drawn := (Frame.fits_create made).paintAll strokes
  have stored {column line : Nat} (columnInside : column < settings.columns)
      (lineInside : line < settings.rows) :
      drawn.storedAt column line = leftAt settings.format strokes column line :=
    Frame.storedAt_paintAll made measured strokes columnInside lineInside
  have payload {first last : Nat} (ordered : first ≤ last) (inside : last < settings.rows) :
      (drawn.lines first last).values = settings.picture strokes first last := by
    rw [fits.values_lines_eq_rows measured ordered inside]
    refine List.flatMap_congr fun line member => PixelFormat.row_congr fun column columnInside => ?_
    rw [List.mem_range'_1] at member
    exact stored columnInside (by omega)
  refine ⟨?_, ?_, ?_, ?_, ?_, ?_, ?_⟩
  · intro m _ _ bank register first last ordered inside
    have lines : first * drawn.elementsPerLine * drawn.format.element.bytes =
        first * settings.bytesPerLine := by
      rw [Nat.mul_assoc, ← fits.bytesPerLine_eq measured, fits.bytesPerLine]
    have start : drawn.address = address := by
      obtain ⟨-, rfl⟩ := Frame.create_eq_ok made
      exact Frame.address_drawAll _ _
    rw [fits.send_eq bank register ordered inside, Frame.request, lines, start, fits.format]
  · intro first last ordered inside
    refine ⟨?_, payload ordered inside⟩
    rw [PixelFormat.element_wireWidth, ← fits.format]
    rfl
  · obtain ⟨-, tall, -⟩ := Settings.geometry_of_check fits.checked
    rw [fits.toList_memory measured, payload (Nat.zero_le _) (Nat.sub_lt tall Nat.one_pos)]
  · intro column line columnInside lineInside
    exact stored columnInside lineInside
  · intro x y value xInside yInside column line columnInside
    exact Frame.storedAt_drawPixel fits measured xInside yInside columnInside value
  · intro x y value outside
    exact fits.drawPixel_of_not_inside outside value
  · intro first middle last ordered below inside
    rw [payload ordered (by omega), payload (by omega) inside, payload (by omega) inside,
      settings.picture_append strokes ordered below]

/-- Three bytes a pixel: the second of two lines after a fill, a pixel of that line and one that the
display does not have. -/
theorem sends_picture_twoLines :
    let settings : Settings := { width := 2, height := 2, format := .rgb888 }
    let strokes : List Stroke := [.fill 0x010203, .pixel 1 1 0xFFAABBCC, .pixel 2 0 7]
    ∃ frame, Frame.create settings 0x2000 = .ok frame ∧ settings.Measured ∧
      ((frame.paintAll strokes).lines 1 1).values = [3, 3, 3, 0xCC, 0xBB, 0xAA] ∧
      (frame.paintAll strokes).storedAt 1 1 = 0xAABBCC := by
  intro settings strokes
  have made : Frame.create settings 0x2000 =
      .ok ⟨.rgb888, 2, 2, 6, Array.replicate 12 0, 0x2000⟩ := by cbv
  have measured : settings.Measured := by decide
  obtain ⟨-, payload, -, stored, -⟩ := sends_picture made measured strokes
  have inside : 1 < settings.rows := by decide
  exact ⟨_, made, measured, (payload 1 1 (Nat.le_refl 1) inside).2.trans (by decide),
    (stored 1 1 (by decide) inside).trans (by decide)⟩

end PanelLink.Display
