/-
**The window that a panel is told and the lines that it is sent.**

An update tells the panel the columns and the lines of a window in two bytes each, and then sends the
pixels. Settings may be valid for displays that two bytes cannot number.

* `WindowUpdate`: the three writes of an update;
* **`Panel.updateWindow_eq_carryOut`**: an update over any channel is these writes and no others;
* `WindowUpdate.Denotes`: the window is that of the lines that are sent;
* **`window_denotes_lines_iff`**: it is so on displays of up to 65536 columns, up to that line.
-/

import PanelLink.Display.Panel
import PanelLink.Proofs.BankWrites
import PanelLink.Proofs.Display.Pixels
import PanelLink.Spi.Link

namespace PanelLink.Display

variable {m : Type → Type} [Monad m] [LawfulMonad m]

/-- **What an update asks of the register bank**: the elements of the lines, at the width at which
video memory travels. -/
def Frame.request (frame : Frame) (first last : Nat) : WriteRequest where
  words := frame.lines first last
  width := some frame.format.wireWidth
  address := frame.address + first * frame.elementsPerLine * frame.format.element.bytes

section Lines

variable {settings : Settings} {frame : Frame} {first last : Nat}

/-- **Lines of the display are one write.** -/
theorem Frame.Fits.send_eq (fits : Fits settings frame) (bank : RegisterBank m) (register : Nat)
    (ordered : first ≤ last) (inside : last < settings.rows) :
    frame.send bank register first last =
      (bank.write register (some (frame.request first last))).adapt .register := by
  unfold Frame.send
  rw [fits.lineRange?_eq ordered inside]
  exact pure_bind _ _

/-- The bank has nothing against that write. -/
theorem Frame.Fits.write_request (fits : Fits settings frame) (bank : RegisterBank m)
    (register : Nat) (ordered : first ≤ last) (inside : last < settings.rows) :
    bank.write register (some (frame.request first last)) =
      bank.channel.write bank.context register (some (frame.request first last)) := by
  have present : (frame.lines first last).values ≠ [] := by
    refine List.ne_nil_of_length_pos ?_
    rw [fits.length_lines first inside]
    exact Nat.mul_pos (by omega) fits.elementsPerLine_pos
  exact RegisterBank.write_some _ _ rfl present (PixelFormat.element_wireWidth _).symm

end Lines

/-- Numbers are written as bytes on a bank of 8 bits. -/
theorem Panel.writeRegister_eq (channel : Channel m) {config : BankSettings}
    (eight : config.width = .bits8) (staging : PanelRegister → Nat) (register : PanelRegister)
    (numbers : List Nat) (present : numbers ≠ []) (few : numbers.length ≤ maxNumbers) :
    writeRegister ⟨channel, config⟩ staging register numbers =
      (channel.write ⟨.bits8, config.deviations⟩ register.number
        (some {
          words := Words.ofList .byte numbers
          width := some .bits8
          address := staging register })).adapt .register := by
  have written : RegisterBank.writeNumbers ⟨channel, config⟩ (staging register) register.number
        numbers =
      channel.write ⟨.bits8, config.deviations⟩ register.number
        (some {
          words := Words.ofList .byte numbers
          width := some .bits8
          address := staging register }) := by
    unfold RegisterBank.writeNumbers
    dsimp only
    rw [if_neg (Nat.not_lt.mpr few), eight, if_pos (by decide)]
    refine (RegisterBank.write_some _ _ rfl (by simpa using present) rfl).trans ?_
    rw [RegisterBank.context, eight]
    rfl
  rw [writeRegister, written]

/-! ### The writes of an update -/

/-- **What an update asks of its channel**: the bytes that number the columns and the lines, and the
elements of the lines. -/
structure WindowUpdate where
  columns : List Nat
  lines : List Nat
  elements : WriteRequest

namespace WindowUpdate

/-- Three writes, in order, up to the first one that fails. The bytes of a register lie where they are
put together. -/
def carryOut (update : WindowUpdate) (channel : Channel m) (context : Context)
    (staging : PanelRegister → Nat) : ExceptT DisplayError m Unit := do
  let bytes (numbers : List Nat) (address : Nat) : WriteRequest :=
    { words := Words.ofList .byte numbers, width := some .bits8, address }
  let write (register : Nat) (request : WriteRequest) : ExceptT DisplayError m Unit :=
    (channel.write context register (some request)).adapt .register
  write 0x2A (bytes update.columns (staging .columnAddress))
  write 0x2B (bytes update.lines (staging .pageAddress))
  write 0x2C update.elements

/-- The numbers that bytes make in pairs, high byte first. -/
def bigEndian : List Nat → List Nat
  | high :: low :: later => (256 * high + low) :: bigEndian later
  | _ => []

/-- **The window is that of the lines that are sent**: all columns and the lines from `first` to
`last`, and every pixel of these, once. -/
structure Denotes (update : WindowUpdate) (frame : Frame) (first last : Nat) : Prop where
  columns : bigEndian update.columns = [0, frame.columns - 1]
  lines : bigEndian update.lines = [first, last]
  pixels : frame.format.pixels update.elements.words.values = frame.window first last
  count : (frame.format.pixels update.elements.words.values).length =
    (frame.columns - 1 - 0 + 1) * (last - first + 1)

end WindowUpdate

namespace Panel

/-- The update of the lines from `first` to `last`. -/
def windowUpdate (panel : Panel) (first last : Nat) : WindowUpdate where
  columns := boundBytes 0 ++ boundBytes (panel.frame.columns - 1)
  lines := boundBytes first ++ boundBytes last
  elements := {
    words := panel.frame.lines first last
    width := some panel.frame.format.wireWidth
    address :=
      panel.frame.address + first * panel.frame.elementsPerLine * panel.frame.format.element.bytes }

/-- The panel with its video memory drawn on. -/
def drawAll (panel : Panel) (drawings : List Drawing) : Panel :=
  { panel with frame := panel.frame.drawAll drawings }

/-- A panel has video memory as its settings want it. -/
theorem fits_of_create {settings : Settings} {modes : AddressModeTable} {address : Nat}
    {panel : Panel} (made : create settings modes address = .ok panel) :
    Frame.Fits settings panel.frame := by
  unfold create at made
  match created : Frame.create settings address with
  | .error error =>
    rw [created] at made
    cases made
  | .ok frame =>
    rw [created] at made
    cases made
    exact Frame.fits_create created

section Update

variable {settings : Settings} {panel : Panel} {config : BankSettings} {first last : Nat}

theorem send_eq_write (fits : Frame.Fits settings panel.frame) (channel : Channel m)
    (register : Nat) (ordered : first ≤ last) (inside : last < settings.rows) :
    panel.frame.send ⟨channel, config⟩ register first last =
      (channel.write ⟨config.width, config.deviations⟩ register
        (some (panel.windowUpdate first last).elements)).adapt .register :=
  (fits.send_eq ⟨channel, config⟩ register ordered inside).trans
    (congrArg _ (fits.write_request _ register ordered inside))

/-- **An update over any channel** of lines that the display has is three writes. -/
theorem updateWindow_eq_carryOut (fits : Frame.Fits settings panel.frame)
    (eight : config.width = .bits8) (channel : Channel m) (staging : PanelRegister → Nat)
    (ordered : first ≤ last) (inside : last < settings.rows) :
    panel.updateWindow ⟨channel, config⟩ staging first last =
      (panel.windowUpdate first last).carryOut channel ⟨.bits8, config.deviations⟩ staging := by
  have valid : ¬(last < first ∨ panel.frame.rows ≤ last) := by
    rw [fits.rows]
    omega
  have bound (register : PanelRegister) (low high : Nat) :=
    writeRegister_eq channel eight staging register (boundBytes low ++ boundBytes high)
      (List.cons_ne_nil _ _) (show 4 ≤ 64 by decide)
  unfold updateWindow
  rw [if_neg valid, bound, bound, send_eq_write fits channel _ ordered inside, eight]
  rfl

end Update

/-- The bytes of two bounds make the low 16 bits of each. -/
theorem bigEndian_boundBytes (low high : Nat) :
    WindowUpdate.bigEndian (boundBytes low ++ boundBytes high) = [low % 65536, high % 65536] := by
  show [256 * (low / 256 % 256) + low % 256, 256 * (high / 256 % 256) + high % 256] = _
  congr 1
  · omega
  · congr 1
    omega

end Panel

/-- A window has every column of each of its lines. -/
theorem Frame.length_window (frame : Frame) (first last : Nat) :
    (frame.window first last).length = (last + 1 - first) * frame.columns := by
  simp [Frame.window, List.length_flatMap]

/-- **The window denotes the lines that are sent** exactly where two bytes number the columns and the
lines. -/
theorem Panel.denotes_iff {settings : Settings} {panel : Panel}
    (fits : Frame.Fits settings panel.frame) {first last : Nat} (ordered : first ≤ last)
    (inside : last < settings.rows) :
    (panel.windowUpdate first last).Denotes panel.frame first last ↔
      settings.columns ≤ 65536 ∧ last < 65536 := by
  obtain ⟨wide, -, -⟩ := Settings.geometry_of_check fits.checked
  constructor
  · rintro ⟨columns, lines, -, -⟩
    have columns : [0 % 65536, (panel.frame.columns - 1) % 65536] = [0, panel.frame.columns - 1] :=
      (bigEndian_boundBytes _ _).symm.trans columns
    have lines : [first % 65536, last % 65536] = [first, last] :=
      (bigEndian_boundBytes _ _).symm.trans lines
    rw [fits.columns] at columns
    simp only [List.cons.injEq, and_true] at columns lines
    omega
  · rintro ⟨fewColumns, fewLines⟩
    have pixels : panel.frame.format.pixels (panel.frame.lines first last).values =
        panel.frame.window first last := by
      rw [fits.format]
      exact fits.pixels_lines (fits.spans (by omega)) inside
    refine ⟨(bigEndian_boundBytes _ _).trans ?_, (bigEndian_boundBytes _ _).trans ?_, pixels, ?_⟩
    · rw [Nat.mod_eq_of_lt (show panel.frame.columns - 1 < 65536 by rw [fits.columns]; omega)]
    · rw [Nat.mod_eq_of_lt (show first < 65536 by omega), Nat.mod_eq_of_lt fewLines]
    · show (panel.frame.format.pixels (panel.frame.lines first last).values).length = _
      rw [pixels, Frame.length_window, fits.columns, Nat.mul_comm]
      congr 1
      · omega
      · omega

/-- An update of lines that the display does not have is refused before anything is written. -/
theorem Panel.updateWindow_of_not_inside {settings : Settings} {panel : Panel}
    (fits : Frame.Fits settings panel.frame) (bank : RegisterBank m)
    (staging : PanelRegister → Nat) {first last : Nat}
    (outside : ¬(first ≤ last ∧ last < settings.rows)) :
    panel.updateWindow bank staging first last = throw (.invalidLineRange first last) := by
  have invalid : last < first ∨ panel.frame.rows ≤ last := by
    rw [fits.rows]
    omega
  unfold updateWindow
  rw [if_pos invalid]
  exact ExceptT.ext (pure_bind _ _)

/-- **What an update tells a panel**, and that it is not always what it sends. On a bank of 8 bits,
an update of lines that the display has is three writes over any channel, and any other is refused.
The window that the first two writes number has the low 16 bits of each bound, while the elements of
the third are the pixels of the lines themselves, as long as a line is one that 32 bits measure. So the
window denotes the lines that are sent exactly if the display has at most 65536 columns and the lines
are among the first 65536. -/
theorem window_denotes_lines_iff {settings : Settings} {modes : AddressModeTable} {address : Nat}
    {panel : Panel} (made : Panel.create settings modes address = .ok panel) {config : BankSettings}
    (eight : config.width = .bits8) (drawings : List Drawing) (first last : Nat) :
    let drawn := panel.drawAll drawings
    let update := drawn.windowUpdate first last
    (∀ {m : Type → Type} [Monad m] [LawfulMonad m] (channel : Channel m)
        (staging : PanelRegister → Nat),
      drawn.updateWindow ⟨channel, config⟩ staging first last =
        if first ≤ last ∧ last < settings.rows then
          update.carryOut channel ⟨.bits8, config.deviations⟩ staging
        else throw (.invalidLineRange first last)) ∧
    update.columns.length = 4 ∧ update.lines.length = 4 ∧
    (∀ byte ∈ update.columns ++ update.lines, byte < 256) ∧
    WindowUpdate.bigEndian update.columns = [0, (settings.columns - 1) % 65536] ∧
    WindowUpdate.bigEndian update.lines = [first % 65536, last % 65536] ∧
    (first ≤ last → last < settings.rows →
      (settings.columns < 1073741824 →
        settings.format.pixels update.elements.words.values = drawn.frame.window first last) ∧
      (update.Denotes drawn.frame first last ↔ settings.columns ≤ 65536 ∧ last < 65536)) := by
  intro drawn update
  have fits : Frame.Fits settings drawn.frame := (Panel.fits_of_create made).drawAll drawings
  refine ⟨fun {m} _ _ channel staging => ?_, rfl, rfl, fun byte member => ?_, ?_,
    Panel.bigEndian_boundBytes first last, fun ordered inside => ⟨fun short => ?_, ?_⟩⟩
  · by_cases valid : first ≤ last ∧ last < settings.rows
    · rw [if_pos valid]
      exact Panel.updateWindow_eq_carryOut fits eight channel staging valid.1 valid.2
    · rw [if_neg valid]
      exact Panel.updateWindow_of_not_inside fits _ staging valid
  · have bounded (bound : Nat) : ∀ byte ∈ Panel.boundBytes bound, byte < 256 := by
      simp only [Panel.boundBytes, List.mem_cons, List.not_mem_nil, or_false]
      omega
    simp only [update, Panel.windowUpdate, List.mem_append] at member
    rcases member with (member | member) | member | member <;> exact bounded _ byte member
  · rw [← fits.columns]
    exact Panel.bigEndian_boundBytes 0 _
  · exact fits.pixels_lines (fits.spans short) inside
  · exact Panel.denotes_iff fits ordered inside

/-- A panel of eight columns, not drawn on. -/
def narrowPanel (lines : Nat) : Panel where
  settings := { width := 8, height := lines, format := .mono01 }
  frame := ⟨.mono01, 8, lines, 1, Array.replicate lines 0, 0⟩
  modes := ⟨0, 0, 0, 0⟩

/-- Three lines: the window of the last two is the one that is sent. -/
theorem window_denotes_lines_iff_threeLines :
    let drawn := (narrowPanel 3).drawAll [.pixel 1 2 1]
    Panel.create (narrowPanel 3).settings (narrowPanel 3).modes 0 = .ok (narrowPanel 3) ∧
      (narrowPanel 3).bankSettings.width = .bits8 ∧
      (drawn.windowUpdate 1 2).Denotes drawn.frame 1 2 ∧
      drawn.frame.window 1 2 = [0, 0, 0, 0, 0, 0, 0, 0, 0, 1, 0, 0, 0, 0, 0, 0] := by
  intro drawn
  have made : Panel.create (narrowPanel 3).settings (narrowPanel 3).modes 0 = .ok (narrowPanel 3) := rfl
  have eight : (narrowPanel 3).bankSettings.width = .bits8 := rfl
  obtain ⟨-, -, -, -, -, -, exactly⟩ := window_denotes_lines_iff made eight [.pixel 1 2 1] 1 2
  exact ⟨made, eight, (exactly (by decide) (by decide)).2.mpr ⟨by decide, by decide⟩,
    by decide +kernel⟩

theorem windowUpdate_narrowPanel :
    (narrowPanel 65537).windowUpdate 65536 65536 =
      { columns := [0, 0, 0, 7]
        lines := [0, 0, 0, 0]
        elements := { words := Words.ofList .byte [0], width := some .bits8, address := 65536 } } := by
  simp [Panel.windowUpdate, Panel.boundBytes, Frame.lines, Frame.elementsPerLine, narrowPanel,
    PixelFormat.element, Element.bytes, PixelFormat.wireWidth]

/-- **The last line of a tall panel is sent for its first one**: over four wires, with nothing planned
to fail, the update of line 65536 succeeds and tells the panel line 0. -/
theorem window_denotes_first_line :
    let panel := narrowPanel 65537
    let link : Spi.Link :=
      { mode := .fourWire, selectorLine := .line .selector, reset := .absent, config := {}
        mask := .bytesOnly, clock := 10000000, canMap := false
        handleOf := Slice.inPlace, layout := .paged }
    Panel.create panel.settings panel.modes 0 = .ok panel ∧
      panel.bankSettings.width = .bits8 ∧ 65536 < panel.settings.rows ∧
      (∃ after,
        (panel.updateWindow ⟨link.channel, panel.bankSettings⟩ (fun _ => 0) 65536 65536).run.run {} =
          (.ok (), after) ∧
        (after.messages.flatten.filterMap Segment.transmitted?).map (·.values) =
          [[0x2A], [0, 0, 0, 7], [0x2B], [0, 0, 0, 0], [0x2C], [0]]) ∧
      ¬(panel.windowUpdate 65536 65536).Denotes panel.frame 65536 65536 := by
  intro panel link
  have made : Panel.create (narrowPanel 65537).settings (narrowPanel 65537).modes 0 =
      .ok (narrowPanel 65537) := rfl
  have sent := Panel.updateWindow_eq_carryOut (Panel.fits_of_create made)
    (rfl : panel.bankSettings.width = .bits8) link.channel (fun _ => 0) (Nat.le_refl 65536) (by decide)
  rw [windowUpdate_narrowPanel] at sent
  refine ⟨made, rfl, by decide, ?_, fun denotes => ?_⟩
  · rw [sent]
    exact ⟨_, Prod.ext (by decide +kernel) rfl, by decide +kernel⟩
  · have lines := denotes.lines
    rw [windowUpdate_narrowPanel] at lines
    exact absurd lines (by decide)

end PanelLink.Display
