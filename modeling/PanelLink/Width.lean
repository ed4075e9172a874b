/-
**How wide an element travels, and in which phase.**

* `Width`: the bits of one element on the bus, which need not fill the element's memory size;
* `WordSizes`: the widths that a controller clocks without help, one bit for each number of bits;
* `Selector`: whether a phase carries a command or data.
-/

import PanelLink.Words

namespace PanelLink

/-- What a phase of a register access carries. -/
inductive Selector where
  | command
  | data
  deriving DecidableEq, Repr, Inhabited

def Selector.isData : Selector → Bool
  | command => false
  | data => true

/-- Bits that each element takes on the bus. -/
inductive Width where
  | bits8
  | bits9
  | bits16
  | bits24
  | bits32
  deriving DecidableEq, Repr, Inhabited

namespace Width

def bits : Width → Nat
  | bits8 => 8
  | bits9 => 9
  | bits16 => 16
  | bits24 => 24
  | bits32 => 32

/-- The memory size of an element that travels at this width. -/
def element : Width → Element
  | bits8 => .byte
  | bits9 => .half
  | bits16 => .half
  | bits24 => .word
  | bits32 => .word

def all : List Width :=
  [bits8, bits9, bits16, bits24, bits32]

/-- The width of a number of bits, if there is one. -/
def ofBits? (bits : Nat) : Option Width :=
  all.find? fun width => width.bits == bits

theorem ofBits?_bits (width : Width) : ofBits? width.bits = some width := by
  cases width <;> rfl

/-- An element holds at least the bits that travel. -/
theorem bits_le_element_bits (width : Width) : width.bits ≤ width.element.bits := by
  cases width <;> decide

end Width

/-- The bit that stands for a word size in a mask; sizes outside 1 to 32 have none. -/
def wordSizeBit (bits : Nat) : Nat :=
  if 1 ≤ bits ∧ bits ≤ 32 then 1 <<< (bits - 1) else 0

/-- Whether a bit of a number is set, counting from the least significant. -/
def wordBit (value bit : Nat) : Bool :=
  bit < 32 && value.testBit bit

structure WordSizes where
  /-- One bit for each word size, that of `wordSizeBit`. -/
  raw : Nat
  deriving DecidableEq, Repr

namespace WordSizes

def bytesOnly : WordSizes :=
  ⟨wordSizeBit 8⟩

def ofWidths (widths : List Width) : WordSizes :=
  ⟨widths.foldl (fun mask width => mask ||| wordSizeBit width.bits) 0⟩

def contains (mask : WordSizes) (width : Width) : Bool :=
  mask.raw &&& wordSizeBit width.bits != 0

theorem contains_bytesOnly (width : Width) : bytesOnly.contains width = (width == .bits8) := by
  cases width <;> decide

end WordSizes

end PanelLink
