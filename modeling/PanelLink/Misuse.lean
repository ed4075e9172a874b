/-
**Requests that a link turns down, and why.**

Each cause is a constructor, and `Misuse.message` is the only place that words it.
-/

namespace PanelLink

inductive Misuse where
  | unsupportedWidth
  | elementMismatch
  | incompleteNineBitGroup
  | busWithoutLines
  | widthNotDivisible
  | writeOnlyWiring
  | emptyRead
  | missingSelectorLine
  | buffersTooSmall
  | noByteWords
  | widthNotEmulated
  | untaggableElements
  | readWidthDiffers
  | unreadableElements
  | unreadableRegisterWidth
  | startByteReadWidth
  | tooManyParallelLines
  | noParallelLines
  | malformedWindow
  | windowNotRegistered
  | outsideWindow
  | busNotWritable
  | dataWidthOutOfRange
  | tooManyAddressLines
  | tooManyDataLines
  | noDataLines
  | noStrobe
  | notHexadecimal
  | emptyCommand
  | oneRegisterExpected
  deriving DecidableEq, Repr

def Misuse.message : Misuse → String
  | unsupportedWidth => "unsupported width"
  | elementMismatch => "element type does not match width"
  | incompleteNineBitGroup => "9-bit emulation needs a multiple of 8 words"
  | busWithoutLines => "bus has no data lines"
  | widthNotDivisible => "width is not a multiple of the bus width"
  | writeOnlyWiring => "transport wiring is write-only"
  | emptyRead => "read of zero elements"
  | missingSelectorLine => "4-wire mode needs a D/C line"
  | buffersTooSmall => "segment or scratch length too small"
  | noByteWords => "controller cannot send 8-bit words"
  | widthNotEmulated => "width cannot be emulated on this bus"
  | untaggableElements => "3-wire transfers carry 8 or 16-bit elements"
  | readWidthDiffers => "read width must match the register width"
  | unreadableElements => "reads carry 8 or 16-bit elements"
  | unreadableRegisterWidth => "reads need an 8 or 16-bit register width"
  | startByteReadWidth => "startbyte reads are 16-bit"
  | tooManyParallelLines => "more than 24 data lines"
  | noParallelLines => "parallel bus needs data lines"
  | malformedWindow => "invalid i80 device window"
  | windowNotRegistered => "i80 device not registered"
  | outsideWindow => "address outside i80 device"
  | busNotWritable => "i80 bus not writable"
  | dataWidthOutOfRange => "i80 data width out of range"
  | tooManyAddressLines => "more than 32 address lines"
  | tooManyDataLines => "more than 32 data lines"
  | noDataLines => "no data lines"
  | noStrobe => "neither wr nor rd strobe"
  | notHexadecimal => "not a hex number"
  | emptyCommand => "empty command"
  | oneRegisterExpected => "read takes one register number"

end PanelLink
