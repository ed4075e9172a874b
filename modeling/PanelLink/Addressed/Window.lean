/-
**Windows of an address space.**

A device claims a naturally aligned window whose size is a power of two, or the whole space.

* `Window.create`: the window of an address and a size, or why there is none;
* `Window.overlaps`: two windows share an address exactly when each begins before the other ends;
* `BusError.message`: the wording of every failure on an addressed bus;
* `BusError.toAccess`: what such a failure means for a register access.
-/

import PanelLink.Access
import PanelLink.Text.Numeral

namespace PanelLink.Addressed

inductive BusError where
  | addressConflict (address : Nat)
  | invalidDevice (address size : Nat)
  | noSuchDevice
  | invalidAddress (address : Nat)
  | notReadable
  | notWritable
  | addressLatch
  | invalidConfig (misuse : Misuse)
  | registryFull
  | transferFailed
  deriving DecidableEq, Repr

/-- An address written in hexadecimal with its marker. -/
def addressText (address : Nat) : String :=
  "0x" ++ String.ofList (Text.shortHex address)

namespace BusError

def message : BusError → String
  | addressConflict address => "address " ++ addressText address ++ " already in use"
  | invalidDevice address size =>
    "invalid device address " ++ addressText address ++ " size " ++ addressText size
  | noSuchDevice => "no such device"
  | invalidAddress address => "address " ++ addressText address ++ " outside device window"
  | notReadable => "bus not readable"
  | notWritable => "bus not writable"
  | addressLatch => "address latch failed"
  | invalidConfig misuse => "invalid master configuration: " ++ misuse.message
  | registryFull => "device table full"
  | transferFailed => "bus transfer failed"

def toAccess : BusError → AccessError
  | addressConflict _ => .addressConflict
  | invalidDevice _ _ => .invalidArgument .malformedWindow
  | noSuchDevice => .invalidArgument .windowNotRegistered
  | invalidAddress _ => .invalidArgument .outsideWindow
  | notReadable => .notReadable
  | notWritable => .invalidArgument .busNotWritable
  | addressLatch => .linkFailed .addressLatch
  | invalidConfig misuse => .invalidArgument misuse
  | registryFull => .resourceExhausted
  | transferFailed => .linkFailed .bus

end BusError

/-- A window of a 32-bit address space. -/
structure Window where
  address : Nat
  /-- The bits in which addresses of the window may differ. -/
  mask : Nat
  deriving DecidableEq, Repr

namespace Window

/-- The mask of the window that is the whole space. -/
def fullMask : Nat :=
  4294967295

def isPowerOfTwo (number : Nat) : Bool :=
  number != 0 && number &&& (number - 1) == 0

/-- The mask of a window size; size 0 stands for the whole space. -/
def maskOf (size : Nat) : Nat :=
  if size = 0 then fullMask else size - 1

/-- The first address that an address bus of a given width cannot express. -/
def addressLimit (addressWidth : Nat) : Nat :=
  if addressWidth < 64 then 1 <<< addressWidth else 18446744073709551615

/-- The window of a size at an address on a bus with a number of address lines. -/
def create (address size addressWidth : Nat) : Except BusError Window :=
  let mask := maskOf size
  if size = 1 ∨ (size ≠ 0 ∧ !isPowerOfTwo size) then .error (.invalidDevice address size)
  else if mask ≠ fullMask ∧ address &&& mask ≠ 0 then .error (.invalidDevice address size)
  else if addressLimit addressWidth ≤ address then .error (.invalidDevice address size)
  else .ok { address, mask }

def last (window : Window) : Nat :=
  window.address ||| window.mask

def overlaps (window other : Window) : Bool :=
  window.address ≤ other.last && other.address ≤ window.last

/-- Whether an offset stays within the window. -/
def holdsOffset (window : Window) (offset : Nat) : Bool :=
  offset &&& (fullMask - window.mask) == 0

def latched (window : Window) (offset : Nat) : Nat :=
  window.address ||| offset

theorem overlaps_comm (window other : Window) : window.overlaps other = other.overlaps window := by
  simp only [overlaps, Bool.and_comm]

end Window

end PanelLink.Addressed
