/-
**The devices on an addressed bus.**

The bus has eight slots. A device keeps its slot until it leaves, and the lowest free slot is the
next to be taken.

* `Registry.enlist`: refuses windows that are malformed, in use or one too many;
* `Registry.release`: frees a slot;
* `Registry.window?`: the window in a slot.
-/

import PanelLink.Addressed.Window

namespace PanelLink.Addressed

def maxDevices : Nat :=
  8

/-- The slots that were ever taken, each with the window of its device. -/
structure Registry where
  /-- The slots in order; one without a window is free. -/
  slots : List (Option Window) := []
  deriving DecidableEq, Repr

namespace Registry

def windows (registry : Registry) : List Window :=
  registry.slots.filterMap id

/-- The window in a slot, if a device is there. -/
def window? (registry : Registry) (slot : Nat) : Option Window :=
  registry.slots[slot]?.join

/-- The slot that the next device takes: the lowest free one, else one more if there is room. -/
def nextSlot? (registry : Registry) : Option Nat :=
  match registry.slots.findIdx? Option.isNone with
  | some slot => some slot
  | none => if registry.slots.length < maxDevices then some registry.slots.length else none

/-- The registry with a window in a slot that is the next one. -/
def place (registry : Registry) (slot : Nat) (window : Window) : Registry where
  slots :=
    if slot < registry.slots.length then registry.slots.set slot (some window)
    else registry.slots ++ [some window]

/-- The registry with one more device, and the slot of the device. -/
def enlist (registry : Registry) (address size addressWidth : Nat) :
    Except BusError (Registry × Nat) := do
  let window ← Window.create address size addressWidth
  if registry.windows.any fun present => present.overlaps window then
    throw (.addressConflict address)
  match registry.nextSlot? with
  | some slot => return (registry.place slot window, slot)
  | none => throw .registryFull

/-- The registry without the device in a slot, and the window that it had. -/
def release (registry : Registry) (slot : Nat) : Except BusError (Registry × Window) :=
  match registry.window? slot with
  | some window => .ok ({ slots := registry.slots.set slot none }, window)
  | none => .error .noSuchDevice

end Registry

end PanelLink.Addressed
