/-
**The master of an addressed bus.**

A master latches an address and moves words at it. Every kind of master offers the same record of
operations.

* `busElement`: the memory size of a word on a bus of a given width;
* `Master`: the operations;
* `Session`: access to one device's window, which ends by latching address 0.
-/

import PanelLink.Addressed.Registry

namespace PanelLink.Addressed

inductive MasterFailure where
  | directionSwitch
  | line
  | widthMismatch
  | notWritable
  | notReadable
  | refused
  deriving DecidableEq, Repr

/-- The memory size of a word on a bus with a number of data lines. -/
def busElement (dataWidth : Nat) : Element :=
  if 16 < dataWidth then .word else if 8 < dataWidth then .half else .byte

structure Master (m : Type → Type) where
  addressWidth : Nat
  dataWidth : Nat
  readable : Bool
  writable : Bool
  latchAddress : Nat → ExceptT MasterFailure m Unit
  write : Words → ExceptT MasterFailure m Unit
  /-- Reads a number of words of a size at the latched address. -/
  read : Element → Nat → m (Reading MasterFailure)

/-- Access to the window of one device. -/
structure Session (m : Type → Type) where
  master : Master m
  window : Window

namespace Session

variable {m : Type → Type} [Monad m]

/-- Latches the address of an offset in the window. -/
def latchOffset (session : Session m) (offset : Nat) : ExceptT BusError m Unit := do
  if !session.window.holdsOffset offset then
    throw (.invalidAddress offset)
  (session.master.latchAddress (session.window.latched offset)).adapt fun _ => .addressLatch

def write (session : Session m) (offset : Nat) (words : Words) : ExceptT BusError m Unit := do
  if !session.master.writable then
    throw .notWritable
  session.latchOffset offset
  (session.master.write words).adapt fun _ => .transferFailed

def read (session : Session m) (offset : Nat) (element : Element) (count : Nat) :
    m (Reading BusError) := do
  if !session.master.readable then
    return .failed .notReadable
  match ← (session.latchOffset offset).run with
  | .error error => return .failed error
  | .ok () =>
    let reading ← session.master.read element count
    return reading.mapError fun _ => .transferFailed

/-- Ends the session by latching address 0. -/
def close (session : Session m) : ExceptT BusError m Unit :=
  (session.master.latchAddress 0).adapt fun _ => .addressLatch

end Session

def Registry.openSession {m : Type → Type} (registry : Registry) (master : Master m) (slot : Nat) :
    Except BusError (Session m) :=
  match registry.window? slot with
  | some window => .ok { master, window }
  | none => .error .noSuchDevice

end PanelLink.Addressed
