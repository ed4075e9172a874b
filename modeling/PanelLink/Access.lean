/-
**One access to a register of a panel controller.**

An access selects a register and then moves a run of elements, or none. Links of every kind offer
the same `Channel`, so that the register bank does not know which one carries it.

* `AccessError`: why an access failed, and `AccessError.message` its wording;
* `WriteRequest` and `ReadRequest`: the data phase of a write and of a read;
* `Reading`: the elements that a read obtained before it ended, and how it ended;
* `Context`: what a link is told about the controller at the other end;
* `Channel`: writing, reading and resetting through a link.
-/

import PanelLink.Misuse
import PanelLink.Width

namespace PanelLink

inductive LinkFault where
  | bus
  | dmaMapping
  | gpio
  | directionSwitch
  | addressLatch
  deriving DecidableEq, Repr

def LinkFault.text : LinkFault → String
  | bus => "bus transfer"
  | dmaMapping => "DMA mapping"
  | gpio => "GPIO access"
  | directionSwitch => "direction switch"
  | addressLatch => "address latch"

/-- Why an access failed. -/
inductive AccessError where
  | invalidArgument (misuse : Misuse)
  | notReadable
  | linkFailed (fault : LinkFault)
  | resourceExhausted
  | addressConflict
  deriving DecidableEq, Repr

def AccessError.message : AccessError → String
  | invalidArgument misuse => "invalid argument: " ++ misuse.message
  | notReadable => "device is not readable"
  | linkFailed fault => fault.text ++ " failed"
  | resourceExhausted => "out of memory"
  | addressConflict => "address conflict"

/-- A checked argument as part of an access. -/
def checked {α : Type} (argument : Except Misuse α) : Except AccessError α :=
  argument.mapError .invalidArgument

/-- Whether elements of a memory size can travel at a width. -/
def Width.requireBytes (width : Width) (bytes : Nat) : Except Misuse Unit :=
  if bytes = width.element.bytes then .ok () else .error .elementMismatch

/-- The first length that no buffer can have, in bytes. -/
def bufferLimit : Nat :=
  9223372036854775808

structure WriteRequest where
  selector : Selector := .data
  words : Words
  /-- The width at which each element travels, if it is not the default. -/
  width : Option Width := none
  /-- Where the payload begins in memory. -/
  address : Nat
  deriving DecidableEq, Repr

namespace WriteRequest

def effectiveWidth (request : WriteRequest) (default : Width) : Width :=
  request.width.getD default

def nonempty? (request : Option WriteRequest) : Option WriteRequest :=
  request.filter fun present => !present.words.isEmpty

end WriteRequest

structure ReadRequest where
  selector : Selector := .data
  element : Element
  count : Nat
  /-- The width at which each element travels, if it is not the default. -/
  width : Option Width := none
  deriving DecidableEq, Repr

def ReadRequest.effectiveWidth (request : ReadRequest) (default : Width) : Width :=
  request.width.getD default

/-- What a read obtained: the first elements, and whether that is all or an error cut it short. -/
structure Reading (ε : Type) where
  values : List Nat
  outcome : Except ε Unit
  deriving Repr

namespace Reading

variable {ε : Type}

def failed (error : ε) : Reading ε where
  values := []
  outcome := .error error

def complete (values : List Nat) : Reading ε where
  values := values
  outcome := .ok ()

/-- The read followed by a step that moves no elements; of two errors the earlier one stands. -/
def followedBy (reading : Reading ε) (next : Except ε Unit) : Reading ε where
  values := reading.values
  outcome := match reading.outcome with
    | .ok () => next
    | .error error => .error error

/-- The read with elements obtained before it. -/
def after (values : List Nat) (reading : Reading ε) : Reading ε where
  values := values ++ reading.values
  outcome := reading.outcome

def mapError {ε' : Type} (restate : ε → ε') (reading : Reading ε) : Reading ε' where
  values := reading.values
  outcome := reading.outcome.mapError restate

end Reading

/-- Ways in which a controller departs from the common register protocol, one bit for each. -/
structure Deviations where
  /-- The bits; those past the known ones are kept and mean nothing. -/
  raw : Nat
  deriving DecidableEq, Repr

namespace Deviations

/-- Whether command phases must be written on a slow clock. -/
def slowCommands (deviations : Deviations) : Bool :=
  deviations.raw.testBit 0

/-- Whether registers are read back in the command phase. -/
def readsInCommandPhase (deviations : Deviations) : Bool :=
  deviations.raw.testBit 1

/-- The phase in which registers are read back. -/
def readbackSelector (deviations : Deviations) : Selector :=
  if deviations.readsInCommandPhase then .command else .data

def known (deviations : Deviations) : Nat :=
  deviations.raw % 4

end Deviations

/-- What a link is told about the controller at its other end. -/
structure Context where
  /-- The width of register numbers, and of elements unless a request says otherwise. -/
  width : Width
  deviations : Deviations
  deriving DecidableEq, Repr

/-- The slow clock of a controller: half of its fastest, and at most 2 MHz. -/
def slowClock (fastest : Nat) : Nat :=
  min 2000000 (fastest / 2)

/-- The clock at which a phase is written, if it is not the controller's own. -/
def Context.writeClock (context : Context) (selector : Selector) (fastest : Nat) : Option Nat :=
  if selector = .command ∧ context.deviations.slowCommands then some (slowClock fastest) else none

/-- A register number as the one element that selects it, narrowed to the register width. -/
def registerWord (register : Nat) (width : Width) : Words :=
  Words.ofList width.element [register]

structure Channel (m : Type → Type) where
  readable : Bool
  /-- Selects a register and sends the payload, if there is one. -/
  write : Context → Nat → Option WriteRequest → ExceptT AccessError m Unit
  read : Context → Nat → ReadRequest → m (Reading AccessError)
  reset : ExceptT AccessError m Unit

end PanelLink
