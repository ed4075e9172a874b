/-
**A bus master made of signal lines.**

Address lines, data lines that are turned around between writing and reading, and a write strobe, a
read strobe or both. The master remembers what its lines show, and drives them only when that
changes.

* `LineMaster.create`: refuses wiring that no bus could have;
* `LineMaster.latchAddress`, `LineMaster.write`, `LineMaster.read`: the operations;
* `LineMaster.master`: the lines as a master.
-/

import PanelLink.Addressed.Master
import PanelLink.Bench.DataBus

namespace PanelLink.Addressed

/-- The most address lines, and the most data lines, that a bus may have. -/
def maxBusWidth : Nat :=
  32

structure LineMaster where
  addressLines : Nat
  dataLines : Nat
  hasWriteStrobe : Bool
  hasReadStrobe : Bool
  deriving DecidableEq, Repr

/-- What a master remembers of its lines. -/
structure LineMemory where
  /-- The address that the address lines show, unless it is unknown. -/
  address : Option Nat := none
  /-- The word that the data lines show, unless it is unknown. -/
  word : Option Nat := none
  /-- The direction in which the data lines were last switched. -/
  direction : Direction := .unset
  deriving DecidableEq, Repr

namespace LineMaster

abbrev ActionM := StateT LineMemory BenchM

/-- The master over numbers of lines, unless they are too many, too few or without a strobe. -/
def create (addressLines dataLines : Nat) (hasWriteStrobe hasReadStrobe : Bool) :
    Except BusError LineMaster :=
  if maxBusWidth < addressLines then .error (.invalidConfig .tooManyAddressLines)
  else if maxBusWidth < dataLines then .error (.invalidConfig .tooManyDataLines)
  else if dataLines = 0 then .error (.invalidConfig .noDataLines)
  else if !hasWriteStrobe && !hasReadStrobe then .error (.invalidConfig .noStrobe)
  else .ok { addressLines, dataLines, hasWriteStrobe, hasReadStrobe }

/-- A use of lines as part of an operation. -/
def useLines {α : Type} (action : LineM α) : ExceptT MasterFailure ActionM α :=
  ExceptT.mk (action.adapt fun _ => MasterFailure.line).run

def checkElement (master : LineMaster) (element : Element) :
    ExceptT MasterFailure ActionM Unit :=
  if element = busElement master.dataLines then pure () else throw .widthMismatch

/-- Switches the data lines; the word they show is unknown once they were switched. -/
def turnData (master : LineMaster) (direction : Direction) :
    ExceptT MasterFailure ActionM Unit := do
  let memory ← get
  let (cached, switched) ←
    (switchLines master.dataLines memory.direction direction : BenchM _)
  match switched with
  | .ok false => pure ()
  | .ok true => set { memory with word := none, direction := cached }
  | .error _ =>
    set { memory with direction := cached }
    throw .directionSwitch

/-- Puts an address on the address lines, unless they show it already. -/
def latchAddress (master : LineMaster) (address : Nat) : ExceptT MasterFailure ActionM Unit := do
  if (← get).address ≠ some address then
    modify fun memory => { memory with address := none }
    useLines (driveLines .address master.addressLines address)
    modify fun memory => { memory with address := some address }

/-- Puts a word on the data lines, unless they show it already. -/
def driveWord (master : LineMaster) (word : Nat) : ExceptT MasterFailure ActionM Unit := do
  if (← get).word ≠ some word then
    modify fun memory => { memory with word := none }
    useLines (driveLines .data master.dataLines word)
    modify fun memory => { memory with word := some word }

/-- Writes one word between the edges of the write strobe. -/
def writeWord (master : LineMaster) (word : Nat) : ExceptT MasterFailure ActionM Unit := do
  useLines (setLine .writeStrobe false)
  master.driveWord word
  useLines (setLine .writeStrobe true)

/-- Writes words. The first word is always driven. -/
def write (master : LineMaster) (words : Words) : ExceptT MasterFailure ActionM Unit := do
  if !master.hasWriteStrobe then
    throw .notWritable
  master.checkElement words.element
  master.turnData .output
  modify fun memory => { memory with word := none }
  words.values.forM master.writeWord

/-- Reads one word between the edges of the read strobe. -/
def readWord (master : LineMaster) : ExceptT MasterFailure ActionM Nat := do
  useLines (setLine .readStrobe false)
  let word ← useLines (sampleLines master.dataLines)
  useLines (setLine .readStrobe true)
  return word

/-- Reads words one after the other. -/
def readWords (master : LineMaster) : Nat → ActionM (Reading MasterFailure)
  | 0 => return .complete []
  | count + 1 => do
    match ← master.readWord.run with
    | .error failure => return .failed failure
    | .ok word => return (← master.readWords count).after [word]

/-- Reads words; the data lines stay inputs. -/
def read (master : LineMaster) (element : Element) (count : Nat) :
    ActionM (Reading MasterFailure) := do
  let prepare : ExceptT MasterFailure ActionM Unit := do
    if !master.hasReadStrobe then
      throw .notReadable
    master.checkElement element
    master.turnData .input
  match ← prepare.run with
  | .error failure => return .failed failure
  | .ok () => master.readWords count

def master (lines : LineMaster) : Master ActionM where
  addressWidth := lines.addressLines
  dataWidth := lines.dataLines
  readable := lines.hasReadStrobe
  writable := lines.hasWriteStrobe
  latchAddress := lines.latchAddress
  write := lines.write
  read := lines.read

end LineMaster

end PanelLink.Addressed
