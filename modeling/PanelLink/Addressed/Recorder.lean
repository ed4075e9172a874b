/-
**A bus master that records its calls.**

* `Recorder.call`: one call, counted and logged, that fails when the bench's plan says so or the
  words do not fit the bus;
* `Recorder.master`: the recorder as a master, whose reads take their words from a queue.
-/

import PanelLink.Addressed.Master
import PanelLink.Bench

namespace PanelLink.Addressed

structure Recorder where
  addressWidth : Nat
  dataWidth : Nat
  readable : Bool
  writable : Bool
  deriving DecidableEq, Repr

namespace Recorder

/-- Whether the words of a call fit the bus. -/
def fits (recorder : Recorder) : MasterCall → Bool
  | .latch _ => true
  | .write words => words.element == busElement recorder.dataWidth
  | .read element _ => element == busElement recorder.dataWidth

def call (recorder : Recorder) (call : MasterCall) : ExceptT MasterFailure BenchM Unit :=
  ExceptT.mk do
    let bench ← get
    let failed := !recorder.fits call || bench.masterFails bench.masterAttempts call
    set ({ bench with masterAttempts := bench.masterAttempts + 1 }.record (.master call failed))
    return if failed then .error .refused else .ok ()

/-- Reads words from the queue. -/
def read (recorder : Recorder) (element : Element) (count : Nat) :
    BenchM (Reading MasterFailure) := do
  match ← (recorder.call (.read element count)).run with
  | .error failure => return .failed failure
  | .ok () =>
    let queue := (← get).masterIncoming
    modify fun bench => { bench with masterIncoming := queue.drop count }
    return .complete (takeIncoming element count queue)

def master (recorder : Recorder) : Master BenchM where
  addressWidth := recorder.addressWidth
  dataWidth := recorder.dataWidth
  readable := recorder.readable
  writable := recorder.writable
  latchAddress := fun address => recorder.call (.latch address)
  write := fun words => recorder.call (.write words)
  read := recorder.read

end Recorder

end PanelLink.Addressed
