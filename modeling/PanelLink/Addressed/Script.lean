/-
**A list of operations in one session.**

A session ends by closing it, by letting it go, or with the scope that opened it.

* `Session.runAll`: operations in order, up to the first failure unless told to keep going;
* `scopedOutcome`: of two errors the one of the operations stands before the one of closing;
* `Registry.runScript`: a session opened, used and ended.
-/

import PanelLink.Addressed.Master

namespace PanelLink.Addressed

inductive SessionOp where
  | write (offset : Nat) (words : Words)
  | read (offset : Nat) (element : Element) (count : Nat)
  | inspect
  deriving DecidableEq, Repr

inductive Ending where
  | scoped
  | closed
  | dropped
  deriving DecidableEq, Repr

inductive ScriptResult where
  | unopened (error : BusError)
  | scoped (outcome : Except BusError Unit)
  | closed (operations closing : Except BusError Unit)
  | dropped (operations : Except BusError Unit)

/-- The outcome of a scope: an error of its operations, else one of closing. -/
def scopedOutcome (operations closing : Except BusError Unit) : Except BusError Unit :=
  match operations with
  | .ok () => closing
  | .error error => .error error

namespace Session

variable {m : Type → Type} [Monad m]

def run (session : Session m) : SessionOp → m (Reading BusError)
  | .write offset words => do return { values := [], outcome := ← (session.write offset words).run }
  | .read offset element count => session.read offset element count
  | .inspect => return .complete []

/-- Operations in order, each with what it obtained, and the error that stopped them. -/
def runAll (session : Session m) (keepGoing : Bool) :
    List SessionOp → m (List (Reading BusError) × Except BusError Unit)
  | [] => return ([], .ok ())
  | operation :: rest => do
    let reading ← session.run operation
    match reading.outcome, keepGoing with
    | .error error, false => return ([reading], .error error)
    | _, _ =>
      let (later, outcome) ← session.runAll keepGoing rest
      return (reading :: later, outcome)

end Session

/-- Opens a session, runs operations in it and ends it on every path. -/
def Registry.runScript {m : Type → Type} [Monad m] (registry : Registry) (master : Master m)
    (slot : Nat) (keepGoing : Bool) (ending : Ending) (operations : List SessionOp) :
    m (List (Reading BusError) × ScriptResult) := do
  match registry.openSession master slot with
  | .error error => return ([], .unopened error)
  | .ok session =>
    let (readings, outcome) ← session.runAll keepGoing operations
    let closing ← session.close.run
    return (readings, match ending with
      | .scoped => .scoped (scopedOutcome outcome closing)
      | .closed => .closed outcome closing
      | .dropped => .dropped outcome)

end PanelLink.Addressed
