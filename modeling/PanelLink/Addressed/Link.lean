/-
**Register access through a window of an addressed bus.**

Register numbers and command phases go to offset 0 of the window, data phases to offset 1. Each
access is one session, so no other device's words come between its phases.

* `Link.bind` and `Link.claim`: a link to a registered window, and one that registers its window;
* `sendPhase` and `receivePhase`: elements that fill a bus word go as they are, all others as pieces
  through a stage of 64 words;
* `Link.channel`: the link as a register channel.
-/

import PanelLink.Addressed.Master
import PanelLink.Bench
import PanelLink.Portions
import PanelLink.Piece

namespace PanelLink.Addressed

/-- Bus words that are staged for one call of the master. -/
def stageLength : Nat :=
  64

/-- The offset of a phase in the window. -/
def phaseOffset : Selector → Nat
  | .command => 0
  | .data => 1

/-- Whether elements go to the master as they are. -/
def goesAsIs (element : Element) (width : Width) (dataWidth : Nat) : Bool :=
  width.bits ≤ dataWidth && element == busElement dataWidth

section Phases

variable {m : Type → Type} [Monad m]

/-- A bus action as part of an access. -/
def onBus {α : Type} (action : ExceptT BusError m α) : ExceptT AccessError m α :=
  action.adapt BusError.toAccess

def sendPhase (session : Session m) (selector : Selector) (words : Words) (width : Width) :
    ExceptT AccessError m Unit := do
  let dataWidth := session.master.dataWidth
  let offset := phaseOffset selector
  if goesAsIs words.element width dataWidth then
    onBus (session.write offset words)
  else
    let count ← checked (piecesPerElement width dataWidth)
    let pieces := words.values.flatMap (piecesOf count dataWidth)
    (portions stageLength pieces).forM fun stage =>
      onBus (session.write offset (Words.ofList (busElement dataWidth) stage))

/-- The elements that a stage of bus words makes. -/
def joinStage (pieces dataWidth : Nat) (stage : List Nat) : List Nat :=
  (portions pieces stage).map (joinPieces dataWidth)

/-- The numbers of elements that are read stage by stage. -/
def stageCounts (perStage count : Nat) : List Nat :=
  (portions perStage (List.replicate count ())).map List.length

/-- Reads elements stage by stage; a stage that fails yields no elements. -/
def readStages (session : Session m) (offset pieces : Nat) : List Nat → m (Reading AccessError)
  | [] => return .complete []
  | count :: rest => do
    let dataWidth := session.master.dataWidth
    let stage ← session.read offset (busElement dataWidth) (count * pieces)
    match stage.outcome with
    | .error error => return .failed error.toAccess
    | .ok () =>
      return (← readStages session offset pieces rest).after
        (joinStage pieces dataWidth stage.values)

def receivePhase (session : Session m) (request : ReadRequest) (width : Width) :
    m (Reading AccessError) := do
  let dataWidth := session.master.dataWidth
  let offset := phaseOffset request.selector
  if goesAsIs request.element width dataWidth then
    return (← session.read offset request.element request.count).mapError BusError.toAccess
  match checked (piecesPerElement width dataWidth) with
  | .error error => return .failed error
  | .ok pieces =>
    readStages session offset pieces (stageCounts (max (stageLength / pieces) 1) request.count)

end Phases

abbrev RegistryT (m : Type → Type) := StateT Registry m

/-- A link to one panel controller in a window of an addressed bus. -/
structure Link where
  slot : Nat
  reset : Connection
  dataWidth : Nat
  readable : Bool
  deriving DecidableEq, Repr

namespace Link

section Binding

variable {m : Type → Type}

/-- A link to the device in a slot, on a bus that can write. -/
def bind (registry : Registry) (master : Master m) (slot : Nat) (reset : Connection) :
    Except AccessError Link :=
  if (registry.window? slot).isNone then .error BusError.noSuchDevice.toAccess
  else if !master.writable then .error (.invalidArgument .busNotWritable)
  else if master.dataWidth = 0 ∨ 32 < master.dataWidth then
    .error (.invalidArgument .dataWidthOutOfRange)
  else .ok { slot, reset, dataWidth := master.dataWidth, readable := master.readable }

/-- Registers a window and links to it; a window that cannot be linked to is freed again. -/
def claim (registry : Registry) (master : Master m) (address size : Nat) (reset : Connection) :
    Registry × Except AccessError Link :=
  match registry.enlist address size master.addressWidth with
  | .error error => (registry, .error error.toAccess)
  | .ok (registered, slot) =>
    match bind registered master slot reset with
    | .ok link => (registered, .ok link)
    | .error error =>
      match registered.release slot with
      | .ok (freed, _) => (freed, .error error)
      | .error _ => (registered, .error error)

end Binding

section Access

variable {m : Type → Type} [Monad m]

def openSession (link : Link) (master : Master m) :
    ExceptT AccessError (RegistryT m) (Session m) := do
  match (← get).openSession master link.slot with
  | .ok session => return session
  | .error error => throw error.toAccess

/-- Runs an action in a session and closes it on every path; an error of the action stands before
one of closing. -/
def inSession (link : Link) (master : Master m) (body : Session m → m (Reading AccessError)) :
    RegistryT m (Reading AccessError) := do
  match ← (link.openSession master).run with
  | .error error => return .failed error
  | .ok session =>
    let reading ← (body session : m _)
    let closed ← ((onBus session.close).run : m _)
    return reading.followedBy closed

def writePhases (session : Session m) (context : Context) (register : Nat)
    (request : Option WriteRequest) : ExceptT AccessError m Unit := do
  sendPhase session .command (registerWord register context.width) context.width
  if let some present := WriteRequest.nonempty? request then
    sendPhase session present.selector present.words (present.effectiveWidth context.width)

def write (link : Link) (master : Master m) (context : Context) (register : Nat)
    (request : Option WriteRequest) : ExceptT AccessError (RegistryT m) Unit := ExceptT.mk do
  let reading ← link.inSession master fun session => do
    let outcome ← (writePhases session context register request).run
    return { values := [], outcome }
  return reading.outcome

def read (link : Link) (master : Master m) (context : Context) (register : Nat)
    (request : ReadRequest) : RegistryT m (Reading AccessError) := do
  if !link.readable then
    return .failed .notReadable
  link.inSession master fun session => do
    match ← (writePhases session context register none).run with
    | .error error => return .failed error
    | .ok () => receivePhase session request (request.effectiveWidth context.width)

def channel [MonadLiftT BenchM m] (link : Link) (master : Master m) :
    Channel (RegistryT m) where
  readable := link.readable
  write := link.write master
  read := link.read master
  reset := ExceptT.mk (liftM (m := BenchM) link.reset.pulse.run)

end Access

end Link

end PanelLink.Addressed
