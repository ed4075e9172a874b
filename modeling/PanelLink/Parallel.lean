/-
**Register access over parallel lines.**

Up to 24 data lines, a write strobe and a selector line, and if wired a read strobe, a chip select
and a reset line. A word is latched by a pulse of the write strobe, and only the data lines that
differ from the word before are driven.

* `Link.latchWord`: one bus word, latched;
* `Link.whileSelected`: a phase between the two edges of the chip select, released on every path;
* `Link.write` and `Link.read`: one access;
* `Link.channel`: the link as a register channel.
-/

import PanelLink.Bench.DataBus
import PanelLink.Piece

namespace PanelLink.Parallel

/-- The most data lines that a link may have. -/
def maxLines : Nat :=
  24

structure Link where
  lines : Nat
  hasReadStrobe : Bool
  hasChipSelect : Bool
  reset : Connection
  deriving DecidableEq, Repr

/-- What a link remembers of its data lines. -/
structure Memory where
  /-- The last word that was driven since the lines were switched, if any. -/
  word : Option Nat := none
  /-- The direction in which the lines were last switched. -/
  direction : Direction := .unset
  deriving DecidableEq, Repr

abbrev LinkM := StateT Memory BenchM

namespace Link

/-- The link over a number of data lines, unless there are too many or none. -/
def create (lines : Nat) (hasReadStrobe hasChipSelect : Bool) (reset : Connection) :
    Except Misuse Link :=
  if maxLines < lines then .error .tooManyParallelLines
  else if lines = 0 then .error .noParallelLines
  else .ok { lines, hasReadStrobe, hasChipSelect, reset }

/-- A use of lines as part of an access. -/
def useLines {α : Type} (action : LineM α) : ExceptT AccessError LinkM α :=
  ExceptT.mk (onLines action).run

/-- Switches the data lines; the word driven before is forgotten once any of them was touched. -/
def turnData (link : Link) (direction : Direction) : ExceptT AccessError LinkM Unit := do
  let memory ← get
  let (cached, switched) ← (switchLines link.lines memory.direction direction : BenchM _)
  match switched with
  | .ok false => pure ()
  | .ok true => set { memory with word := none, direction := cached }
  | .error _ =>
    set { memory with word := none, direction := cached }
    throw (.linkFailed .directionSwitch)

/-- Sets the data lines at which a word differs from the word before, all of them if there is
none. -/
def driveChanged (link : Link) (before : Option Nat) (word : Nat) : LineM Unit :=
  (List.range link.lines).forM fun bit =>
    if before.all fun shown => wordBit shown bit != wordBit word bit then
      setLine (.data bit) (wordBit word bit)
    else pure ()

def latchWord (link : Link) (word : Nat) : ExceptT AccessError LinkM Unit := do
  useLines (setLine .writeStrobe false)
  useLines (link.driveChanged (← get).word word)
  modify fun memory => { memory with word := some word }
  useLines (setLine .writeStrobe true)

def readWord (link : Link) : ExceptT AccessError LinkM Nat := do
  useLines (setLine .readStrobe false)
  let word ← useLines (sampleLines link.lines)
  useLines (setLine .readStrobe true)
  return word

/-- Puts the chip select, which is active low, to a state, if there is one. -/
def driveChipSelect (link : Link) (active : Bool) : ExceptT AccessError LinkM Unit :=
  if link.hasChipSelect then useLines (setLine .chipSelect (!active)) else pure ()

/-- Runs a phase with the chip selected and the selector on its line. The chip is released on every
path, and an error of the phase stands before one of the release. -/
def whileSelected (link : Link) (selector : Selector) (body : LinkM (Reading AccessError)) :
    LinkM (Reading AccessError) := do
  match ← (link.driveChipSelect true).run with
  | .error error => return .failed error
  | .ok () =>
    let reading ← match ← (useLines (setLine .selector selector.isData)).run with
      | .ok () => body
      | .error error => pure (.failed error)
    let released ← (link.driveChipSelect false).run
    return reading.followedBy released

def sendPhase (link : Link) (selector : Selector) (words : Words) (width : Width) :
    ExceptT AccessError LinkM Unit := do
  let count ← checked (piecesPerElement width link.lines)
  link.turnData .output
  let latchAll : ExceptT AccessError LinkM Unit :=
    (words.values.flatMap (piecesOf count link.lines)).forM link.latchWord
  let reading ← link.whileSelected selector do
    return { values := [], outcome := ← latchAll.run }
  ExceptT.mk (pure reading.outcome)

def selectRegister (link : Link) (context : Context) (register : Nat) :
    ExceptT AccessError LinkM Unit :=
  link.sendPhase .command (registerWord register context.width) context.width

def write (link : Link) (context : Context) (register : Nat) (request : Option WriteRequest) :
    ExceptT AccessError LinkM Unit := do
  link.selectRegister context register
  if let some present := WriteRequest.nonempty? request then
    link.sendPhase present.selector present.words (present.effectiveWidth context.width)

def readWords (link : Link) : Nat → ExceptT AccessError LinkM (List Nat)
  | 0 => return []
  | count + 1 => do
    let word ← link.readWord
    return word :: (← link.readWords count)

/-- Reads elements one after the other, each from its bus words. -/
def readElements (link : Link) (pieces : Nat) : Nat → LinkM (Reading AccessError)
  | 0 => return .complete []
  | count + 1 => do
    match ← (link.readWords pieces).run with
    | .error error => return .failed error
    | .ok words => return (← link.readElements pieces count).after [joinPieces link.lines words]

/-- Reads a register. Once the data lines are inputs they are switched back to outputs, whether or
not sampling succeeds. -/
def read (link : Link) (context : Context) (register : Nat) (request : ReadRequest) :
    LinkM (Reading AccessError) := do
  let prepare : ExceptT AccessError LinkM Nat := do
    if !link.hasReadStrobe then
      throw .notReadable
    let count ← checked (piecesPerElement (request.effectiveWidth context.width) link.lines)
    link.selectRegister context register
    link.turnData .input
    return count
  match ← prepare.run with
  | .error error => return .failed error
  | .ok pieces =>
    let reading ← link.whileSelected request.selector (link.readElements pieces request.count)
    return reading.followedBy (← (link.turnData .output).run)

def channel (link : Link) : Channel LinkM where
  readable := link.hasReadStrobe
  write := link.write
  read := link.read
  reset := ExceptT.mk (link.reset.pulse).run

end Link

end PanelLink.Parallel
