/-
**The bench: lines, an SPI controller and a bus master that record what is done to them.**

Every link acts on a bench and on nothing else. Failures are plans over the numbers of the
attempts, so that any access may fail and a later one work again.

* `setLine`, `sampleLine`, `turnLine`: the uses of a line; each counts as an attempt and is logged;
* `Bench.strobed`: a read strobe that goes low makes the panel present its next word;
* `exchange`: one SPI message, whose receiving stretches take their elements from one queue;
* `mapBuffer` and `unmapBuffer`: mapping a buffer for the controller and releasing it;
* `line_putLine`: storing a line changes that line and no other.
-/

import PanelLink.Access
import PanelLink.Bench.Event

namespace PanelLink

structure Bench where
  data : LineRow := []
  address : LineRow := []
  /-- The reset lines of the units on an addressed bus. -/
  unitResets : LineRow := []
  /-- The line that tells command from data. -/
  selector : Line := {}
  writeStrobe : Line := {}
  readStrobe : Line := {}
  chipSelect : Line := {}
  /-- The reset line of a link that serves one unit. -/
  reset : Line := {}
  /-- The word that the panel presents on the data lines. -/
  presented : Nat := 0
  /-- The words that the panel presents next, one for each read strobe. -/
  samples : List Nat := []
  /-- The elements that the SPI controller receives next. -/
  incoming : List Nat := []
  messageAttempts : Nat := 0
  messageFails : Nat → Bool := fun _ => false
  mappingAttempts : Nat := 0
  mappingFails : Nat → Bool := fun _ => false
  withoutMapping : Bool := false
  /-- The elements that the recording bus master reads next. -/
  masterIncoming : List Nat := []
  masterAttempts : Nat := 0
  masterFails : Nat → MasterCall → Bool := fun _ _ => false
  /-- Everything that happened, the latest first. -/
  log : List Event := []

namespace Bench

def line (bench : Bench) : LineName → Line
  | .data bit => bench.data.lineAt bit
  | .address bit => bench.address.lineAt bit
  | .selector => bench.selector
  | .writeStrobe => bench.writeStrobe
  | .readStrobe => bench.readStrobe
  | .chipSelect => bench.chipSelect
  | .reset => bench.reset
  | .unitReset unit => bench.unitResets.lineAt unit

/-- The bench with another line under a name. -/
def putLine (bench : Bench) (name : LineName) (line : Line) : Bench :=
  match name with
  | .data bit => { bench with data := bench.data.put bit line }
  | .address bit => { bench with address := bench.address.put bit line }
  | .selector => { bench with selector := line }
  | .writeStrobe => { bench with writeStrobe := line }
  | .readStrobe => { bench with readStrobe := line }
  | .chipSelect => { bench with chipSelect := line }
  | .reset => { bench with reset := line }
  | .unitReset unit => { bench with unitResets := bench.unitResets.put unit line }

/-- Storing a line changes that line and no other. -/
theorem line_putLine (bench : Bench) (name other : LineName) (line : Line) :
    (bench.putLine name line).line other = if other = name then line else bench.line other := by
  cases name <;> cases other <;> simp [putLine, Bench.line, LineRow.lineAt_put]

def record (bench : Bench) (event : Event) : Bench :=
  { bench with log := event :: bench.log }

/-- The bench after a line was set: a read strobe that goes low presents the next word. -/
def strobed (bench : Bench) (name : LineName) (level : Bool) : Bench :=
  match name, level, bench.samples with
  | .readStrobe, false, word :: later => { bench with presented := word, samples := later }
  | _, _, _ => bench

/-- The level seen on a data line: what the panel presents if the line is an input, else what the
line drives. -/
def levelSeen (bench : Bench) (bit : Nat) : Bool :=
  let line := bench.data.lineAt bit
  if line.direction = .input then wordBit bench.presented bit else line.level

/-- The messages transferred so far, the earliest first. -/
def messages (bench : Bench) : List (List Segment) :=
  bench.log.reverse.filterMap fun event =>
    match event with
    | .message segments => some segments
    | _ => none

/-- The pauses so far in milliseconds, the earliest first. -/
def pauses (bench : Bench) : List Nat :=
  bench.log.reverse.filterMap fun event =>
    match event with
    | .pause milliseconds => some milliseconds
    | _ => none

/-- The mappings made so far, the earliest first. -/
def mappings (bench : Bench) : List Handle :=
  bench.log.reverse.filterMap fun event =>
    match event with
    | .mapped _ handle => handle
    | _ => none

/-- The mappings released so far, the earliest first. -/
def unmappings (bench : Bench) : List Handle :=
  bench.log.reverse.filterMap fun event =>
    match event with
    | .unmapped handle => some handle
    | _ => none

/-- The calls that the recording bus master has carried out, the earliest first. -/
def masterCalls (bench : Bench) : List MasterCall :=
  bench.log.reverse.filterMap fun event =>
    match event with
    | .master call false => some call
    | _ => none

/-- The bench whose controller fails once, on the attempt that follows `count` messages in all. -/
def refuseMessage (bench : Bench) (count : Nat) : Bench :=
  let completed := bench.messages.length
  let attempt := bench.messageAttempts + (count - completed)
  { bench with messageFails := fun number => completed ≤ count && number == attempt }

/-- The bench whose controller fails the mapping attempt of a given number. -/
def refuseMapping (bench : Bench) (attempt : Nat) : Bench :=
  { bench with mappingFails := fun number => number == attempt }

/-- The bench whose recording master fails to latch one address. -/
def refuseAddress (bench : Bench) (address : Nat) : Bench :=
  { bench with masterFails := fun _ call => call == .latch address }

/-- The bench with every line of the given names working again. -/
def heal (bench : Bench) (names : List LineName) : Bench :=
  names.foldl (fun healed name => healed.putLine name (healed.line name).heal) bench

end Bench

inductive LineFailure where
  | refused
  deriving DecidableEq, Repr

inductive MessageFailure where
  | refused
  deriving DecidableEq, Repr

inductive MappingFailure where
  | unsupported
  | failed
  deriving DecidableEq, Repr

def MappingFailure.message : MappingFailure → String
  | unsupported => "DMA not supported"
  | failed => "DMA mapping failed"

abbrev BenchM := StateM Bench

abbrev LineM := ExceptT LineFailure BenchM

/-- One attempt to use a line, counted and logged, that fails unless the line does what is asked. -/
def attemptUse (name : LineName) (use : LineUse) : LineM Unit := ExceptT.mk do
  let bench ← get
  let line := bench.line name
  let outcome := line.outcomeOf use
  set ((bench.putLine name line.attempted).record (.line name use outcome))
  return if outcome = .done then .ok () else .error .refused

def setLine (name : LineName) (level : Bool) : LineM Unit := do
  attemptUse name (.set level)
  modify fun bench =>
    (bench.putLine name ((bench.line name).write level)).strobed name level

def sampleLine (bit : Nat) : LineM Bool := do
  attemptUse (.data bit) .sample
  return (← get).levelSeen bit

def turnLine (name : LineName) (direction : Direction) : LineM Unit := do
  attemptUse name (.turn direction)
  modify fun bench => bench.putLine name ((bench.line name).turn direction)

def pause (milliseconds : Nat) : BenchM Unit :=
  modify fun bench => bench.record (.pause milliseconds)

/-- The first elements of a queue truncated to a size, zeros standing in for missing ones. -/
def takeIncoming (element : Element) (count : Nat) (queue : List Nat) : List Nat :=
  (queue.take count ++ List.replicate (count - queue.length) 0).map element.truncate

/-- What the receiving stretches of a message take from the queue, and the queue that remains. -/
def receiveAll : List Segment → List Nat → List (List Nat) × List Nat
  | [], queue => ([], queue)
  | segment :: rest, queue =>
    match segment.payload with
    | .transmit _ => receiveAll rest queue
    | .receive element count =>
      let (later, remaining) := receiveAll rest (queue.drop count)
      (takeIncoming element count queue :: later, remaining)

/-- Transfers one message and returns what each receiving stretch received. -/
def exchange (segments : List Segment) : ExceptT MessageFailure BenchM (List (List Nat)) :=
  ExceptT.mk do
    let bench ← get
    let tried := { bench with messageAttempts := bench.messageAttempts + 1 }
    if bench.messageFails bench.messageAttempts then
      set (tried.record .messageFailed)
      return .error .refused
    else
      let (received, remaining) := receiveAll segments bench.incoming
      set ({ tried with incoming := remaining }.record (.message segments))
      return .ok received

/-- Maps a slice for a controller that gives out these handles. -/
def mapBuffer (handleOf : Slice → Handle) (slice : Slice) :
    ExceptT MappingFailure BenchM Handle := ExceptT.mk do
  let bench ← get
  if bench.withoutMapping then
    return .error .unsupported
  else
    let tried := { bench with mappingAttempts := bench.mappingAttempts + 1 }
    if bench.mappingFails bench.mappingAttempts then
      set (tried.record (.mapped slice none))
      return .error .failed
    else
      set (tried.record (.mapped slice (some (handleOf slice))))
      return .ok (handleOf slice)

def unmapBuffer (handle : Handle) : BenchM Unit :=
  modify fun bench => bench.record (.unmapped handle)

/-- A line action as part of an access. -/
def onLines {α : Type} (action : LineM α) : ExceptT AccessError BenchM α :=
  action.adapt fun _ => .linkFailed .gpio

/-- A connection of a link that may be wired or not. -/
inductive Connection where
  | absent
  | unconnected
  | line (name : LineName)
  deriving DecidableEq, Repr

namespace Connection

/-- Whether the link was given the connection, even if it leads to no line. -/
def given : Connection → Bool
  | absent => false
  | unconnected => true
  | line _ => true

def line? : Connection → Option LineName
  | absent => none
  | unconnected => none
  | line name => some name

/-- Sets the line of a connection, if it leads to one. -/
def drive (connection : Connection) (level : Bool) : ExceptT AccessError BenchM Unit :=
  match connection with
  | absent => pure ()
  | unconnected => pure ()
  | line name => onLines (setLine name level)

/-- Pulses a reset connection low for 20 ms and gives the controller 120 ms to settle. -/
def pulse (connection : Connection) : ExceptT AccessError BenchM Unit :=
  match connection with
  | absent => pure ()
  | wired => do
    wired.drive false
    pause 20
    wired.drive true
    pause 120

end Connection

end PanelLink
