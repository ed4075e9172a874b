/-
**Register access over SPI.**

A write is one phase that selects the register and, if there is a payload, one phase that carries
it. A read selects the register and clocks the elements in on the slow clock.

* `Layout`: where the link has its buffers;
* `Link.create`: refuses wiring and limits that no access could use;
* `Link.sendPhase`: one phase, its selector carried in the way of the wire mode;
* `Link.write` and `Link.read`: one access;
* `Link.channel`: the link as a register channel.
-/

import PanelLink.Spi.Message

namespace PanelLink.Spi

/-- Where a link has its buffers. They are set up when they are first used and grow if they must, so
they may lie elsewhere in the second phase of an access than in the first. -/
structure Layout where
  /-- While a register is selected. -/
  selecting : Buffers
  /-- While a payload is sent. -/
  sending : Buffers
  deriving DecidableEq, Repr

/-- All buffers at the start of a page. -/
def Layout.paged : Layout :=
  ⟨⟨0, 0⟩, ⟨0, 0⟩⟩

structure Link where
  mode : Mode
  /-- The line that tells command from data. -/
  selectorLine : Connection
  reset : Connection
  config : Config
  /-- The word sizes that the controller clocks. -/
  mask : WordSizes
  clock : Nat
  canMap : Bool
  handleOf : Slice → Handle
  layout : Layout

namespace Link

/-- The link over a controller, unless the wiring or the limits cannot work. -/
def create (advertised : Advertised) (layout : Layout) (mode : Mode)
    (selectorLine reset : Connection) (config : Config) : Except Misuse Link :=
  let mask := config.resolveMask advertised.mask
  if mode = .fourWire ∧ selectorLine = .absent then .error .missingSelectorLine
  else if config.segmentLimit < 4 ∨ config.scratchLength < NineBit.groupBytes then
    .error .buffersTooSmall
  else if !mask.contains .bits8 then .error .noByteWords
  else .ok
    { mode, selectorLine, reset, config, mask
      clock := advertised.clock
      canMap := advertised.canMap
      handleOf := advertised.handleOf
      layout }

/-- What decides the blocks of a phase. -/
def encoder (link : Link) : Encoder where
  mask := link.mask
  scratchLength := link.config.scratchLength

/-- What decides where a block is cut. -/
def cutter (link : Link) : Cutter where
  segmentLimit := link.config.segmentLimit
  splitsAtPages := link.config.splitsAtPages

/-- Puts the selector on its line, if there is one. -/
def driveSelector (link : Link) (selector : Selector) : ExceptT AccessError BenchM Unit :=
  link.selectorLine.drive selector.isData

/-- The segment that opens every message of a phase, if the mode has one. -/
def opening (link : Link) (selector : Selector) (reading : Bool) (clock : Option Nat) :
    Option Segment :=
  link.mode.opening?.map fun layout =>
    { payload := .transmit (Words.ofList .byte [layout.value selector reading]), bits := 8, clock }

/-- Whether a block of a phase is mapped for the controller. -/
def mapsBlock (link : Link) (selector : Selector) (block : Block) : Bool :=
  selector.isData && link.config.mapsBuffers && link.canMap &&
    decide (link.config.mappingThreshold < block.words.byteLength)

def sendBlock (link : Link) (selector : Selector) (clock : Option Nat) (block : Block) :
    ExceptT AccessError BenchM Unit :=
  let opening := link.opening selector false clock
  (link.cutter.messages opening.isSome block).forM
    (sendMessage link.handleOf opening
      (fun words => { payload := .transmit words, bits := block.bits, clock })
      (link.mapsBlock selector block))

/-- Sends one phase. In 3-wire mode the words carry the selector and the line is left alone. -/
def sendPhase (link : Link) (selector : Selector) (clock : Option Nat) (words : Words)
    (width : Width) (places : Places) : ExceptT AccessError BenchM Unit := do
  if link.mode ≠ .threeWire then
    link.driveSelector selector
  let encoded ← link.encoder.phase link.mode selector words width places
  encoded.forM (link.sendBlock selector clock)

/-- Where a register number lies while it is sent. A single element is never cut, so its own place does
not matter. -/
def selectPlaces (link : Link) : Places :=
  { link.layout.selecting with payload := 0 }

def selectRegister (link : Link) (context : Context) (register : Nat) :
    ExceptT AccessError BenchM Unit :=
  link.sendPhase .command (context.writeClock .command link.clock)
    (registerWord register context.width) context.width link.selectPlaces

/-- Where a payload lies while it is sent. -/
def payloadPlaces (link : Link) (request : WriteRequest) : Places :=
  { link.layout.sending with payload := request.address }

def write (link : Link) (context : Context) (register : Nat) (request : Option WriteRequest) :
    ExceptT AccessError BenchM Unit := do
  link.selectRegister context register
  if let some present := WriteRequest.nonempty? request then
    link.sendPhase present.selector (context.writeClock present.selector link.clock) present.words
      (present.effectiveWidth context.width) (link.payloadPlaces present)

/-- The segment that selects a register for reading. Without native nine-bit words a 3-wire link
sends one padded group, whose last byte holds the register number. -/
def selectSegment (link : Link) (width : Width) (register : Nat) :
    Except AccessError Segment :=
  let bytes (values : List Nat) : Segment :=
    { payload := .transmit (Words.ofList .byte values), bits := 8 }
  let clock := some (slowClock link.clock)
  if link.mode = .threeWire then
    if link.mask.contains .bits9 then
      .ok { payload := .transmit (Words.ofList .half [register % 256]), bits := 9, clock }
    else .ok { bytes (List.replicate 8 0 ++ [register]) with clock }
  else match width with
    | .bits8 => .ok { bytes [register] with clock }
    | .bits16 =>
      if link.mask.contains .bits16 then
        .ok { payload := .transmit (Words.ofList .half [register]), bits := 16, clock }
      else .ok { bytes (bigEndian 2 register) with clock }
    | _ => .error (.invalidArgument .unreadableRegisterWidth)

/-- The elements of a request that bytes received in their place make. -/
def joinReceived (request : ReadRequest) (bytes : List Nat) : List Nat :=
  if request.element = .half then joinBytePairs.all bytes else []

/-- Transfers a message of a read and returns what its receiving segments received. -/
def exchangeRead (segments : List Segment) : ExceptT AccessError BenchM (List Nat) := do
  let received ← (exchange segments).adapt fun _ => AccessError.linkFailed .bus
  return received.flatten

/-- Reads elements that follow their register number directly. In the data phase the selector
changes between two messages; in the command phase one message holds both. -/
def readPlain (link : Link) (context : Context) (register : Nat) (request : ReadRequest) :
    ExceptT AccessError BenchM (List Nat) := do
  let width := request.effectiveWidth context.width
  if width ≠ context.width then
    throw (.invalidArgument .readWidthDiffers)
  if width ≠ .bits8 ∧ width ≠ .bits16 then
    throw (.invalidArgument .unreadableElements)
  let select ← link.selectSegment context.width register
  link.driveSelector .command
  let joined := width = .bits16 ∧ !link.mask.contains .bits16
  let receive : Segment :=
    if joined then
      { payload := .receive .byte (request.count * 2), bits := 8
        clock := some (slowClock link.clock) }
    else
      { payload := .receive request.element request.count, bits := width.bits
        clock := some (slowClock link.clock) }
  let received ← match request.selector with
    | .data => do
      let _ ← exchangeRead [{ select with changesSelect := true }]
      link.driveSelector .data
      exchangeRead [receive]
    | .command => exchangeRead [select, receive]
  return if joined then joinReceived request received else received

/-- Reads 16-bit elements in a message of their own, which opens with a byte and answers with a
dummy byte first. -/
def readOpened (link : Link) (layout : OpeningByte) (context : Context) (register : Nat)
    (request : ReadRequest) : ExceptT AccessError BenchM (List Nat) := do
  if request.effectiveWidth context.width ≠ .bits16 then
    throw (.invalidArgument .startByteReadWidth)
  if request.element ≠ .half then
    throw (.invalidArgument .elementMismatch)
  link.selectRegister context register
  let clock := some (slowClock link.clock)
  let received ← exchangeRead
    [{ payload := .transmit (Words.ofList .byte [layout.value request.selector true]), bits := 8
       clock },
     { payload := .receive .byte (request.count * 2 + 1), bits := 8, clock }]
  return joinBytePairs.all (received.drop 1)

/-- Reads a register; a read that fails obtains nothing. -/
def read (link : Link) (context : Context) (register : Nat) (request : ReadRequest) :
    BenchM (Reading AccessError) := do
  let obtained ← match link.mode with
    | .opened layout => (link.readOpened layout context register request).run
    | _ => (link.readPlain context register request).run
  return match obtained with
    | .ok values => .complete values
    | .error error => .failed error

/-- The link as a register channel; its wiring always allows reading. -/
def channel (link : Link) : Channel BenchM where
  readable := true
  write := link.write
  read := link.read
  reset := link.reset.pulse

end Link

end PanelLink.Spi
