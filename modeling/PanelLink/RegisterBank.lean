/-
**The register bank of a panel controller.**

The one handle that panel code talks to. It checks a request, settles the width at which elements
travel and hands the access to its channel, so a channel sees non-empty payloads whose element
size matches their width.

* `RegisterBank.create`: a bank over a channel, unless it is asked for reads that cannot happen;
* `RegisterBank.write` and `RegisterBank.read`: one access;
* `RegisterBank.writeNumbers` and `RegisterBank.readNumbers`: an access with plain numbers.
-/

import PanelLink.Access

namespace PanelLink

structure BankSettings where
  /-- The width of register numbers, and of elements unless a request says otherwise. -/
  width : Width := .bits8
  readable : Bool := false
  deviations : Deviations := ⟨0⟩
  deriving DecidableEq, Repr

structure RegisterBank (m : Type → Type) where
  channel : Channel m
  config : BankSettings

/-- The most numbers that one access with plain numbers takes. -/
def maxNumbers : Nat :=
  64

namespace RegisterBank

/-- A bank over a channel; a readable one needs wiring that reads. -/
def create {m : Type → Type} (channel : Channel m) (config : BankSettings) :
    Except Misuse (RegisterBank m) :=
  if config.readable && !channel.readable then .error .writeOnlyWiring
  else .ok { channel, config }

variable {m : Type → Type}

def context (bank : RegisterBank m) : Context where
  width := bank.config.width
  deviations := bank.config.deviations

def atWidth (bank : RegisterBank m) (width : Width) : RegisterBank m :=
  { bank with config := { bank.config with width } }

/-- The request with its width settled, or nothing if there is no payload. -/
def resolve (bank : RegisterBank m) (request : Option WriteRequest) :
    Except AccessError (Option WriteRequest) :=
  match WriteRequest.nonempty? request with
  | none => .ok none
  | some present =>
    let width := present.effectiveWidth bank.config.width
    if present.words.element = width.element then .ok (some { present with width := some width })
    else .error (.invalidArgument .elementMismatch)

variable [Monad m]

/-- Writes a register, with a payload or without. -/
def write (bank : RegisterBank m) (register : Nat) (request : Option WriteRequest) :
    ExceptT AccessError m Unit := do
  let resolved ← bank.resolve request
  bank.channel.write bank.context register resolved

/-- Reads elements of a register. -/
def read (bank : RegisterBank m) (register : Nat) (request : ReadRequest) :
    m (Reading AccessError) :=
  let width := request.effectiveWidth bank.config.width
  if !bank.config.readable then return .failed .notReadable
  else if request.count = 0 then return .failed (.invalidArgument .emptyRead)
  else if request.element ≠ width.element then return .failed (.invalidArgument .elementMismatch)
  else bank.channel.read bank.context register { request with width := some width }

/-- Writes numbers as data, each narrowed to bytes on a bank of at most 8 bits and to 16 bits on
any other. They are put together at a place in memory. -/
def writeNumbers (bank : RegisterBank m) (address register : Nat) (numbers : List Nat) :
    ExceptT AccessError m Unit := do
  if maxNumbers < numbers.length then
    throw .resourceExhausted
  let width := if bank.config.width.bits ≤ 8 then Width.bits8 else Width.bits16
  bank.write register
    (some { words := Words.ofList width.element numbers, width := some width, address })

/-- Reads numbers at the default width, each narrowed to an element of that width. Numbers of up to
16 bits are obtained all or none. -/
def readNumbers (bank : RegisterBank m) (register count : Nat) : m (Reading AccessError) := do
  if maxNumbers < count then
    return .failed .resourceExhausted
  let element := bank.config.width.element
  let selector := bank.config.deviations.readbackSelector
  let reading ← bank.read register { selector, element, count }
  match reading.outcome, element with
  | .error error, .byte => return .failed error
  | .error error, .half => return .failed error
  | _, _ => return { reading with values := reading.values.map element.truncate }

def reset (bank : RegisterBank m) : ExceptT AccessError m Unit :=
  bank.channel.reset

end RegisterBank

end PanelLink
