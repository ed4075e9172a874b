/-
**Register access by lines of text.**

A line holds hexadecimal numbers apart by white space, the register number first. Each number may
be marked with `0x` or `0X`.

* `Console.parseLine`: the numbers of a line, 1 to 128 of them;
* `Console.writeLine`: a line as a write of the numbers after the first;
* `Console.readLine`: a line as a read of one element, whose digits become the result;
* `Console.resultText`: all the digits of the element size and a line feed, and
  `Console.formatResult`: that text, as long as there is room for it.
-/

import PanelLink.Bench.Event
import PanelLink.RegisterBank
import PanelLink.Text.Blank

namespace PanelLink

structure Console where
  /-- The width at which registers are read, if it is not the bank's. -/
  readWidth : Option Width := none
  /-- The text of the last read, unless it failed or there was none. -/
  result : Option String := none
  deriving DecidableEq, Repr

namespace Console

def maxNumbersPerLine : Nat :=
  128

/-- A number without its marker. -/
def unmarked : List Char → List Char
  | '0' :: 'x' :: digits => digits
  | '0' :: 'X' :: digits => digits
  | digits => digits

def parseToken (token : List Char) : Except AccessError Nat :=
  match Text.readHexadecimal? (unmarked token) with
  | some number => .ok number
  | none => .error (.invalidArgument .notHexadecimal)

/-- The numbers of tokens, with room for so many more. -/
def numbersOfTokens : Nat → List (List Char) → Except AccessError (List Nat)
  | _, [] => .ok []
  | room, token :: rest => do
    let number ← parseToken token
    match room with
    | 0 => .error .resourceExhausted
    | room + 1 => return number :: (← numbersOfTokens room rest)

/-- The register number of a line and the numbers after it. -/
def parseLine (line : String) : Except AccessError (Nat × List Nat) := do
  match ← numbersOfTokens maxNumbersPerLine (Text.tokens line.toList) with
  | [] => .error (.invalidArgument .emptyCommand)
  | register :: numbers => return (register, numbers)

def resultText (width : Width) (value : Nat) : String :=
  width.element.hex value ++ "\n"

/-- The bytes that a result has room for. -/
def resultRoom : Nat :=
  12

/-- The text of a value read, if there is room for it. -/
def formatResult (width : Width) (value : Nat) : Except AccessError String :=
  let text := resultText width value
  if text.utf8ByteSize ≤ resultRoom then .ok text else .error .resourceExhausted

section Commands

variable {m : Type → Type} [Monad m]

/-- Writes the numbers of a line, each narrowed to the element size of the bank. They are put together
at a place in memory. -/
def writeLine (bank : RegisterBank m) (address : Nat) (line : String) :
    ExceptT AccessError m Unit := do
  let (register, numbers) ← parseLine line
  match numbers with
  | [] => bank.write register none
  | numbers =>
    bank.write register
      (some { words := Words.ofList bank.config.width.element numbers, address })

/-- Reads the register of a line and returns the console afterwards. A line that is no read command
leaves the result as it was, and a read that fails leaves none. -/
def readLine (console : Console) (bank : RegisterBank m) (line : String) :
    m (Console × Except AccessError Unit) := do
  match parseLine line with
  | .error error => return (console, .error error)
  | .ok (_, _ :: _) => return (console, .error (.invalidArgument .oneRegisterExpected))
  | .ok (register, []) =>
    let width := console.readWidth.getD bank.config.width
    let selector := bank.config.deviations.readbackSelector
    let reading ← bank.read register
      { selector, element := width.element, count := 1, width := some width }
    let text := do
      reading.outcome
      formatResult width (width.element.truncate (reading.values.headD 0))
    return ({ console with result := text.toOption }, text.map fun _ => ())

end Commands

end Console

end PanelLink
