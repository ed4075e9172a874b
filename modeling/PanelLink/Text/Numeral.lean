/-
**Numerals of unsigned 32-bit numbers.**

* `readNumeral?`: one optional plus sign, then one or more digits of the radix, for a number below
  `2 ^ 32`;
* `fixedHex`: lower-case hexadecimal of a fixed number of digits;
* `shortHex`: lower-case hexadecimal without leading zeros.
-/

namespace PanelLink.Text

/-- One more than the largest number a numeral may denote. -/
def numeralLimit : Nat :=
  4294967296

/-- The value of an ASCII digit, letters of either case counting from ten. -/
def digitValue? (char : Char) : Option Nat :=
  if '0' ≤ char ∧ char ≤ '9' then some (char.toNat - 48)
  else if 'a' ≤ char ∧ char ≤ 'z' then some (char.toNat - 87)
  else if 'A' ≤ char ∧ char ≤ 'Z' then some (char.toNat - 55)
  else none

/-- The value of a character that is a digit of the radix. -/
def digitOf? (radix : Nat) (char : Char) : Option Nat :=
  (digitValue? char).filter (· < radix)

/-- Appends digits to a number read so far, as long as it stays below the limit. -/
def readDigits? (radix : Nat) (number : Nat) : List Char → Option Nat
  | [] => some number
  | char :: rest => do
    let digit ← digitOf? radix char
    let next := number * radix + digit
    if next < numeralLimit then readDigits? radix next rest else none

/-- The number that a numeral denotes; a leading plus sign is allowed, no digit at all is not. -/
def readNumeral? (radix : Nat) : List Char → Option Nat
  | [] => none
  | ['+'] => none
  | '+' :: rest => readDigits? radix 0 rest
  | chars => readDigits? radix 0 chars

def readDecimal? (chars : List Char) : Option Nat :=
  readNumeral? 10 chars

/-- The number that a hexadecimal numeral without marker denotes. -/
def readHexadecimal? (chars : List Char) : Option Nat :=
  readNumeral? 16 chars

/-- The last `digits` hexadecimal digits of a number, most significant first. -/
def fixedHex : Nat → Nat → List Char
  | 0, _ => []
  | digits + 1, number => Nat.digitChar (number >>> (4 * digits) % 16) :: fixedHex digits number

/-- The hexadecimal digits of a number, without leading zeros. -/
def shortHex (number : Nat) : List Char :=
  Nat.toDigits 16 number

end PanelLink.Text
