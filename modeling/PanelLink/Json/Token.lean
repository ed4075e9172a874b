/-
**The tokens of a JSON text.**

* `Token`: punctuation, literals, numbers and strings;
* `tokenize?`: the tokens of a text, or nothing if some part of it is no token.

A number keeps its value only if it is written as a plain unsigned integer. A string keeps its
characters only if its escapes stand for characters, which the two halves of a surrogate pair do
together and neither does alone.
-/

namespace PanelLink.Json

inductive Token where
  | openBrace
  | closeBrace
  | openBracket
  | closeBracket
  | colon
  | comma
  | null
  | boolean (value : Bool)
  | number (value : Option Nat)
  | text (value : Option String)
  deriving DecidableEq, Repr

/-- Whether a character may stand between tokens. -/
def isSpace (char : Char) : Bool :=
  char == ' ' || char == '\t' || char == '\n' || char == '\r'

def hexDigit? (char : Char) : Option Nat :=
  if '0' ≤ char ∧ char ≤ '9' then some (char.toNat - 48)
  else if 'a' ≤ char ∧ char ≤ 'f' then some (char.toNat - 87)
  else if 'A' ≤ char ∧ char ≤ 'F' then some (char.toNat - 55)
  else none

/-- The number of four hexadecimal digits. -/
def hexUnit? (first second third fourth : Char) : Option Nat := do
  return (((← hexDigit? first) * 16 + (← hexDigit? second)) * 16 + (← hexDigit? third)) * 16 +
    (← hexDigit? fourth)

def shortEscape? (char : Char) : Option Char :=
  match char with
  | '"' => some '"'
  | '\\' => some '\\'
  | '/' => some '/'
  | 'b' => some '\x08'
  | 'f' => some '\x0c'
  | 'n' => some '\n'
  | 'r' => some '\r'
  | 't' => some '\t'
  | _ => none

/-- A unit of a string: a character written or escaped, or a 16-bit unit escaped by its number. -/
inductive Unit16 where
  | char (value : Char)
  | code (value : Nat)
  deriving DecidableEq, Repr

/-- The units of a string after its opening quote, and what follows its closing quote. -/
def stringUnits? : List Char → Option (List Unit16 × List Char)
  | [] => none
  | '"' :: rest => some ([], rest)
  | '\\' :: 'u' :: first :: second :: third :: fourth :: rest => do
    let code ← hexUnit? first second third fourth
    let (later, remaining) ← stringUnits? rest
    return (.code code :: later, remaining)
  | '\\' :: escaped :: rest => do
    let char ← shortEscape? escaped
    let (later, remaining) ← stringUnits? rest
    return (.char char :: later, remaining)
  | char :: rest => do
    if char.toNat < 32 then none
    else
      let (later, remaining) ← stringUnits? rest
      return (.char char :: later, remaining)

/-- The characters of the units, if every surrogate is half of a pair. -/
def charsOfUnits? : List Unit16 → Option (List Char)
  | [] => some []
  | .char char :: rest => do return char :: (← charsOfUnits? rest)
  | .code high :: .code low :: rest =>
    if 0xD800 ≤ high ∧ high < 0xDC00 then
      if 0xDC00 ≤ low ∧ low < 0xE000 then do
        return Char.ofNat (0x10000 + (high - 0xD800) * 0x400 + (low - 0xDC00)) ::
          (← charsOfUnits? rest)
      else none
    else if 0xDC00 ≤ high ∧ high < 0xE000 then none
    else do return Char.ofNat high :: (← charsOfUnits? (.code low :: rest))
  | .code code :: rest =>
    if 0xD800 ≤ code ∧ code < 0xE000 then none
    else do return Char.ofNat code :: (← charsOfUnits? rest)

/-- The leading digits of a text, and what follows them. -/
def digits (chars : List Char) : List Char × List Char :=
  chars.span Char.isDigit

/-- What follows the fraction of a number, if there is one and it is well formed, and whether there
is one. -/
def afterFraction? (chars : List Char) : Option (Bool × List Char) :=
  match chars with
  | '.' :: rest =>
    let (fraction, remaining) := digits rest
    if fraction.isEmpty then none else some (true, remaining)
  | _ => some (false, chars)

/-- What follows the exponent of a number, if there is one and it is well formed, and whether there
is one. -/
def afterExponent? (chars : List Char) : Option (Bool × List Char) :=
  let exponent (rest : List Char) : Option (Bool × List Char) :=
    let unsigned := match rest with
      | '+' :: later => later
      | '-' :: later => later
      | _ => rest
    let (power, remaining) := digits unsigned
    if power.isEmpty then none else some (true, remaining)
  match chars with
  | 'e' :: rest => exponent rest
  | 'E' :: rest => exponent rest
  | _ => some (false, chars)

def decimalValue (chars : List Char) : Nat :=
  chars.foldl (fun number char => number * 10 + (char.toNat - 48)) 0

/-- An unsigned number at the start of a text, and what follows it. A number that begins with zero
has no more digits before its point. -/
def unsignedNumber? (chars : List Char) : Option (Token × List Char) := do
  let (whole, rest) := match chars with
    | '0' :: rest => (['0'], rest)
    | _ => digits chars
  if whole.isEmpty then none
  else
    let (hasFraction, rest) ← afterFraction? rest
    let (hasExponent, rest) ← afterExponent? rest
    return (.number (if hasFraction || hasExponent then none else some (decimalValue whole)), rest)

/-- The token at the start of a text, and what follows it. -/
def token? : List Char → Option (Token × List Char)
  | [] => none
  | '\x7b' :: rest => some (.openBrace, rest)
  | '\x7d' :: rest => some (.closeBrace, rest)
  | '[' :: rest => some (.openBracket, rest)
  | ']' :: rest => some (.closeBracket, rest)
  | ':' :: rest => some (.colon, rest)
  | ',' :: rest => some (.comma, rest)
  | 'n' :: 'u' :: 'l' :: 'l' :: rest => some (.null, rest)
  | 't' :: 'r' :: 'u' :: 'e' :: rest => some (.boolean true, rest)
  | 'f' :: 'a' :: 'l' :: 's' :: 'e' :: rest => some (.boolean false, rest)
  | '"' :: rest => do
    let (units, remaining) ← stringUnits? rest
    return (.text ((charsOfUnits? units).map String.ofList), remaining)
  | '-' :: rest => do
    let (_, remaining) ← unsignedNumber? rest
    return (.number none, remaining)
  | chars => unsignedNumber? chars

/-- The tokens of a text in at most so many steps. -/
def tokensWithin? : Nat → List Char → Option (List Token)
  | 0, _ => none
  | steps + 1, chars =>
    match chars.dropWhile isSpace with
    | [] => some []
    | rest => do
      let (token, remaining) ← token? rest
      return token :: (← tokensWithin? steps remaining)

/-- The tokens of a text; every token takes at least one character. -/
def tokenize? (text : String) : Option (List Token) :=
  tokensWithin? (text.toList.length + 1) text.toList

end PanelLink.Json
