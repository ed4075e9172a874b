/-
**Elements wider than the bus.**

An element goes out as several bus words, most significant first, when its width is a whole number
of bus words. A narrower element goes out as one.

* `piecesPerElement`: how many bus words an element takes, or why it cannot be cut;
* `piecesOf`: the bus words of one element in the order they go out;
* `joinPieces`: the number that arriving bus words make.
-/

import PanelLink.Misuse
import PanelLink.Width

namespace PanelLink

/-- Bus words that one element of a width takes on a bus of `busBits` lines. -/
def piecesPerElement (width : Width) (busBits : Nat) : Except Misuse Nat :=
  if busBits = 0 then .error .busWithoutLines
  else if width.bits ≤ busBits then .ok 1
  else if width.bits % busBits = 0 then .ok (width.bits / busBits)
  else .error .widthNotDivisible

/-- The low bits of a 32-bit number. -/
def lowBits (bits value : Nat) : Nat :=
  value % 1 <<< min bits 32

/-- The bus word at a place of a 32-bit value, counting from the least significant. -/
def piece (value place busBits : Nat) : Nat :=
  if place * busBits < 32 then lowBits busBits (value >>> (place * busBits)) else 0

/-- The bus words of one element, most significant first. -/
def piecesOf (count busBits value : Nat) : List Nat :=
  (List.range count).reverse.map fun place => piece value place busBits

/-- The 32-bit number that results from moving a number up by one bus word and appending a word. -/
def appendPiece (number word busBits : Nat) : Nat :=
  (if busBits < 32 then number <<< busBits % 4294967296 else 0) ||| lowBits busBits word

/-- The number that bus words make, the first one being the most significant. -/
def joinPieces (busBits : Nat) (words : List Nat) : Nat :=
  words.foldl (fun number word => appendPiece number word busBits) 0

end PanelLink
