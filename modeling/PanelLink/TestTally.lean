/-
**Adding up the result lines of a test run.**

A result line holds counts, each followed by what it counts, apart by semicolons.

* `Tally.ofText`: the sums over all result lines, or nothing if there is none;
* `Tally.summary`: the sums in words.
-/

import PanelLink.Text.Blank
import PanelLink.Text.Numeral

namespace PanelLink

structure Tally where
  passed : Nat := 0
  failed : Nat := 0
  ignored : Nat := 0
  deriving DecidableEq, Repr

namespace Tally

/-- What marks a result line. -/
def marker : List Char :=
  "test result:".toList

/-- Text cut at every place where a character of a kind stands. -/
def cutAt (separator : Char) (text : List Char) : List (List Char) :=
  text.splitOn separator

/-- What stands before the next marker, or all of the text. -/
def beforeMarker : List Char → List Char
  | [] => []
  | char :: rest =>
    if marker.isPrefixOf (char :: rest) then [] else char :: beforeMarker rest

/-- What stands after the first marker and before the second. -/
def resultPart? : List Char → Option (List Char)
  | [] => none
  | char :: rest =>
    if marker.isPrefixOf (char :: rest) then
      some (beforeMarker ((char :: rest).drop marker.length))
    else resultPart? rest

def addCounts (count further : Nat) : Nat :=
  min (count + further) (Text.numeralLimit - 1)

/-- The tally with one more part of a result line, if that part ends in a count and its kind. -/
def addPart (tally : Tally) (part : List Char) : Tally :=
  match (Text.tokens part).reverse with
  | kind :: count :: _ =>
    match Text.readDecimal? count with
    | none => tally
    | some number =>
      if kind = "passed".toList then { tally with passed := addCounts tally.passed number }
      else if kind = "failed".toList then { tally with failed := addCounts tally.failed number }
      else if kind = "ignored".toList then { tally with ignored := addCounts tally.ignored number }
      else tally
  | _ => tally

/-- The tally with one more line; a line that is no result line changes nothing. -/
def addLine (tally : Option Tally) (line : List Char) : Option Tally :=
  match resultPart? line with
  | none => tally
  | some part => some ((cutAt ';' part).foldl addPart (tally.getD {}))

/-- The sums over all result lines of a text, or nothing if there is none. -/
def ofText (text : String) : Option Tally :=
  (cutAt '\n' text.toList).foldl addLine none

def summary : Option Tally → String
  | none => "(summary not available)"
  | some tally =>
    "(" ++ toString tally.passed ++ " passed, " ++ toString tally.failed ++ " failed, " ++
      toString tally.ignored ++ " ignored)"

end Tally

end PanelLink
