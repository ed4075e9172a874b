/-
**One signal line and what has been done to it.**

A line counts every attempt to use it. Which attempts fail is a plan over their numbers, so a line
can fail at any point and work again later.

* `Line.outcomeOf`: what comes of the next use of a line;
* `Line.write`: a line that is set takes the level and remembers it;
* `Line.turn`: a line turned to output starts low, and that is no write.
-/

namespace PanelLink

inductive Direction where
  | unset
  | input
  | output
  deriving DecidableEq, Repr, Inhabited

def Direction.text : Direction → String
  | unset => "NotSet"
  | input => "Input"
  | output => "Output"

/-- The place of a line in the wiring. -/
inductive LineName where
  | data (bit : Nat)
  | address (bit : Nat)
  | selector
  | writeStrobe
  | readStrobe
  | chipSelect
  | reset
  | unitReset (unit : Nat)
  deriving DecidableEq, Repr

def LineName.text : LineName → String
  | data bit => "d" ++ toString bit
  | address bit => "a" ++ toString bit
  | selector => "dc"
  | writeStrobe => "wr"
  | readStrobe => "rd"
  | chipSelect => "cs"
  | reset => "rst"
  | unitReset unit => "rst" ++ toString unit

inductive LineUse where
  | set (level : Bool)
  | sample
  | turn (direction : Direction)
  deriving DecidableEq, Repr

def LineUse.text : LineUse → String
  | set true => "+"
  | set false => "-"
  | sample => "?"
  | turn .input => ">in"
  | turn .output => ">out"
  | turn .unset => ">"

inductive UseOutcome where
  | done
  /-- The line refused, and the log marks it. -/
  | refused
  /-- The line could not be turned, and the log does not show it. -/
  | stuck
  deriving DecidableEq, Repr

structure Line where
  level : Bool := false
  direction : Direction := .unset
  /-- Every level written, the latest first. -/
  written : List Bool := []
  toggles : Nat := 0
  switches : Nat := 0
  attempts : Nat := 0
  failsAt : Nat → Bool := fun _ => false
  /-- Whether the line can no longer be switched. -/
  stuck : Bool := false

namespace Line

def outcomeOf (line : Line) (use : LineUse) : UseOutcome :=
  if line.failsAt line.attempts then .refused
  else match use with
    | .turn _ => if line.stuck then .stuck else .done
    | _ => .done

def attempted (line : Line) : Line :=
  { line with attempts := line.attempts + 1 }

def write (line : Line) (level : Bool) : Line :=
  { line with
    level := level
    written := level :: line.written
    toggles := if line.level = level then line.toggles else line.toggles + 1 }

/-- The line after being switched to a direction; an output starts low. -/
def turn (line : Line) (direction : Direction) : Line :=
  { line with
    level := if direction = .output then false else line.level
    direction := direction
    switches := line.switches + 1 }

/-- The line with every use failing after a number of further uses. -/
def failAfter (line : Line) (uses : Nat) : Line :=
  let first := line.attempts + uses
  { line with failsAt := fun attempt => first ≤ attempt }

def heal (line : Line) : Line :=
  { line with failsAt := fun _ => false }

def levelText (level : Bool) : String :=
  if level then "H" else "L"

/-- The levels written so far, the earliest first. -/
def historyText (line : Line) : String :=
  String.join (line.written.reverse.map levelText)

/-- The level, the direction and the counts of a line. -/
def summary (line : Line) : String :=
  String.intercalate " "
    [levelText line.level, line.direction.text, "w" ++ toString line.written.length,
      "t" ++ toString line.toggles, "s" ++ toString line.switches]

end Line

/-- A row of lines; places past its end hold lines that were never used. -/
abbrev LineRow := List Line

namespace LineRow

def lineAt (row : LineRow) (place : Nat) : Line :=
  List.getD row place {}

def put : LineRow → Nat → Line → LineRow
  | [], 0, line => [line]
  | [], place + 1, line => {} :: put [] place line
  | _ :: rest, 0, line => line :: rest
  | first :: rest, place + 1, line => first :: put rest place line

theorem lineAt_put (row : LineRow) (place other : Nat) (line : Line) :
    (row.put place line).lineAt other = if other = place then line else row.lineAt other := by
  induction row, place, line using put.induct generalizing other with
  | case1 line => cases other <;> simp [put, lineAt]
  | case2 place line ih =>
    cases other with
    | zero => simp [put, lineAt]
    | succ other => simpa [put, lineAt] using ih other
  | case3 first rest line => cases other <;> simp [put, lineAt]
  | case4 first rest place line ih =>
    cases other with
    | zero => simp [put, lineAt]
    | succ other => simpa [put, lineAt] using ih other

end LineRow

end PanelLink
