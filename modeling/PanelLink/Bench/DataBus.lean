/-
**The data lines of a bit-banged bus, used together.**

Line `n` carries bit `n` of a word. The direction in which the lines were last switched is cached,
and it is forgotten as soon as a switch fails.

* `driveLines` and `sampleLines`: a word put on lines, and one taken from them;
* `switchLines`: nothing is done when the lines are switched already.
-/

import PanelLink.Bench

namespace PanelLink

/-- Sets lines, in order, to the bits of a word. -/
def driveLines (name : Nat → LineName) (count value : Nat) : LineM Unit :=
  (List.range count).forM fun bit => setLine (name bit) (wordBit value bit)

/-- Samples data lines, in order, starting with the bit of the given number. -/
def sampleFrom (bit : Nat) : Nat → LineM Nat
  | 0 => pure 0
  | count + 1 => do
    let level ← sampleLine bit
    let higher ← sampleFrom (bit + 1) count
    return (if level then 1 <<< bit else 0) + higher

/-- Samples the data lines that a 32-bit word has room for. -/
def sampleLines (count : Nat) : LineM Nat :=
  sampleFrom 0 (min count 32)

/-- Switches the data lines to a direction, unless the cached direction says that they are switched
already, and returns the direction to cache and whether anything was switched. -/
def switchLines (count : Nat) (cached direction : Direction) :
    BenchM (Direction × Except LineFailure Bool) := do
  if cached = direction ∨ direction = .unset then
    return (cached, .ok false)
  let turned ← ((List.range count).forM fun bit => turnLine (.data bit) direction).run
  match turned with
  | .ok () => return (direction, .ok true)
  | .error failure => return (.unset, .error failure)

end PanelLink
