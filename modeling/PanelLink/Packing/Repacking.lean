/-
**Repacking, group by group.**

A repacking turns each whole group of source elements into one group of target elements. Into a
destination of fixed length it goes as far as both sides last, and it writes no part of a group.

* `Repacking.all`: every group of a source, converted;
* `Repacking.produced` and `Repacking.into`: the elements written, and the destination afterwards.
-/

import PanelLink.Portions

namespace PanelLink

/-- A conversion of groups of elements. -/
structure Repacking where
  sourceGroup : Nat
  targetGroup : Nat
  /-- The target group that a source group turns into. -/
  convert : List Nat → List Nat

namespace Repacking

/-- The groups of a source, converted in order. -/
def all (repacking : Repacking) (source : List Nat) : List Nat :=
  (portions repacking.sourceGroup source).flatMap repacking.convert

/-- How many groups a source holds whole and a destination has room for. -/
def groups (repacking : Repacking) (source destination : Nat) : Nat :=
  min (source / repacking.sourceGroup) (destination / repacking.targetGroup)

/-- How many source elements are converted into a destination of the given length. -/
def consumed (repacking : Repacking) (source destination : Nat) : Nat :=
  repacking.groups source destination * repacking.sourceGroup

/-- The elements written into a destination of the given length. -/
def produced (repacking : Repacking) (source : List Nat) (destination : Nat) : List Nat :=
  repacking.all (source.take (repacking.consumed source.length destination))

/-- The destination after repacking, with the elements past the last group unchanged. -/
def into (repacking : Repacking) (source destination : List Nat) : List Nat :=
  let written := repacking.produced source destination.length
  written ++ destination.drop written.length

end Repacking

end PanelLink
