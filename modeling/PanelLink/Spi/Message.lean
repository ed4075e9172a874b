/-
**Blocks cut into segments and messages.**

* `Cutter.segmentLength`: how many elements the next segment may take;
* `Cutter.segments`: a run cut into segments, each as long as the limits allow;
* `Cutter.slices`: the segments where they lie in memory, and `Cutter.messages`: at most four of them
  to a message, the opening byte counted;
* `flatten_segments`: the segments joined are the run.
-/

import PanelLink.Portions
import PanelLink.Spi.Block
import PanelLink.Bench

namespace PanelLink.Spi

/-- Segments in a message, the opening byte counted. -/
def messageSlots : Nat :=
  4

/-- What decides where a block is cut. -/
structure Cutter where
  /-- The most bytes in a segment. -/
  segmentLimit : Nat
  /-- Whether a segment must not cross a page boundary. -/
  splitsAtPages : Bool
  deriving DecidableEq, Repr

namespace Cutter

/-- How many elements a segment that begins at an address may take, at least one. -/
def segmentLength (cutter : Cutter) (element : Element) (address : Nat) : Nat :=
  let limit := max (cutter.segmentLimit / element.bytes) 1
  if cutter.splitsAtPages then
    min limit (max ((pageSize - address % pageSize) / element.bytes) 1)
  else limit

theorem segmentLength_pos (cutter : Cutter) (element : Element) (address : Nat) :
    0 < cutter.segmentLength element address := by
  unfold segmentLength
  split <;> simp only <;> omega

/-- A run cut into segments, the first one beginning at an address. -/
def segments (cutter : Cutter) (element : Element) (address : Nat) (values : List Nat) :
    List (List Nat) :=
  match values with
  | [] => []
  | value :: rest =>
    let further := cutter.segmentLength element address - 1
    (value :: rest.take further) ::
      cutter.segments element (address + (further + 1) * element.bytes) (rest.drop further)
termination_by values.length
decreasing_by
  simp only [List.length_drop, List.length_cons]
  omega

/-- The segments of a run, joined, are the run. -/
theorem flatten_segments (cutter : Cutter) (element : Element) (address : Nat)
    (values : List Nat) : (cutter.segments element address values).flatten = values := by
  fun_induction segments cutter element address values with
  | case1 => rfl
  | case2 address value rest further ih => simp [ih]

def runs (cutter : Cutter) (block : Block) : List Words :=
  (cutter.segments block.words.element block.address block.words.values).map
    (Words.ofList block.words.element)

/-- The runs of a block where they lie in memory. -/
def slices (cutter : Cutter) (block : Block) : List Slice :=
  Slice.consecutive block.address (cutter.runs block)

/-- The slices of a block, message by message. -/
def messages (cutter : Cutter) (opened : Bool) (block : Block) : List (List Slice) :=
  portions (if opened then messageSlots - 1 else messageSlots) (cutter.slices block)

end Cutter

/-- Maps slices in order and stops at the first failure; returns the mappings made, the latest first,
and whether all were. -/
def mapBuffers (handleOf : Slice → Handle) :
    List Handle → List Slice → BenchM (List Handle × Bool)
  | held, [] => return (held, true)
  | held, slice :: rest => do
    match ← (mapBuffer handleOf slice).run with
    | .ok handle => mapBuffers handleOf (handle :: held) rest
    | .error _ => return (held, false)

/-- Segments of which each is sent from a mapping. -/
def mappedSegments (segment : Words → Segment) (message : List Slice) (handles : List Handle) :
    List Segment :=
  List.zipWith (fun slice handle => { segment slice.words with mapping := some handle }) message
    handles

theorem mappedSegments_map (segment : Words → Segment) (message : List Slice)
    (handleOf : Slice → Handle) :
    mappedSegments segment message (message.map handleOf) =
      message.map fun slice => { segment slice.words with mapping := some (handleOf slice) } := by
  rw [mappedSegments, List.zipWith_map_right, List.zipWith_self]

/-- Sends one message of a block. With mapping, every segment of the block is mapped before the
message and released after it, whether or not the message succeeds. -/
def sendMessage (handleOf : Slice → Handle) (opening : Option Segment) (segment : Words → Segment)
    (mapping : Bool) (message : List Slice) : ExceptT AccessError BenchM Unit := do
  if mapping then
    let (held, complete) ← mapBuffers handleOf [] message
    if complete then
      let sent ← (exchange (opening.toList ++ mappedSegments segment message held.reverse)).run
      held.forM fun handle => unmapBuffer handle
      if let .error _ := sent then
        throw (.linkFailed .bus)
    else
      held.forM fun handle => unmapBuffer handle
      throw (.linkFailed .dmaMapping)
  else
    let _ ← (exchange (opening.toList ++ message.map fun slice => segment slice.words)).adapt
      fun _ => .linkFailed .bus

end PanelLink.Spi
