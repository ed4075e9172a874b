import PanelLink.Addressed.LineMaster
import PanelLink.Addressed.Link
import PanelLink.Addressed.Recorder
import PanelLink.Addressed.Script
import PanelLink.Console
import PanelLink.Display.Document
import PanelLink.Display.Panel
import PanelLink.Packing.Adaptation
import PanelLink.Parallel
import PanelLink.Spi.Link
import PanelLink.TestTally
import PanelLink.Proofs.Addressed.Disjointness
import PanelLink.Proofs.Bench.Replay
import PanelLink.Proofs.Packing.BitStream
import PanelLink.Proofs.Spi.Sending
import PanelLink.Proofs.Spi.WireForm
import PanelLink.Proofs.Spi.WriteOnWire
import PanelLink.Proofs.Spi.NineBitEmulation
import PanelLink.Proofs.Bench.LineUses
import PanelLink.Proofs.Parallel.Leads
import PanelLink.Proofs.Parallel.Latching
import PanelLink.Proofs.Parallel.Coherence
import PanelLink.Proofs.Parallel.Presented
import PanelLink.Proofs.Bench.Refusals
import PanelLink.Proofs.Bench.Unplaced
import PanelLink.Proofs.Spi.Moves
import PanelLink.Proofs.Spi.WriteScript
import PanelLink.Proofs.Spi.FirstFailure
import PanelLink.Proofs.Spi.MappingRounds
import PanelLink.Proofs.Spi.Carriage
import PanelLink.Proofs.Spi.WriteEnds
import PanelLink.Proofs.Spi.MessageBoundaries
import PanelLink.Proofs.Spi.BlockLengths
import PanelLink.Proofs.Spi.WholeElements
import PanelLink.Proofs.Pieces
import PanelLink.Proofs.Bench.Wires
import PanelLink.Proofs.Bench.Sights
import PanelLink.Proofs.Addressed.DrivenLines
import PanelLink.Proofs.Parallel.Watched
import PanelLink.Proofs.Parallel.Observed
import PanelLink.Proofs.Addressed.Obliging
import PanelLink.Proofs.Addressed.PhaseWords
import PanelLink.Proofs.Addressed.PhaseReads
import PanelLink.Proofs.ReadBack
import PanelLink.Proofs.Addressed.Agenda
import PanelLink.Proofs.Addressed.Attempts
import PanelLink.Proofs.Bench.Edges
import PanelLink.Proofs.Addressed.WorkingLines
import PanelLink.Proofs.TwinBuses
import PanelLink.Proofs.Bench.Facing
import PanelLink.Proofs.Directions
import PanelLink.Proofs.Display.Pixels
import PanelLink.Proofs.BankWrites
import PanelLink.Proofs.Display.AddressWindow
import PanelLink.Proofs.Display.Canvas
import PanelLink.Proofs.Spi.ReadPlan
import PanelLink.Proofs.Bench.Incoming
import PanelLink.Proofs.Spi.ReadQueue
import PanelLink.Proofs.Spi.Selection
import PanelLink.Proofs.Bench.Strobe
import PanelLink.Proofs.ReadStrobe
import PanelLink.Proofs.Addressed.Registrations
import PanelLink.Proofs.Spi.Cutting
import PanelLink.Proofs.Spi.TransferLoop
import PanelLink.Proofs.Spi.ReadLimits
import PanelLink.Proofs.EmptyTransfers
import PanelLink.Proofs.Addressed.WholeSpace
import PanelLink.Proofs.Bench.Brackets
import PanelLink.Proofs.Parallel.ChipSelect
import PanelLink.Proofs.Text.Spacing
import PanelLink.Proofs.Text.Spelling
import PanelLink.Proofs.Console.Grammar
import PanelLink.Proofs.Console.Commands
import PanelLink.Proofs.Console.Acceptance
import PanelLink.Proofs.Packing.BothWays
import PanelLink.Proofs.Text.FixedDigits
import PanelLink.Proofs.Console.ResultText
import PanelLink.Proofs.Console.Results
import PanelLink.Proofs.Text.Trimming
import PanelLink.Proofs.Text.Decimals
import PanelLink.Proofs.Display.Properties
import PanelLink.Proofs.Tally.ResultLine
import PanelLink.Proofs.Tally.Sums
import PanelLink.Proofs.Packing.Rounds
import PanelLink.Proofs.Packing.RaggedEnds
import PanelLink.Proofs.Spi.Placement
import PanelLink.Proofs.Console.Transports
