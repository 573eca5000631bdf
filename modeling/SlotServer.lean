import SlotServer.Bench.Cells
import SlotServer.Bench.Clients
import SlotServer.Bench.Crew
import SlotServer.Bench.Rings
import SlotServer.Bench.Tasks
import SlotServer.Main
import SlotServer.Proofs.Addresses
import SlotServer.Proofs.Descriptors
import SlotServer.Proofs.Ended
import SlotServer.Proofs.HandOver
import SlotServer.Proofs.Outcomes
import SlotServer.Proofs.Vigils
import SlotServer.Text.Hex
import SlotServer.Proofs.Acts
import SlotServer.Proofs.CellUses
import SlotServer.Proofs.Turns
import SlotServer.Proofs.Departures
import SlotServer.Proofs.Closings
import SlotServer.Proofs.Rows
import SlotServer.Proofs.Resets
import SlotServer.Proofs.Stages
import SlotServer.Proofs.Quiet
import SlotServer.Proofs.Commuting
import SlotServer.Proofs.Inboxes
import SlotServer.Proofs.Batches
import SlotServer.Proofs.Dealing
import SlotServer.Proofs.Receipts
import SlotServer.Proofs.Received
import SlotServer.Proofs.Refusals
import SlotServer.Proofs.Touches
import SlotServer.Proofs.BlindCalls
import SlotServer.Proofs.Absorbing
import SlotServer.Proofs.FeralRuns
import SlotServer.Proofs.FeralTurns
import SlotServer.Proofs.Sizing
import SlotServer.Proofs.Overlaps
import SlotServer.Proofs.RingBooks
import SlotServer.Proofs.PoolThreads
import SlotServer.Proofs.Echoes
