import SlotServer.Buffer.Segment
import SlotServer.Cell
import SlotServer.Net.Address

/-!
# Connection slots

A slot binds one socket at a time to one segment of the pool, whose first part receives and whose second part sends.
Every step names the states it may start from; started elsewhere it is refused with `Error.invalidState`.

- `Slot.transition`: the one place where the state changes on request;
- `Slot.startReceive`, `Slot.finishReceive`, … : the steps of a connection's life;
- `Slot.force`: the end of a connection whatever its state;
- `Slot.releaseLease`: the engine and the connection's handle each hold a lease; the last one given back frees the slot.
-/

namespace SlotServer

/-- A connection slot. -/
structure Slot where
  index : Nat
  state : SlotState := .disconnected
  /-- The socket's descriptor, -1 where there is none. -/
  fd : Int := -1
  receiveHalf : Segment
  sendHalf : Segment
  receiveCell : Cell := {}
  sendCell : Cell := {}
  receivedLength : Nat := 0
  sendLength : Nat := 0
  /-- The connection's handle is alive. -/
  attached : Bool := false
  leases : UInt8 := 0
  peer : Option Net.SocketAddress := none
  deriving Repr, Inhabited

namespace Slot

/-- A free slot over a segment, whose first `receiveLength` bytes receive. -/
def ofSegment (index : Nat) (segment : Segment) (receiveLength : Nat) : Except Fault Slot :=
  (segment.split receiveLength).map fun (receiveHalf, sendHalf) => { index, receiveHalf, sendHalf }

/-- A step of a slot: its answer, and the slot after it. -/
abbrev Step (α : Type) := Slot → Except Error α × Slot

/-- The refusal of a step in the slot's present state. -/
def wrongState (s : Slot) : Error := .invalidState s.index s.state

/-- Go to a state from one of those allowed, and name the one it was. -/
def transition (allowed : List SlotState) (next : SlotState) : Step SlotState := fun s =>
  if s.state ∈ allowed then (.ok s.state, { s with state := next }) else (.error s.wrongState, s)

/-- Go to a state from one of those allowed. -/
def advance (allowed : List SlotState) (next : SlotState) : Step Unit := fun s =>
  let (answer, s) := s.transition allowed next
  (answer.map fun _ => (), s)

/-- Bind a socket. -/
def startAccept (fd : Int) (peer : Option Net.SocketAddress) : Step Unit := fun s =>
  match s.transition [.disconnected] .accepting with
  | (.error e, s) => (.error e, s)
  | (.ok _, s) => (.ok (), { s with fd, peer, receivedLength := 0, sendLength := 0, attached := false, leases := 1 })

/-- The dispatch loop takes the socket over. -/
def finishAccept : Step Unit := advance [.accepting] .accepted

/-- The dispatch loop gives the socket up. -/
def abortAccept : Step Unit := advance [.accepting] .disconnecting

/-- A receive begins: its cell is reset. -/
def startReceive : Step Unit := fun s =>
  if s.state ∈ [.accepted, .sent] then
    advance [.accepted, .sent] .receiving { s with receiveCell := s.receiveCell.reset }
  else (.error s.wrongState, s)

/-- A receive has delivered `n` bytes. The count is kept in any state. -/
def finishReceive (n : Nat) : Step Unit := fun s =>
  advance [.receiving] .received { s with receivedLength := n }

/-- A receive has failed or met the end. The count is kept in any state. -/
def abortReceive (n : Nat) : Step Unit := fun s =>
  advance [.receiving] .disconnecting { s with receivedLength := n }

/-- A send of `length` bytes begins: its cell is reset. -/
def startSend (length : Nat) : Step Unit := fun s =>
  if s.sendHalf.length < length then (.error (.bufferTooSmall length s.sendHalf.length), s)
  else if s.state ∈ [.accepted, .received, .sent] then
    advance [.accepted, .received, .sent] .sending { s with sendCell := s.sendCell.reset, sendLength := length }
  else (.error s.wrongState, s)

/-- A send has ended. -/
def finishSend : Step Unit := advance [.sending] .sent

/-- A send has failed. -/
def abortSend : Step Unit := advance [.sending] .disconnecting

/-- An idle connection is closed. -/
def startDisconnect : Step Unit := advance [.accepted, .received, .sent] .disconnecting

/-- The close has ended: the slot lets go of the descriptor it had. -/
def finishDisconnect : Step Int := fun s =>
  match s.transition [.disconnecting] .disconnected with
  | (.error e, s) => (.error e, s)
  | (.ok _, s) => (.ok s.fd, { s with fd := -1 })

/-- End a connection whatever its state: the state it was in and its descriptor, or nothing where the slot is free. -/
def force (s : Slot) : Option (SlotState × Int) × Slot :=
  if s.state = .disconnected then (none, s)
  else (some (s.state, s.fd), { s with state := .disconnected, fd := -1 })

/-- The connection's handle takes a lease. -/
def attach (s : Slot) : Slot := { s with leases := s.leases + 1, attached := true }

/-- The connection's handle is gone. -/
def detach (s : Slot) : Slot := { s with attached := false }

/-- Give a lease back. The count goes round at zero; the answer is whether it was the last one, or nothing where there
was none to give. -/
def releaseLease (s : Slot) : Option Bool × Slot :=
  (if s.leases = 0 then none else some (s.leases = 1), { s with leases := s.leases - 1 })

/-- The fault of giving back a lease that nobody held. -/
def leaseFault (s : Slot) : Fault := .leaseUnderflow s.index

/-- Complete the cell of the receive. -/
def completeReceive (s : Slot) (outcome : Outcome) : Except Fault (Option Waker × Slot) :=
  (s.receiveCell.complete outcome).map fun (waker, cell) => (waker, { s with receiveCell := cell })

/-- Complete the cell of the send. -/
def completeSend (s : Slot) (outcome : Outcome) : Except Fault (Option Waker × Slot) :=
  (s.sendCell.complete outcome).map fun (waker, cell) => (waker, { s with sendCell := cell })

theorem transition_of_mem {s : Slot} {allowed : List SlotState} {next : SlotState} (h : s.state ∈ allowed) :
    s.transition allowed next = (.ok s.state, { s with state := next }) := if_pos h

theorem transition_of_not_mem {s : Slot} {allowed : List SlotState} {next : SlotState} (h : s.state ∉ allowed) :
    s.transition allowed next = (.error s.wrongState, s) := if_neg h

end Slot

end SlotServer
