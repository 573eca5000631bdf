import SlotServer.Worker.Inbox

/-!
# Connections

The application's view of one accepted connection. It borrows a slot, which its index names: the slot's receive half and
send half are the connection's buffers. While an operation of a half is outstanding, that half is out of sight.

- `Connection.attach`, `Connection.drop`: the life of a handle;
- `Connection.receive`, `Connection.send`: start an operation, and get a future for its outcome;
- `Connection.received`, `Connection.sendBuffer`, `Connection.buffers`: the halves;
- `Connection.pollFuture`: ask a future for the outcome.
-/

namespace SlotServer

/-- A future of an operation on a connection. -/
abbrev OperationFuture := Future CellName

namespace Connection

variable {α : Type}

/-- A handle for the connection of a slot. -/
def attach (i : Nat) : Run α Unit := do
  Run.modifySlot i Slot.attach
  modify fun m => { m with held := i :: m.held }

/-- The handle of a connection goes away. -/
def drop (i : Nat) : Run α Unit := do
  modify fun m => { m with held := m.held.erase i }
  Run.detach i

/-- Receive into the receive half. Refused unless the connection was just accepted or has just sent. -/
def receive (i : Nat) : Run α OperationFuture := do
  match ← Run.stepSlot i Slot.startReceive with
  | .error e => return .refused (some e)
  | .ok _ =>
    Run.record (.began ⟨i, .receive⟩)
    Run.submit (.receive i)
    return .awaiting ⟨i, .receive⟩

/-- Send the first `length` bytes of the send half. Refused unless nothing is outstanding. -/
def send (i length : Nat) : Run α (Except Error OperationFuture) := do
  match ← Run.stepSlot i (Slot.startSend length) with
  | .error e => return .error e
  | .ok _ =>
    Run.record (.asked length)
    Run.record (.began ⟨i, .send⟩)
    Run.submit (.send i)
    return .ok (.awaiting ⟨i, .send⟩)

/-- The cell of a half. -/
def cell (s : Slot) : Half → Cell
  | .receive => s.receiveCell
  | .send => s.sendCell

/-- The slot with another cell for a half. -/
def setCell (s : Slot) (c : Cell) : Half → Slot
  | .receive => { s with receiveCell := c }
  | .send => { s with sendCell := c }

/-- Ask a future for its outcome, and leave a waker if there is none yet. -/
def pollFuture (waker : Waker) : OperationFuture → Run α (Poll Outcome × OperationFuture)
  | .refused e => return (.ready (refusal e), .refused none)
  | .awaiting name => do
    match ← Run.slot? name.slot with
    | none => return (.pending, .awaiting name)
    | some s =>
      let (answer, c) := (cell s name.half).poll waker
      Run.modifyWorker (·.setSlot name.slot (setCell s c name.half))
      if answer matches .pending then Run.record (.awaited name waker)
      return (answer, .awaiting name)

/-- The segment of the bytes that a connection may read: what its last receive delivered, and nothing while a receive
is outstanding. -/
def receivedView (s : Slot) : Segment :=
  if s.state = .receiving then { s.receiveHalf with length := 0 }
  else { s.receiveHalf with length := min s.receivedLength s.receiveHalf.length }

/-- The segment of the bytes that a connection may write: the whole send half, and nothing while a send is
outstanding. -/
def sendView (s : Slot) : Segment :=
  if s.state = .sending then { s.sendHalf with length := 0 } else s.sendHalf

/-- The bytes of a segment of the pool. -/
def bytes (s : Segment) : Run α (List UInt8) := do Run.ofExcept ((← Run.worker).pool.read s)

/-- The bytes that the last receive delivered. -/
def received (i : Nat) : Run α (List UInt8) := do
  match ← Run.slot? i with
  | none => return []
  | some s => bytes (receivedView s)

/-- The bytes of the send half. -/
def sendBuffer (i : Nat) : Run α (List UInt8) := do
  match ← Run.slot? i with
  | none => return []
  | some s => bytes (sendView s)

/-- What was received, and the send half, for copying from one into the other. -/
def buffers (i : Nat) : Run α (List UInt8 × List UInt8) := do
  match ← Run.slot? i with
  | none => return ([], [])
  | some s => return (← bytes (receivedView s), ← bytes (sendView s))

/-- The length of the send half. -/
def sendCapacity (i : Nat) : Run α Nat := return (← Run.slot? i).elim 0 (·.sendHalf.length)

/-- Put bytes at the front of the send half, as many as fit. The answer is their count and the length of the half. -/
def fill (i : Nat) (data : Array UInt8) : Run α (Nat × Nat) := do
  match ← Run.slot? i with
  | none => return (0, 0)
  | some s =>
    let (n, pool) ← Run.ofExcept ((← Run.worker).pool.write (sendView s) data)
    Run.modifyWorker fun w => { w with pool }
    return (n, (sendView s).length)

/-- The connection with its place and state. -/
def debug (worker : Nat) (s : Slot) : String :=
  s!"Connection \x7b worker: {worker}, slot: {s.index}, state: {s.state.word} \x7d"

end Connection

end SlotServer
