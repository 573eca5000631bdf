import SlotServer.Worker.Inbox

/-!
# Operations for the kernel

The dispatch loop turns commands into operations. An operation that the kernel does not take ends its connection.

- `Run.issueClose`: queue a close, or close at once;
- `Run.issueReceive`, `Run.issueSend`: queue an operation over the slot's half;
- `Run.disconnect`: close an idle connection.
-/

namespace SlotServer.Run

variable {α : Type}

/-- The place of a segment's first byte. -/
def placeOf (s : Segment) : Run α Nat := do ofExcept ((← worker).pool.place s)

/-- Queue the close of a disconnecting slot. Where the kernel does not take it, the socket is closed at once. -/
def issueClose (i : Nat) : Run α Unit := do
  match ← slot? i with
  | none => pure ()
  | some s =>
    if let .error e ← queue (.close (.ofSlot s.index) s.fd) then
      say .warn s!"queueing close of slot {s.index}: {e.message}"
      closeSlot s.index

/-- Close an idle connection. Any other is left alone: someone else is already tearing it down. -/
def disconnect (i : Nat) : Run α Unit := do
  if (← stepSlot i Slot.startDisconnect) matches .ok _ then issueClose i

/-- Queue the receive of a slot, over its whole receive half. -/
def issueReceive (i : Nat) : Run α Unit := do
  match ← slot? i with
  | none => pure ()
  | some s =>
    let half := s.receiveHalf
    let place ← placeOf half
    if let .error e ← queue (.receive (.ofSlot i) s.fd place (low32 half.length) half.bufIndex) then
      bump .errors 1
      if (← stepSlot i (Slot.abortReceive 0)) matches .ok _ then
        issueClose i
        completeReceive i (.error e)

/-- Queue the send of a slot, over as many bytes as its send asked for. -/
def issueSend (i : Nat) : Run α Unit := do
  match ← slot? i with
  | none => pure ()
  | some s =>
    let half := s.sendHalf
    let place ← placeOf half
    if let .error e ← queue (.send (.ofSlot i) s.fd place (low32 s.sendLength) half.bufIndex) then
      bump .errors 1
      if (← stepSlot i Slot.abortSend) matches .ok _ then
        issueClose i
        completeSend i (.error e)

end SlotServer.Run
