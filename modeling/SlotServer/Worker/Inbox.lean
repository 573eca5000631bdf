import SlotServer.Worker.Machine

/-!
# What others ask of a worker

The calls of acceptors and connection handles. They change the state of a slot, put a command into the inbox and ring
the wake-up counter; the dispatch loop does the rest. After the loop has come to its end, commands are failed by whoever
finds them.

- `Run.submit`: a command for the dispatch loop;
- `Run.failOrphans`: fail what nobody will take out any more;
- `Run.release`: give back a lease, the last of which frees the slot;
- `Run.detach`: a connection handle is gone;
- `Run.assign`: a new socket for a free slot.
-/

namespace SlotServer.Run

variable {α β : Type}

/-- Take the first free slot, unless the worker is stopping. -/
def acquire : Run α (Option Nat) := do
  let w ← worker
  if w.stopping then return none
  match w.free with
  | [] => return none
  | i :: free =>
    modifyWorker fun w => { w with free }
    return some i

/-- Put a slot at the end of the free ones. The answer is whether there was a place. -/
def pushFree (i : Nat) : Run α Bool := do
  let w ← worker
  if w.freeCapacity ≤ w.free.length then return false
  modifyWorker fun w => { w with free := w.free ++ [i] }
  return true

/-- Give back a lease of a slot. The last one frees the slot. -/
def release (i : Nat) : Run α Unit := do
  match ← slot? i with
  | none => pure ()
  | some s =>
    let (last, after) := s.releaseLease
    modifyWorker (·.setSlot i after)
    match last with
    | none => throw s.leaseFault
    | some false => pure ()
    | some true =>
      if !(← pushFree i) then say .warn s!"free queue overflow on slot {i}"

/-- Close a disconnecting slot at once, past the queue. -/
def closeSlot (i : Nat) : Run α Unit := do
  match ← stepSlot i Slot.finishDisconnect with
  | .error _ => pure ()
  | .ok fd =>
    closeNow (some i) fd
    bump .disconnects 1
    release i

/-- Fail a command that the dispatch loop will not carry out. Whoever moves the slot on owns its cell. -/
def failCommand (c : Command) : Run α Unit := do
  say .debug s!"failing orphaned {c.text}"
  match c with
  | .accept i =>
    if (← stepSlot i Slot.abortAccept) matches .ok _ then closeSlot i
  | .receive i =>
    if (← stepSlot i (Slot.abortReceive 0)) matches .ok _ then
      closeSlot i
      completeReceive i (.error .connectionClosed)
  | .send i =>
    if (← stepSlot i Slot.abortSend) matches .ok _ then
      closeSlot i
      completeSend i (.error .connectionClosed)
  | .disconnect i => closeSlot i

/-- Take the first command out of the inbox. -/
def popCommand : Run α (Option Command) := do
  match (← worker).inbox with
  | [] => return none
  | c :: inbox =>
    modifyWorker fun w => { w with inbox }
    return some c

/-- Fail up to so many commands of the inbox. -/
def failUpTo : Nat → Run α Unit
  | 0 => pure ()
  | n + 1 => do
    match ← popCommand with
    | none => pure ()
    | some c =>
      failCommand c
      failUpTo n

/-- Fail every command of the inbox. Failing one adds none. -/
def failOrphans : Run α Unit := do failUpTo (← worker).inbox.length

/-- Put a command into the inbox. The answer is whether there was a place. -/
def enqueue (c : Command) : Run α Bool := do
  if (← worker).inboxFull then return false
  modifyWorker fun w => { w with inbox := w.inbox ++ [c] }
  return true

/-- Ring the wake-up counter. -/
def ring : Run α (Except Error Unit) := do
  record .rung
  kernel (·.ask .notify)

/-- After a command was put into the inbox: if the dispatch loop is gone, nobody else will take it out. -/
def settle : Run α Unit := do
  if (← worker).exited then failOrphans

/-- Hand a command to the dispatch loop and wake the loop. Without a place, and with a loop that is still there, the
caller would wait for ever. -/
def submit (c : Command) : Run α Unit := do
  if ← enqueue c then
    if let .error e ← ring then say .warn s!"notify failed: {e.message}"
    settle
  else if (← worker).exited then failCommand c
  else throw .inboxStalled

/-- Bind a socket to a slot that was taken, for the dispatch loop to take over. -/
def startAccept (i : Nat) (fd : Int) (peer : Option Net.SocketAddress) : Run α (Except Error Unit) := do
  if (← slot? i).isNone then return .error .noFreeSlot
  match ← stepSlot i (Slot.startAccept fd peer) with
  | .error e =>
    discard (pushFree i)
    return .error e
  | .ok _ =>
    record (.bound i fd)
    submit (.accept i)
    return .ok ()

/-- Bind a socket to a free slot. Without one the socket is closed and the connection refused. -/
def assign (fd : Int) (peer : Option Net.SocketAddress) : Run α (Except Error Nat) := do
  match ← acquire with
  | none =>
    bump .rejected 1
    closeNow none fd
    return .error .noFreeSlot
  | some i =>
    match ← startAccept i fd peer with
    | .error e =>
      closeNow none fd
      bump .errors 1
      return .error e
    | .ok _ => return .ok i

/-- The connection handle of a slot is gone. An idle connection is closed; the end of a pending operation sees to the
others. -/
def detach (i : Nat) : Run α Unit := do
  if (← slot? i).isSome then
    modifySlot i Slot.detach
    if (← stepSlot i Slot.startDisconnect) matches .ok _ then submit (.disconnect i)
    release i

/-- Ask the worker to stop, and wake its loop. -/
def requestStop : Run α Unit := do
  modifyWorker fun w => { w with stopping := true }
  if let .error e ← ring then say .warn s!"shutdown notify failed: {e.message}"

/-- From now on nobody empties the inbox. -/
def markExited : Run α Unit := modifyWorker fun w => { w with exited := true }

end SlotServer.Run
