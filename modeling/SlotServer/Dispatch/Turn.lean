import SlotServer.Connection
import SlotServer.Dispatch.Route

/-!
# The dispatch loop

One loop per worker. A turn arms the wake-up read, hands the queue over, takes the completions to their slots and
carries out the commands of the inbox. It never runs application code: what the loop gives a new connection to is a
parameter, `serve`, which only packages the connection.

- `Run.turn`: one turn, and whether the loop goes on;
- `Run.beginDrain`: what the first turn after a request to stop does;
- `Run.harvest`, `Run.drainInbox`: the two halves of a turn's work.
-/

namespace SlotServer.Run

variable {α : Type}

/-- Give the connection of a slot to the application. The answer is whether a task was started for it. -/
abbrev Serve (α : Type) := Nat → Run α (Except Error Unit)

/-- Give up a new socket. -/
def abandon (i : Nat) : Run α Unit := do
  if (← stepSlot i Slot.abortAccept) matches .ok _ then issueClose i

/-- Send small packets of a slot's socket at once. -/
def setNoDelay (i : Nat) (fd : Int) : Run α (Except Error Unit) := do
  record (.hastened i fd)
  match (← get).kernel.sockets.setNoDelay fd with
  | .ok _ => return .ok ()
  | .error errno => return .error (.socket errno)

/-- The text of a peer's address. -/
def peerText : Option Net.SocketAddress → String
  | some address => s!"Some({address.text})"
  | none => "None"

/-- Take over a new socket and start its handler. A worker that drains takes none. -/
def onAccept (serve : Serve α) (i : Nat) : Run α Unit := do
  match ← slot? i with
  | none => pure ()
  | some s =>
    let w ← worker
    if w.deadline.isSome then
      abandon i
      return
    if !w.useNagle then
      if let .error e ← setNoDelay i s.fd then
        say .warn s!"TCP_NODELAY on slot {i}: {e.message}"
        bump .errors 1
        abandon i
        return
    match ← stepSlot i Slot.finishAccept with
    | .error e => violation i e
    | .ok _ =>
      bump .accepts 1
      say .trace s!"slot {i} accepted from {peerText s.peer}"
      Connection.attach i
      record (.served i)
      if let .error e ← serve i then
        say .warn s!"handler spawn failed for slot {i}: {e.message}"
        bump .errors 1

/-- Carry out a command. -/
def execute (serve : Serve α) : Command → Run α Unit
  | .accept i => onAccept serve i
  | .receive i => issueReceive i
  | .send i => issueSend i
  | .disconnect i => issueClose i

/-- Carry out up to so many commands of the inbox, and count them. -/
def executeUpTo (serve : Serve α) : Nat → Run α Nat
  | 0 => return 0
  | n + 1 => do
    match ← popCommand with
    | none => return 0
    | some c =>
      execute serve c
      return (← executeUpTo serve n) + 1

/-- Carry out the commands of the inbox, and count them. One that starts a handler adds at most one more, which adds
none. -/
def drainInbox (serve : Serve α) : Run α Nat := do executeUpTo serve (2 * (← worker).inboxCapacity + 1)

/-- Take up to so many batches of completions to their slots, until one is short, and count the completions. -/
def harvestUpTo : Nat → Run α Nat
  | 0 => return 0
  | n + 1 => do
    let most := (← worker).batch
    record .polled
    let batch ← kernel (·.harvest most)
    batch.forM route
    if most ≤ batch.length then return (← harvestUpTo n) + batch.length
    return batch.length

/-- Take every completion that is ready to its slot, and count them. A completion readies at most one more, that of a
close. -/
def harvest : Run α Nat := do harvestUpTo (2 * (← get).kernel.ready.length + 1)

/-- How many operations are unanswered. -/
def outstanding : Run α Nat := return (← get).kernel.outstanding

/-- Stop a slot for the drain: close it where it is idle, and shut its socket where an operation is outstanding, so that
this ends soon. -/
def drainSlot (i : Nat) : Run α Unit := do
  match ← slot? i with
  | none => pure ()
  | some s =>
    match s.state with
    | .accepted | .received | .sent => disconnect i
    | .receiving | .sending =>
      record (.hungUp i s.fd)
      modifyKernel fun k => { k with sockets := k.sockets.hangUp s.fd }
    | _ => pure ()

/-- Stop every slot. -/
def drainSlots : Run α Unit := do
  let count ← outstanding
  say .info s!"draining, {count} operations in flight"
  (List.range (← worker).slots.length).forM drainSlot

/-- Take no new work and stop every slot. The end of the drain has to be a time that a clock can tell. -/
def beginDrain : Run α Unit := do
  let m ← get
  let deadline ← ofExcept (checkedTime m.kernel.now m.worker.grace)
  modifyWorker fun w => { w with deadline := some deadline }
  drainSlots

/-- The worker is draining, and is done with that or out of time. -/
def drained : Run α Bool := do
  match (← worker).deadline with
  | none => return false
  | some deadline =>
    let count ← outstanding
    if count = 0 && (← worker).inbox.isEmpty then return true
    if deadline ≤ (← get).kernel.now then
      say .warn s!"grace period over with {count} operations in flight"
      return true
    return false

/-- Leave a wake-up read. -/
def arm : Run α Unit := do
  if let .error e ← kernel Kernel.arm then say .warn s!"arm failed: {e.message}"

/-- Hand the queue over, and wait for a completion if the loop may wait and is sure to be woken. -/
def submitQueue (block : Bool) : Run α Unit := do
  let least := (← worker).waitsFor block (← get).kernel.armed
  record (.submitted least)
  if let .error e ← kernel (·.ask .submit) then say .debug s!"submit_and_wait: {e.message}"

/-- How long a drain rests where it finds nothing to do, in milliseconds. -/
def restTime : Nat := 1

/-- Let time go by. -/
def rest : Run α Unit := modifyKernel fun k => { k with now := k.now + restTime }

/-- One turn of the loop. The answer is whether the loop goes on. -/
def turn (serve : Serve α) (block : Bool) : Run α Bool := do
  let w ← worker
  if w.isToDrain then beginDrain
  if ← drained then return false
  arm
  submitQueue block
  let completed ← harvest
  let commands ← drainInbox serve
  if (← worker).deadline.isSome && block && completed = 0 && commands = 0 then rest
  return true

end SlotServer.Run
