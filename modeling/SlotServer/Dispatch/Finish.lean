import SlotServer.Dispatch.Turn

/-!
# The end of the loop

After the last turn the worker is torn down: no command is carried out any more, the region is no longer registered, and
every slot that still has a connection is forced free. Handles that are still alive keep their slots off the queue of
free ones.

- `Run.finish`: tear the worker down;
- `Run.dispatch`: turn until the loop ends, then tear down.
-/

namespace SlotServer.Run

variable {α : Type}

/-- Undo the registration of the pool. Only the first time has an effect. -/
def deregister : Run α (Except Error Unit) := do
  let w ← worker
  if !w.pool.registered then return .ok ()
  modifyWorker fun w => { w with pool := { w.pool with registered := false } }
  record .unregistered
  kernel (·.ask .unregister)

/-- End the connection of a slot, whatever its state. The answer is whether there was one. The close of a slot that was
disconnecting is in the kernel's hands already. -/
def forceSlot (i : Nat) : Run α Bool := do
  match ← slot? i with
  | none => return false
  | some s =>
    let (old, after) := s.force
    modifyWorker (·.setSlot i after)
    match old with
    | none => return false
    | some (state, fd) =>
      match state with
      | .receiving => completeReceive i (.error .connectionClosed)
      | .sending => completeSend i (.error .connectionClosed)
      | _ => pure ()
      if state ≠ .disconnecting then closeNow (some i) fd
      bump .disconnects 1
      release s.index
      return true

/-- End the connections of the slots of a list, and count them. -/
def forceAll : List Nat → Run α Nat
  | [] => return 0
  | i :: rest => do
    let forced ← forceSlot i
    let others ← forceAll rest
    return others + if forced then 1 else 0

/-- Tear the worker down. -/
def finish : Run α Unit := do
  markExited
  failOrphans
  if let .error e ← deregister then say .warn s!"buffer deregistration failed: {e.message}"
  record .released
  let forced ← forceAll (List.range (← worker).slots.length)
  let counted := (← worker).counters.text
  say .info s!"stopped ({forced} connections force-closed) {counted}"

/-- The turns within which a loop that was asked to stop comes to its end: every turn that finds nothing to do lets time
go by, and the others make slots free or take completions out. -/
def lastTurns : Run α Nat := do
  let m ← get
  return m.worker.grace / restTime + m.kernel.ready.length + m.worker.inbox.length + 2 * m.worker.slots.length + 2

/-- Turn up to so many times, until the loop ends. -/
def turnUpTo (serve : Serve α) : Nat → Run α Unit
  | 0 => pure ()
  | n + 1 => do
    if ← turn serve true then turnUpTo serve n

/-- Run the loop to its end, which comes within `turns` turns, and tear the worker down. -/
def dispatch (serve : Serve α) (turns : Nat) : Run α Unit := do
  let m ← get
  say .info s!"dispatching {m.worker.slots.length} slots (sq capacity {m.kernel.capacity})"
  turnUpTo serve turns
  finish

end SlotServer.Run
