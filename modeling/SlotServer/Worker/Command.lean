/-!
# Commands

What the dispatch loop is asked to do for a slot.
-/

namespace SlotServer

/-- Work for the dispatch loop. -/
inductive Command
  /-- The slot is accepting: take the new socket over and start the handler. -/
  | accept (slot : Nat)
  /-- The slot is receiving: queue the receive. -/
  | receive (slot : Nat)
  /-- The slot is sending: queue the send. -/
  | send (slot : Nat)
  /-- The slot is disconnecting: queue the close. -/
  | disconnect (slot : Nat)
  deriving DecidableEq, Repr, Inhabited

namespace Command

/-- The slot that the command is for. -/
def slot : Command → Nat
  | accept i | receive i | send i | disconnect i => i

/-- The command with its slot. -/
def text : Command → String
  | accept i => s!"Accept({i})"
  | receive i => s!"Receive({i})"
  | send i => s!"Send({i})"
  | disconnect i => s!"Disconnect({i})"

end Command

end SlotServer
