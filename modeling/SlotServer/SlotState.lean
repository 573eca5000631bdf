/-!
# Slot states

The life of a connection slot: free, taken by a new socket, idle, or with one operation outstanding.
-/

namespace SlotServer

/-- The state of a connection slot. -/
inductive SlotState
  /-- Free, no socket bound. -/
  | disconnected
  /-- A socket is bound and waits for the dispatch loop. -/
  | accepting
  /-- Connected, nothing outstanding. -/
  | accepted
  /-- A receive is outstanding. -/
  | receiving
  /-- A receive has ended, nothing outstanding. -/
  | received
  /-- A send is outstanding. -/
  | sending
  /-- A send has ended, nothing outstanding. -/
  | sent
  /-- The close is outstanding. -/
  | disconnecting
  deriving DecidableEq, Repr, Inhabited

namespace SlotState

/-- The number of a state. -/
def code : SlotState → UInt8
  | disconnected => 0
  | accepting => 1
  | accepted => 2
  | receiving => 3
  | received => 4
  | sending => 5
  | sent => 6
  | disconnecting => 7

/-- The state of a number; numbers without one are free slots. -/
def ofCode (n : UInt8) : SlotState :=
  match n.toNat with
  | 1 => accepting
  | 2 => accepted
  | 3 => receiving
  | 4 => received
  | 5 => sending
  | 6 => sent
  | 7 => disconnecting
  | _ => disconnected

/-- The state's name as a word. -/
def word : SlotState → String
  | disconnected => "Disconnected"
  | accepting => "Accepting"
  | accepted => "Accepted"
  | receiving => "Receiving"
  | received => "Received"
  | sending => "Sending"
  | sent => "Sent"
  | disconnecting => "Disconnecting"

/-- The state's name in capitals, as messages show it. -/
def name (s : SlotState) : String := s.word.toUpper

/-- Connected with nothing outstanding. -/
def isIdle : SlotState → Bool
  | accepted | received | sent => true
  | _ => false

/-- The kernel has an operation of the slot. -/
def isPending : SlotState → Bool
  | receiving | sending | disconnecting => true
  | _ => false

/-- A receive may start: not twice in a row without a send between. -/
def canReceive : SlotState → Bool
  | accepted | sent => true
  | _ => false

/-- A send may start. -/
def canSend (s : SlotState) : Bool := s.isIdle

/-- The connection may be closed at once. -/
def canDisconnect (s : SlotState) : Bool := s.isIdle

@[simp] theorem ofCode_code (s : SlotState) : ofCode s.code = s := by cases s <;> rfl

end SlotState

end SlotServer
