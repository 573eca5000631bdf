import SlotServer.Error

/-!
# Event counters

The counter that a worker's wake-up read waits on. Writing adds to it, reading takes all of it.

- `EventCounter.write`: add a number, refused where the counter cannot hold the sum;
- `EventCounter.notify`: add one; a full counter needs no more, since a wake-up is already pending;
- `EventCounter.read`: take everything.
-/

namespace SlotServer

/-- A counter that can be waited on. -/
structure EventCounter where
  count : Nat := 0
  isOpen : Bool := true
  deriving DecidableEq, Repr

namespace EventCounter

/-- The greatest count that a counter holds. -/
def greatest : Nat := 0xfffffffffffffffe

/-- The bytes of a number that is written or read. -/
def wordBytes : Nat := 8

/-- The system's number for a descriptor that is not open. -/
def badDescriptor : Int32 := 9

/-- The system's number for a counter without room. -/
def wouldBlock : Int32 := 11

/-- The system's number for a value that is never written. -/
def invalidArgument : Int32 := 22

/-- The system's number for a table of descriptors without room. -/
def tooManyFiles : Int32 := 24

/-- Add a number below `2 ^ 64`, without waiting for room. -/
def write (c : EventCounter) (n : Nat) : Except Int32 EventCounter :=
  if !c.isOpen then .error badDescriptor
  else if greatest < n then .error invalidArgument
  else if greatest < c.count + n then .error wouldBlock
  else .ok { c with count := c.count + n }

/-- Add one. -/
def notify (c : EventCounter) : Except Error Unit × EventCounter :=
  match c.write 1 with
  | .ok c => (.ok (), c)
  | .error e => (if e = wouldBlock then .ok () else .error (.notifier e), c)

/-- Add one, so many times. The answer is the last one. -/
def notifyTimes (c : EventCounter) : Nat → Except Error Unit × EventCounter
  | 0 => (.ok (), c)
  | 1 => c.notify
  | n + 1 => (c.notify).2.notifyTimes n

/-- What a reading finds. -/
inductive Reading
  | closed
  | empty
  | counted (n : Nat)
  deriving DecidableEq, Repr

/-- Take everything. -/
def read (c : EventCounter) : Reading × EventCounter :=
  if !c.isOpen then (.closed, c)
  else if c.count = 0 then (.empty, c)
  else (.counted c.count, { c with count := 0 })

/-- Close the descriptor, if it is open. -/
def close (c : EventCounter) : Bool × EventCounter := (c.isOpen, { c with isOpen := false })

end EventCounter

end SlotServer
