/-!
# Faults

A fault ends the step that meets it and leaves the state as it was built up to that point. Errors that a caller
can act on are values of `SlotServer.Error`; faults are the ones no caller handles.

- `Fault.message` is the wording, one line for each cause;
- `checkedAdd` and `checkedMul` are the sums and products of sizes, which are 64-bit words;
- `checkedTime` is a time after another one, both of them in milliseconds.
-/

namespace SlotServer

/-- A table that a worker lays out before it starts. -/
inductive Table
  /-- The slots. -/
  | slots
  /-- The queue of free slots. -/
  | free
  /-- The queue of commands. -/
  | inbox
  /-- The completions that are taken at a time. -/
  | batch
  deriving DecidableEq, Repr

/-- Why a step was cut short. -/
inductive Fault
  /-- A sum of sizes or counters left its word. -/
  | addOverflow
  /-- A product of sizes left its word. -/
  | mulOverflow
  /-- The least 32-bit number has no negation. -/
  | negOverflow
  /-- A time was later than a clock can tell. -/
  | timeOverflow
  /-- A segment was split beyond its end. -/
  | headBeyondSegment
  /-- A pool has no segment of this index. -/
  | segmentOutOfRange (index : Nat)
  /-- A segment ends outside the region of its pool. -/
  | beyondRegion
  /-- A cell received a second outcome in one use. -/
  | completedTwice
  /-- A lease was given back that nobody held. -/
  | leaseUnderflow (slot : Nat)
  /-- More bytes were asked of a view than it shows. -/
  | beyondView (stop length : Nat)
  /-- A batch of completions does not fit the address space. -/
  | batchTooLarge
  /-- There is no room on the heap for a table. -/
  | noRoom (table : Table)
  /-- A command waits for room in an inbox that nobody empties. -/
  | inboxStalled
  /-- A client found no way to the server. -/
  | unreachable
  deriving DecidableEq, Repr

/-- The wording of a fault. -/
def Fault.message : Fault → String
  | .addOverflow => "attempt to add with overflow"
  | .mulOverflow => "attempt to multiply with overflow"
  | .negOverflow => "attempt to negate with overflow"
  | .timeOverflow => "overflow when adding duration to instant"
  | .headBeyondSegment => "assertion failed: head <= self.length"
  | .segmentOutOfRange index => s!"segment {index} out of range"
  | .beyondRegion => "assertion failed: desc.end() <= self.len"
  | .completedTwice => "completion cell completed twice"
  | .leaseUnderflow slot => s!"slot {slot} lease underflow"
  | .beyondView stop length => s!"range end index {stop} out of range for slice of length {length}"
  | .batchTooLarge => "capacity overflow"
  | .noRoom _ => "memory allocation failed"
  | .inboxStalled => "inbox full"
  | .unreachable =>
    "called `Result::unwrap()` on an `Err` value: Os \x7b code: 101, kind: NetworkUnreachable, " ++
      "message: \"Network is unreachable\" \x7d"

/-- The number of values of a 64-bit word. -/
def wordCount : Nat := 0x10000000000000000

/-- The sum of two sizes. -/
def checkedAdd (a b : Nat) : Except Fault Nat :=
  if a + b < wordCount then .ok (a + b) else .error .addOverflow

/-- The product of two sizes. -/
def checkedMul (a b : Nat) : Except Fault Nat :=
  if a * b < wordCount then .ok (a * b) else .error .mulOverflow

/-- The number of milliseconds that a clock can tell: it counts its seconds in 64 bits with a sign. -/
def timeCount : Nat := 0x8000000000000000 * 1000

/-- The time that comes `span` after `now`. -/
def checkedTime (now span : Nat) : Except Fault Nat :=
  if now + span < timeCount then .ok (now + span) else .error .timeOverflow

/-- The low 32 bits of a number: what a request context keeps of a slot number. -/
def low32 (n : Nat) : Nat := n % 0x100000000

end SlotServer
