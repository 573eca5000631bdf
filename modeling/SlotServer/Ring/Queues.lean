import SlotServer.Error
import SlotServer.Fault
import SlotServer.Kernel.Memory
import SlotServer.Operation

/-!
# Rings

A ring is a queue of entries on their way to the kernel and a queue of completions on their way back. One entry, the
wake-up read, is the ring's own: its completion carries the context `Context.wake`, is never handed out, and tells that
the read is no longer outstanding.

- `Ring.setup`: the sizes of the queues;
- `Ring.lock`: the memory of the queues;
- `Ring.push`, `Ring.arm`: an entry for the kernel, handing the queue over first where it is full;
- `Ring.enter`: hand the queue over;
- `Ring.complete`: the kernel answers an entry that it was handed;
- `Ring.poll`: take completions out;
- `Ring.release`: let go of everything.
-/

namespace SlotServer

/-- What an entry asks for. -/
inductive Work
  | op (op : Op)
  | wakeRead
  deriving DecidableEq, Repr

/-- An entry of the submission queue. -/
structure Entry where
  ctx : Context
  work : Work
  deriving DecidableEq, Repr

/-- The two queues of a ring, and what the kernel was handed and has not answered. -/
structure Ring where
  /-- The places of the submission queue. -/
  capacity : Nat
  /-- The places of the completion queue. -/
  completionCapacity : Nat
  submission : List Entry := []
  /-- The entries that the kernel has, each with its number in the order in which they were handed over. -/
  pending : List (Nat × Entry) := []
  /-- How many entries the kernel was handed. -/
  handed : Nat := 0
  completion : List Completion := []
  /-- Completions that found no place. -/
  overflow : List Completion := []
  /-- The ring believes that a wake-up read is outstanding. -/
  armed : Bool := false
  /-- Operations queued less completions taken out. -/
  inflight : Nat := 0
  /-- A region is registered. -/
  registered : Bool := false
  /-- How often the queue was handed over. -/
  enters : Nat := 0
  /-- What the hand-over of a number, from zero, fails with. -/
  refusals : Nat → Option Int32 := fun _ => none

namespace Ring

/-- The system's number for sizes that a ring cannot have. -/
def invalidArgument : Int32 := 22

/-- The system's number for a second registration. -/
def busy : Int32 := 16

/-- The system's number for a table of descriptors without room. -/
def tooManyFiles : Int32 := 24

/-- The greatest submission queue. -/
def mostEntries : Nat := 32768

/-- The greatest completion queue. -/
def mostCompletions : Nat := 65536

/-- The least power of two that is not less. -/
def roundUp (n : Nat) : Nat := if n ≤ 1 then 1 else 1 <<< ((n - 1).log2 + 1)

/-- The default size of a completion queue, twice the entries. It has to fit 32 bits even where it is not used. -/
def defaultCompletions (entries : Nat) : Except Fault Nat :=
  if 0x100000000 ≤ 2 * entries then .error .mulOverflow else .ok (2 * entries)

/-- A ring with a submission queue of `entries` places and a completion queue of `completions`, both rounded up to
powers of two. -/
def ofSizes (entries completions : Nat) : Except Error Ring :=
  if entries = 0 || mostEntries < entries || completions = 0 || mostCompletions < completions ||
      roundUp completions < roundUp entries then .error (.ringSetup invalidArgument)
  else .ok { capacity := roundUp entries, completionCapacity := roundUp completions }

/-- A ring of the sizes asked for. -/
def setup (entries : Nat) (completions : Option Nat) : Except Fault (Except Error Ring) :=
  (defaultCompletions entries).map fun n => ofSizes entries (completions.getD n)

/-- The bytes of an entry of the submission queue. -/
def entryBytes : Nat := 64

/-- The bytes of the entries. -/
def entriesLength (r : Ring) : Nat := entryBytes * r.capacity

/-- The bytes of the queues: a head of 64, 16 for each completion, and 4 for each entry after whole lines of 64. -/
def queuesLength (r : Ring) : Nat := (64 + 16 * r.completionCapacity + 63) / 64 * 64 + 4 * r.capacity

/-- The memory after that of the ring is kept there. -/
def lock (r : Ring) (m : Memory) : Except Int32 Memory := do
  (← m.lock r.queuesLength).lock r.entriesLength

/-- The submission queue has no place. -/
def isFull (r : Ring) : Bool := r.capacity ≤ r.submission.length

/-- Hand the submission queue over. The answer is how many entries that were. -/
def enter (r : Ring) : Except Error Nat × Ring :=
  let r' := { r with enters := r.enters + 1 }
  match r.refusals r.enters with
  | some e => (.error (.submit e), r')
  | none =>
    let numbered := r.submission.zipIdx r.handed |>.map fun (e, n) => (n, e)
    (.ok r.submission.length,
      { r' with submission := [], pending := r.pending ++ numbered, handed := r.handed + r.submission.length })

/-- Put an entry into the submission queue, if there is a place. -/
def place (r : Ring) (e : Entry) : Except Error Unit × Ring :=
  if r.isFull then (.error .ringFull, r) else (.ok (), { r with submission := r.submission ++ [e] })

/-- Put an entry into the submission queue, which is handed over first where it is full. -/
def pushEntry (r : Ring) (e : Entry) : Except Error Unit × Ring :=
  if r.isFull then
    match r.enter with
    | (.error e, r) => (.error e, r)
    | (.ok _, r) => r.place e
  else r.place e

/-- Queue an operation. -/
def push (r : Ring) (op : Op) : Except Error Unit × Ring :=
  match r.pushEntry ⟨op.ctx, .op op⟩ with
  | (.error e, r) => (.error e, r)
  | (.ok _, r) => (.ok (), { r with inflight := r.inflight + 1 })

/-- Leave a wake-up read, unless one is believed to be outstanding. -/
def arm (r : Ring) : Except Error Unit × Ring :=
  if r.armed then (.ok (), r)
  else
    match r.pushEntry ⟨.wake, .wakeRead⟩ with
    | (.error e, r) => (.error e, r)
    | (.ok _, r) => (.ok (), { r with armed := true })

/-- Put a completion at the end of its queue, behind those that found no place. -/
def post (r : Ring) (c : Completion) : Ring :=
  if r.overflow.isEmpty && r.completion.length < r.completionCapacity then
    { r with completion := r.completion ++ [c] }
  else { r with overflow := r.overflow ++ [c] }

/-- The kernel answers the entry of a number. -/
def complete (r : Ring) (number : Nat) (result : Int32) : Ring :=
  match r.pending.lookup number with
  | none => r
  | some e => { r with pending := r.pending.filter (·.1 ≠ number) }.post ⟨e.ctx, result, 0⟩

/-- Completions that found no place move up. -/
def moveUp (r : Ring) : Ring :=
  let room := r.completionCapacity - r.completion.length
  { r with completion := r.completion ++ r.overflow.take room, overflow := r.overflow.drop room }

/-- Take up to `most` completions off a queue: those taken, those left, and whether the wake-up read is still
outstanding if it was. -/
def takeOff : Nat → List Completion → Bool → List Completion × List Completion × Bool
  | _, [], armed => ([], [], armed)
  | 0, cs, armed => ([], cs, armed)
  | n + 1, c :: cs, armed =>
    if c.ctx.isWake then takeOff (n + 1) cs false
    else
      let (taken, rest, armed) := takeOff n cs armed
      (c :: taken, rest, armed)

/-- Take up to `most` completions out. Those of wake-up reads on the way are swallowed. -/
def poll (r : Ring) (most : Nat) : List Completion × Ring :=
  let (taken, completion, armed) := takeOff most r.completion r.armed
  (taken, { r with completion, armed, inflight := r.inflight - taken.length })

/-- Register a region, if none is. -/
def register (r : Ring) : Except Error UInt16 × Ring :=
  if r.registered then (.error (.bufferRegister busy), r) else (.ok 0, { r with registered := true })

/-- Undo the registration, if there is one. -/
def unregister (r : Ring) : Ring := { r with registered := false }

/-- Take every completion out, undo the registration and count nothing any more. -/
def release (r : Ring) : Ring :=
  let (_, completion, armed) := takeOff (r.completion.length + 1) r.completion r.armed
  { r.unregister with completion, armed, inflight := 0 }

end Ring

end SlotServer
