import SlotServer.Buffer.Pool
import SlotServer.Config
import SlotServer.Counters
import SlotServer.Kernel.Memory
import SlotServer.Slot
import SlotServer.Worker.Command

/-!
# Workers

A worker owns a table of slots over one registered pool, the queue of its free slots and the inbox of its dispatch
loop. Every slot starts free, and the table never grows.

- `Worker.allocate`: room for the tables of a worker;
- `Worker.ofPool`: the worker over a pool;
- `Worker.free`, `Worker.inbox`: queues with the oldest entry first, of one and two places for each slot.
-/

namespace SlotServer

/-- A worker. -/
structure Worker where
  id : Nat
  slots : List Slot
  /-- The free slots. -/
  free : List Nat
  /-- The commands that wait for the dispatch loop. -/
  inbox : List Command := []
  pool : Pool
  counters : Counters := {}
  useNagle : Bool
  /-- The worker was asked to stop. -/
  stopping : Bool := false
  /-- The dispatch loop has come to its end: nobody empties the inbox any more. -/
  exited : Bool := false
  /-- How many completions are taken at a time. -/
  batch : Nat
  /-- How long the worker drains, in milliseconds. -/
  grace : Nat
  /-- The time at which the drain is given up, once it has begun. -/
  deadline : Option Nat := none

namespace Worker

/-- The slots over the segments of a pool. -/
def slotsOver (pool : Pool) (receiveLength : Nat) : Except Fault (List Slot) :=
  (List.range pool.segmentCount).mapM fun i => do
    Slot.ofSegment (low32 i) (← pool.segment i) receiveLength

/-- The bytes of a completion in a batch. -/
def completionBytes : Nat := 16

/-- Room for the tables of a worker of `count` slots, one table after the other. -/
def allocate (config : Config) (memory : Memory) (count : Nat) : Except Fault Unit := do
  memory.allocate .slots count
  memory.allocate .free count
  memory.allocate .inbox (2 * count)
  if wordCount ≤ 2 * (completionBytes * max config.batch 1) then throw .batchTooLarge
  memory.allocate .batch (max config.batch 1)

/-- The worker over a pool, with every slot free, on a machine of such memory. -/
def ofPool (id : Nat) (config : Config) (memory : Memory) (pool : Pool) : Except Fault Worker := do
  allocate config memory pool.segmentCount
  let slots ← slotsOver pool config.receiveLength
  return {
    id, slots, pool
    free := (List.range pool.segmentCount).map low32
    useNagle := config.useNagle
    batch := max config.batch 1
    grace := config.grace }

/-- The places of the queue of free slots. -/
def freeCapacity (w : Worker) : Nat := w.slots.length

/-- The places of the inbox. -/
def inboxCapacity (w : Worker) : Nat := 2 * w.slots.length

/-- The inbox has no place left. -/
def inboxFull (w : Worker) : Bool := w.inboxCapacity ≤ w.inbox.length

/-- The worker was asked to stop, and has not begun to drain. -/
def isToDrain (w : Worker) : Bool := w.deadline.isNone && w.stopping

/-- How many completions the loop waits for when it hands the queue over. It waits if it may, unless it drains, and only
where a wake-up read is outstanding. -/
def waitsFor (w : Worker) (block armed : Bool) : Nat := if block && w.deadline.isNone && armed then 1 else 0

/-- The worker with another slot in the place of an old one. -/
def setSlot (w : Worker) (i : Nat) (s : Slot) : Worker := { w with slots := w.slots.set i s }

/-- The worker with something counted. -/
def bump (w : Worker) (counter : Counter) (n : UInt64) : Worker :=
  { w with counters := w.counters.bump counter n }

end Worker

end SlotServer
