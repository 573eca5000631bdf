import SlotServer.Buffer.Pool
import SlotServer.Kernel.Memory
import SlotServer.Log

/-!
# Pools on the bench

Pools by number over a registry that only keeps books: it hands out indices in a row, or fails once where it is told to.

- `Pools.create`, `Pools.drop`, `Pools.deregister`: the life of a pool;
- `Pools.answer`: what a pool says of one of its segments.
-/

namespace SlotServer.Bench

/-- A call of the registry. -/
inductive RegistryCall
  | register (length : Nat)
  | unregister
  deriving DecidableEq, Repr

/-- The call with its length. -/
def RegistryCall.text : RegistryCall → String
  | .register length => s!"register {length}"
  | .unregister => "unregister"

/-- Pools by number, and the books of their registry. -/
structure Pools where
  /-- The index that is handed out next. -/
  nextIndex : UInt16
  /-- How the next call of the registry fails. -/
  failure : Option Error := none
  /-- The calls of the registry, the latest first. -/
  calls : List RegistryCall := []
  /-- The lines of the log, the latest first. -/
  log : List (LogLevel × String) := []
  pools : List (Int × Pool) := []

/-- Work on pools. -/
abbrev PoolsM := StateM Pools

namespace Pools

/-- Write a line. -/
def say (level : LogLevel) (message : String) : PoolsM Unit :=
  modify fun b => { b with log := (level, message) :: b.log }

/-- The failure that the registry was told, taken away. -/
def takeFailure : PoolsM (Option Error) :=
  modifyGet fun b => (b.failure, { b with failure := none })

/-- Register a region. -/
def register (length : Nat) : PoolsM (Except Error UInt16) := do
  modify fun b => { b with calls := .register length :: b.calls }
  match ← takeFailure with
  | some e => return .error e
  | none => modifyGet fun b => (.ok b.nextIndex, { b with nextIndex := b.nextIndex + 1 })

/-- Undo every registration. -/
def unregister : PoolsM (Except Error Unit) := do
  modify fun b => { b with calls := .unregister :: b.calls }
  match ← takeFailure with
  | some e => return .error e
  | none => return .ok ()

/-- What stands for an address in the log. -/
def somePlace : String := "PTR"

/-- Drop the pool of a number, if there is one. -/
def drop (p : Int) : PoolsM Bool := do
  match (← get).pools.lookup p with
  | none => return false
  | some pool =>
    if pool.registered then say .warn Pool.droppedLine
    modify fun b => { b with pools := b.pools.filter (·.1 ≠ p) }
    return true

/-- Create a pool under a number. It takes the place of an older one, which is dropped. -/
def create (p : Int) (segmentLength count : Nat) : PoolsM (Except Error Pool) := do
  match ← Pool.create register addressLimit segmentLength count with
  | .error e => return .error e
  | .ok pool =>
    say .debug (pool.createdLine somePlace)
    discard <| drop p
    modify fun b => { b with pools := (p, pool) :: b.pools }
    return .ok pool

/-- Put another pool under a number. -/
def put (p : Int) (pool : Pool) : PoolsM Unit :=
  modify fun b => { b with pools := b.pools.map fun (q, old) => (q, if q = p then pool else old) }

/-- Undo the registration of a pool; only the first time has an effect. -/
def deregister (p : Int) (pool : Pool) : PoolsM (Except Error Unit) := do
  if !pool.registered then return .ok ()
  put p { pool with registered := false }
  unregister

end Pools

/-- A question to a pool about a segment. -/
inductive SegmentRequest
  | describe
  /-- How far its first byte is from that of segment 0. -/
  | distance
  | write (data : Array UInt8)
  | fill (byte : UInt8)
  | read
  /-- Its bytes in two parts. -/
  | splitRead (head : Nat)

/-- What a pool says of a segment. -/
inductive SegmentAnswer
  | segment (s : Segment)
  | count (n : Nat)
  | done
  | bytes (data : List UInt8)
  | parts (head tail : List UInt8)

/-- The segment that is asked about: by number, or by place. -/
inductive SegmentName
  | index (i : Nat)
  | window (offset length : Nat)

namespace Pools

/-- The segment of a name. -/
def resolve (pool : Pool) : SegmentName → Except Fault Segment
  | .index i => pool.segment i
  | .window offset length => .ok ⟨pool.bufIndex, offset, length⟩

/-- What a pool says of one of its segments, and the pool after it. -/
def answer (pool : Pool) (name : SegmentName) (request : SegmentRequest) : Except Fault (SegmentAnswer × Pool) := do
  let s ← resolve pool name
  match request with
  | .describe => return (.segment s, pool)
  | .distance => return (.count (← pool.place s), pool)
  | .write data =>
    let (n, pool) ← pool.write s data
    return (.count n, pool)
  | .fill byte => return (.done, ← pool.fill s byte)
  | .read => return (.bytes (← pool.read s), pool)
  | .splitRead head =>
    let (a, b) ← s.split head
    return (.parts (← pool.read a) (← pool.read b), pool)

/-- Ask a pool about one of its segments. -/
def onSegment (p : Int) (pool : Pool) (name : SegmentName) (request : SegmentRequest) :
    PoolsM (Except Fault SegmentAnswer) := do
  match answer pool name request with
  | .error fault => return .error fault
  | .ok (answer, pool) =>
    put p pool
    return .ok answer

end Pools

end SlotServer.Bench
