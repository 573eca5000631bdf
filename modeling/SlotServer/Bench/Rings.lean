import SlotServer.Bench.Pools
import SlotServer.Ring.Streams

/-!
# A ring on the bench

A ring with the streams behind it and a pool registered with it. After each call the kernel goes as far as it can with
the entries that it was handed, the oldest first.

- `Rings.submit`, `Rings.push`, `Rings.arm`, `Rings.poll`: the calls of a ring;
- `Rings.createPool`: a pool registered with the ring;
- `Rings.transfer`, `Rings.onSegment`: what is done with a segment of the pool.
-/

namespace SlotServer.Bench

/-- A ring, the streams behind it and a pool. -/
structure Rings where
  ring : Ring
  host : Host := {}
  pool : Option Pool := none

namespace Rings

/-- What is done with a ring. -/
abbrev Act := StateM Rings

/-- The kernel tries an entry. -/
def tryEntry (number : Nat) (e : Entry) : Act Unit :=
  modify fun b =>
    match b.host.attempt b.pool b.ring.registered number e with
    | (none, host) => { b with host }
    | (some (result, pool), host) => { ring := b.ring.complete number result, host, pool }

/-- The kernel tries every entry that it was handed and has not answered. -/
def settle : Act Unit := do (← get).ring.pending.forM fun (number, e) => tryEntry number e

/-- A call of the ring. -/
def onRing {β : Type} (f : Ring → β × Ring) : Act β := do
  let answer ← modifyGet fun b =>
    let (answer, ring) := f b.ring
    (answer, { b with ring })
  settle
  return answer

/-- Hand the queue over. -/
def submit : Act (Except Error Nat) := do
  let answer ← onRing (·.enter)
  modify fun b => { b with ring := b.ring.moveUp }
  return answer

/-- Queue an operation. -/
def push (op : Op) : Act (Except Error Unit) := onRing (·.push op)

/-- Leave a wake-up read. -/
def arm : Act (Except Error Unit) := onRing (·.arm)

/-- Take up to `most` completions out. -/
def poll (most : Nat) : Act (List Completion) := onRing (·.poll most)

/-- Let go of everything. -/
def release : Act Unit := onRing fun r => ((), r.release)

/-- Undo the registration with the ring. -/
def unregister : Act (Except Error Unit) := onRing fun r => (.ok (), r.unregister)

/-- Register a region with the ring, if there is room for it beside the ring itself. -/
def register (length : Nat) : Act (Except Error UInt16) := do
  let ring := (← get).ring
  if !ring.registered then
    if let .error e := (ring.lock .usual).bind (·.lockRegion length) then return .error (.bufferRegister e)
  onRing (·.register)

/-- A pool registered with the ring, in the place of an older one. -/
def createPool (segmentLength count : Nat) : Act (Except Error Pool) := do
  match ← Pool.create register addressLimit segmentLength count with
  | .error e => return .error e
  | .ok pool =>
    modify fun b => { b with pool := some pool }
    return .ok pool

/-- Undo the registration of the pool; only the first time has an effect. -/
def deregister (pool : Pool) : Act (Except Error Unit) := do
  if !pool.registered then return .ok ()
  modify fun b => { b with pool := some { pool with registered := false } }
  unregister

/-- A new stream. -/
def openStream (oneWay : Bool) : Act Nat :=
  modifyGet fun b =>
    let (k, host) := b.host.openStream oneWay
    (k, { b with host })

/-- The descriptor of a stream's end, -1 where there is no such stream. -/
def descriptor (k : Option Nat) : Act Int := do
  let b ← get
  match k.bind fun k => b.host.streams[k]? with
  | some s => return s.fd
  | none => return -1

/-- Ring the wake-up counter, so many times. The answer is the last one. -/
def notify : Nat → Act (Except Error Unit)
  | 0 => return .ok ()
  | n + 1 => do
    let answer ← modifyGet fun b =>
      let (answer, counter) := b.host.counter.notify
      (answer, { b with host := { b.host with counter } })
    settle
    if n = 0 then return answer
    notify n

/-- Queue an operation on a segment of the pool: where nothing else is asked for, on the whole of it and in its own
region. -/
def transfer (pool : Pool) (operation : Nat → Nat → UInt16 → Op) (index : Nat) (length : Option Nat)
    (bufIndex : Option UInt16) : Act (Except Fault (Except Error Unit)) := do
  match pool.segment index with
  | .error fault => return .error fault
  | .ok s => return .ok (← push (operation s.offset (length.getD (low32 s.length)) (bufIndex.getD s.bufIndex)))

/-- Ask the pool about one of its segments. -/
def onSegment (pool : Pool) (index : Nat) (request : SegmentRequest) : Act (Except Fault SegmentAnswer) := do
  match Pools.answer pool (.index index) request with
  | .error fault => return .error fault
  | .ok (answer, pool) =>
    modify fun b => { b with pool := some pool }
    return .ok answer

/-- Something at the other end of a stream. -/
def onHost {β : Type} (f : Host → β × Host) : Act β := do
  let answer ← modifyGet fun b =>
    let (answer, host) := f b.host
    (answer, { b with host })
  settle
  return answer

end Rings

end SlotServer.Bench
