import SlotServer.Buffer.Pool
import SlotServer.EventCounter
import SlotServer.Ring.Queues

/-!
# Streams behind a ring

What the kernel does with the entries of a ring: streams of bytes between our end and another one, a table of
descriptors that always gives out the least free number, and the wake-up counter. An entry that has nothing to read
waits until it has.

- `Host.attempt`: try an entry;
- `Host.openStream`, `Host.feed`, `Host.drain`, `Host.hangUp`: the other end.
-/

namespace SlotServer

/-- The two ends of a stream. -/
inductive Side
  | ours
  | theirs
  deriving DecidableEq, Repr

/-- A stream of bytes between two ends. -/
structure Stream where
  /-- Bytes go only from their end to ours. -/
  oneWay : Bool
  /-- The number that our end was given. -/
  fd : Nat
  /-- What our end has yet to read. -/
  inward : List UInt8 := []
  /-- What their end has yet to read. -/
  outward : List UInt8 := []
  /-- Their end writes no more. -/
  hungUp : Bool := false
  deriving Repr

/-- Streams, descriptors and the wake-up counter. -/
structure Host where
  streams : List Stream := []
  /-- What each descriptor stands for. -/
  table : List (Option (Nat × Side)) := []
  counter : EventCounter := {}
  /-- Entries that wait, by number: the stream and end that they read. -/
  waiting : List (Nat × Nat × Side) := []

namespace Host

/-- The system's number for a descriptor that is not open, or not for this use. -/
def badDescriptor : Int32 := -9

/-- The system's number for memory that is not there to use. -/
def badMemory : Int32 := -14

/-- The system's number for an end that nobody reads. -/
def brokenStream : Int32 := -32

/-- Give out the least free descriptor. -/
def allocate (h : Host) (meaning : Nat × Side) : Nat × Host :=
  match h.table.findIdx? (·.isNone) with
  | some fd => (fd, { h with table := h.table.set fd (some meaning) })
  | none => (h.table.length, { h with table := h.table ++ [some meaning] })

/-- A new stream; the answer is its number. -/
def openStream (h : Host) (oneWay : Bool) : Nat × Host :=
  let k := h.streams.length
  let (fd, h) := h.allocate (k, .ours)
  let (_, h) := h.allocate (k, .theirs)
  (k, { h with streams := h.streams ++ [{ oneWay, fd }] })

/-- What a descriptor stands for. -/
def resolve (h : Host) (fd : Int) : Option (Nat × Side) :=
  if fd < 0 then none else (h.table[fd.toNat]?).join

/-- An end of a stream is open, or an entry waits on it. -/
def isOpen (h : Host) (k : Nat) (side : Side) : Bool :=
  h.table.contains (some (k, side)) || h.waiting.any (·.2 = (k, side))

/-- Change a stream. -/
def modify (h : Host) (k : Nat) (f : Stream → Stream) : Host := { h with streams := h.streams.modify k f }

/-- Read from an end: the bytes, or nothing where they have to be waited for. -/
def read (h : Host) (k : Nat) (side : Side) (length : Nat) : Option (List UInt8) × Host :=
  match h.streams[k]? with
  | none => (some [], h)
  | some s =>
    match side with
    | .ours =>
      if length = 0 then (some [], h)
      else if !s.inward.isEmpty then
        (some (s.inward.take length), h.modify k fun s => { s with inward := s.inward.drop length })
      else if s.hungUp || !h.isOpen k .theirs then (some [], h)
      else (none, h)
    | .theirs =>
      if length = 0 then (some [], h)
      else if !s.outward.isEmpty then
        (some (s.outward.take length), h.modify k fun s => { s with outward := s.outward.drop length })
      else if !h.isOpen k .ours then (some [], h)
      else (none, h)

/-- Write to the other end. -/
def write (h : Host) (k : Nat) (side : Side) (data : List UInt8) : Except Int32 Host :=
  match h.streams[k]? with
  | none => .error badDescriptor
  | some s =>
    match side with
    | .ours =>
      if data.isEmpty then .ok h
      else if !h.isOpen k .theirs then .error brokenStream
      else .ok (h.modify k fun s => { s with outward := s.outward ++ data })
    | .theirs =>
      if data.isEmpty then .ok h
      else if s.hungUp || !h.isOpen k .ours then .error brokenStream
      else .ok (h.modify k fun s => { s with inward := s.inward ++ data })

/-- The end can be read. -/
def isReadable (h : Host) (k : Nat) (side : Side) : Bool :=
  side = .ours || !(h.streams[k]?.any (·.oneWay))

/-- The end can be written. -/
def isWritable (h : Host) (k : Nat) (side : Side) : Bool :=
  side = .theirs || !(h.streams[k]?.any (·.oneWay))

/-- The memory of an operation belongs to the registered region. -/
def hasMemory (pool : Option Pool) (registered : Bool) (offset length : Nat) (bufIndex : UInt16) : Bool :=
  registered && bufIndex = 0 && pool.any fun p => offset + length ≤ p.regionLength

/-- What a try comes to: the result with the pool after it, or nothing where the entry has to wait. -/
abbrev Attempt := Option (Int32 × Option Pool) × Host

/-- Try to read into the region; `number` is that of the entry. -/
def attemptRead (h : Host) (pool : Option Pool) (number k : Nat) (side : Side) (offset length : Nat) : Attempt :=
  match h.read k side length with
  | (none, h) =>
    (none, if h.waiting.any (·.1 = number) then h else { h with waiting := h.waiting ++ [(number, k, side)] })
  | (some data, h) =>
    (some (Int32.ofNat data.length, pool.map (·.put offset data.toArray)),
      { h with waiting := h.waiting.filter (·.1 ≠ number) })

/-- Try an entry. A descriptor is looked up the first time only; then come its memory and its use. -/
def attempt (h : Host) (pool : Option Pool) (registered : Bool) (number : Nat) (e : Entry) : Attempt :=
  match e.work with
  | .wakeRead =>
    match h.counter.read with
    | (.counted _, counter) => (some (Int32.ofNat EventCounter.wordBytes, pool), { h with counter })
    | _ => (none, h)
  | .op (.close _ fd) =>
    match h.resolve fd with
    | none => (some (badDescriptor, pool), h)
    | some _ => (some (0, pool), { h with table := h.table.set fd.toNat none })
  | .op (.receive _ fd offset length bufIndex) =>
    match h.waiting.lookup number with
    | some (k, side) => h.attemptRead pool number k side offset length
    | none =>
      match h.resolve fd with
      | none => (some (badDescriptor, pool), h)
      | some (k, side) =>
        if !hasMemory pool registered offset length bufIndex then (some (badMemory, pool), h)
        else if !h.isReadable k side then (some (badDescriptor, pool), h)
        else h.attemptRead pool number k side offset length
  | .op (.send _ fd offset length bufIndex) =>
    match h.resolve fd with
    | none => (some (badDescriptor, pool), h)
    | some (k, side) =>
      if !hasMemory pool registered offset length bufIndex then (some (badMemory, pool), h)
      else if !h.isWritable k side then (some (badDescriptor, pool), h)
      else
        match h.write k side ((pool.map (·.bytesAt offset length)).getD []) with
        | .ok h => (some (Int32.ofNat length, pool), h)
        | .error e => (some (e, pool), h)

/-- Write at the other end of a stream. The answer is the count of bytes, or -1. -/
def feed (h : Host) (k : Nat) (data : List UInt8) : Int × Host :=
  match h.write k .theirs data with
  | .ok h => (data.length, h)
  | .error _ => (-1, h)

/-- Read everything at the other end of a stream, or nothing where there is nothing yet, or ever. -/
def drain (h : Host) (k : Nat) : Option (List UInt8) × Host :=
  match h.streams[k]? with
  | none => (none, h)
  | some s => if s.oneWay then (none, h) else h.read k .theirs (s.outward.length + 1)

/-- The other end of a stream writes no more. Only a stream that goes both ways can be shut in one of them. -/
def hangUp (h : Host) (k : Nat) : Bool × Host :=
  if h.streams[k]?.any (!·.oneWay) then (true, h.modify k fun s => { s with hungUp := true }) else (false, h)

end Host

end SlotServer
