import SlotServer.Buffer.Segment
import SlotServer.Error

/-!
# Registered pools

One region of memory per worker, registered with the kernel as a whole and cut into segments of one length. The
region's bytes are a function from places to bytes, all zero at first.

- `Pool.create`: map and register a region;
- `Pool.segment`: the segment of a number;
- `Pool.read`, `Pool.write`, `Pool.fill`: the bytes of a segment;
- `length_bytesAt`: a reading has as many bytes as were asked for.
-/

namespace SlotServer

/-- A region registered with the kernel. -/
structure Pool where
  segmentLength : Nat
  segmentCount : Nat
  /-- The number of the region with the kernel. -/
  bufIndex : UInt16
  /-- The registration has not been undone. -/
  registered : Bool
  /-- The byte at each place. -/
  bytes : Nat → UInt8

namespace Pool

/-- The system's number for memory that is not there. -/
def outOfMemory : Int32 := 12

/-- The size of the region. -/
def regionLength (p : Pool) : Nat := p.segmentLength * p.segmentCount

/-- The size of a region of `count` segments, if it can be mapped: `limit` is the size from which on none can. -/
def map (limit segmentLength count : Nat) : Except Error Nat :=
  if segmentLength = 0 then .error (.invalidConfig "segment length must be non-zero")
  else if count = 0 then .error (.invalidConfig "segment count must be non-zero")
  else if wordCount ≤ segmentLength * count then .error (.invalidConfig "buffer region too large")
  else if limit ≤ segmentLength * count then .error (.bufferAlloc outOfMemory)
  else .ok (segmentLength * count)

/-- Every failure to register is told as one, with the error number it came with or zero. -/
def registerError (e : Error) : Error := .bufferRegister (e.errno?.getD 0)

/-- Map a region of `count` segments and register it. Without a registration there is no mapping either. -/
def create {m : Type → Type} [Monad m] (register : Nat → m (Except Error UInt16)) (limit segmentLength count : Nat) :
    m (Except Error Pool) := do
  match map limit segmentLength count with
  | .error e => return .error e
  | .ok size =>
    match ← register size with
    | .error e => return .error (registerError e)
    | .ok bufIndex => return .ok ⟨segmentLength, count, bufIndex, true, fun _ => 0⟩

/-- What the log says of a new pool; `place` stands for its address. -/
def createdLine (p : Pool) (place : String) : String :=
  s!"registered pool: {p.segmentCount} x {p.segmentLength} bytes at {place} (index {p.bufIndex})"

/-- What the log says where a registered pool goes away. -/
def droppedLine : String := "registered pool dropped while still registered"

/-- Segment `index` of the pool. -/
def segment (p : Pool) (index : Nat) : Except Fault Segment :=
  if p.segmentCount ≤ index then .error (.segmentOutOfRange index)
  else (checkedMul index p.segmentLength).map fun offset => ⟨p.bufIndex, offset, p.segmentLength⟩

/-- The place of a segment's first byte. The segment has to end inside the region. -/
def place (p : Pool) (s : Segment) : Except Fault Nat := do
  if p.regionLength < (← s.stop) then throw .beyondRegion
  return s.offset

/-- The first `count` bytes from a place on. -/
def bytesAt (p : Pool) (offset count : Nat) : List UInt8 :=
  (List.range count).map fun i => p.bytes (offset + i)

/-- The pool with bytes put at a place. -/
def put (p : Pool) (offset : Nat) (data : Array UInt8) : Pool :=
  { p with bytes := fun i => if offset ≤ i then data[i - offset]?.getD (p.bytes i) else p.bytes i }

/-- The bytes of a segment. -/
def read (p : Pool) (s : Segment) : Except Fault (List UInt8) :=
  (p.place s).map fun offset => p.bytesAt offset s.length

/-- The pool with bytes put into a segment, as many as fit, and their count. -/
def write (p : Pool) (s : Segment) (data : Array UInt8) : Except Fault (Nat × Pool) :=
  (p.place s).map fun offset =>
    let data := data.take s.length
    (data.size, p.put offset data)

/-- The pool with every byte of a segment the same. -/
def fill (p : Pool) (s : Segment) (byte : UInt8) : Except Fault Pool :=
  (p.place s).map fun offset =>
    { p with bytes := fun i => if offset ≤ i && i < offset + s.length then byte else p.bytes i }

theorem length_bytesAt (p : Pool) (offset count : Nat) : (p.bytesAt offset count).length = count := by
  simp [bytesAt]

end Pool

end SlotServer
