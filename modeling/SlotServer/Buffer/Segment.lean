import SlotServer.Fault

/-!
# Segments

Windows into a registered region, as half-open ranges of bytes.

- `Segment.stop`: one past the last byte;
- `Segment.split`: the first bytes and the rest;
- `Segment.overlaps`: each of two windows of a region begins before the other one ends.
-/

namespace SlotServer

/-- A window into a registered region. -/
structure Segment where
  /-- The number of the region with the kernel. -/
  bufIndex : UInt16
  /-- The first byte, from the start of the region. -/
  offset : Nat
  /-- The count of bytes. -/
  length : Nat
  deriving DecidableEq, Repr, Inhabited

namespace Segment

/-- One past the last byte. -/
def stop (s : Segment) : Except Fault Nat := checkedAdd s.offset s.length

/-- The first `head` bytes, and those after them. -/
def split (s : Segment) (head : Nat) : Except Fault (Segment × Segment) := do
  if s.length < head then throw .headBeyondSegment
  let middle ← checkedAdd s.offset head
  return ({ s with length := head }, { s with offset := middle, length := s.length - head })

/-- The segments lie in the same region, and each begins before the other one ends. The end of the second is looked at
first, and that of the first only if the answer hangs on it. -/
def overlaps (s t : Segment) : Except Fault Bool := do
  if s.bufIndex ≠ t.bufIndex then return false
  let last ← t.stop
  if last ≤ s.offset then return false
  let last ← s.stop
  return t.offset < last

end Segment

end SlotServer
