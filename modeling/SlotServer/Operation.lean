/-!
# Operations and their completions

What a worker asks of the kernel, and what it hears back. An operation and its completion carry the same context, which
names the slot.

- `Context.ofSlot`, `Context.slot`: a context is the number of its slot;
- `Op`: receive, send and close;
- `Completion`: the answer to one operation.
-/

namespace SlotServer

/-- What ties a completion to its operation. -/
structure Context where
  raw : UInt64
  deriving DecidableEq, Repr, Inhabited

namespace Context

/-- The context of the wake-up read. -/
def wake : Context := ⟨0xffffffffffffffff⟩

/-- The context of a slot. -/
def ofSlot (slot : Nat) : Context := ⟨UInt64.ofNat (slot % 0x100000000)⟩

/-- The slot that a context names: its low 32 bits. -/
def slot (c : Context) : Nat := c.raw.toNat % 0x100000000

/-- The context is that of the wake-up read. -/
def isWake (c : Context) : Bool := c = wake

/-- The context with its number. -/
def debug (c : Context) : String := s!"RequestContext({c.raw})"

@[simp] theorem slot_ofSlot (i : Nat) : (ofSlot i).slot = i % 0x100000000 := by
  simp only [slot, ofSlot, UInt64.toNat_ofNat']
  omega

end Context

/-- An operation on a socket. Buffers are places in the worker's region. -/
inductive Op
  /-- Receive up to `length` bytes. -/
  | receive (ctx : Context) (fd : Int) (offset length : Nat) (bufIndex : UInt16)
  /-- Send `length` bytes. -/
  | send (ctx : Context) (fd : Int) (offset length : Nat) (bufIndex : UInt16)
  /-- Close the socket. -/
  | close (ctx : Context) (fd : Int)
  deriving DecidableEq, Repr

namespace Op

/-- The context that the completion will carry. -/
def ctx : Op → Context
  | receive ctx .. | send ctx .. | close ctx _ => ctx

/-- The descriptor that is operated on. -/
def fd : Op → Int
  | receive _ fd .. | send _ fd .. | close _ fd => fd

/-- The name of the operation. -/
def name : Op → String
  | receive .. => "receive"
  | send .. => "send"
  | close .. => "close"

end Op

/-- The answer to an operation: a byte count or a negated error number. -/
structure Completion where
  ctx : Context
  result : Int32
  flags : UInt32
  deriving DecidableEq, Repr, Inhabited

namespace Completion

/-- What a batch holds before it is filled. -/
def empty : Completion := ⟨⟨0⟩, 0, 0⟩

/-- The operation failed. -/
def isError (c : Completion) : Bool := c.result < 0

/-- The completion with its fields. -/
def debug (c : Completion) : String :=
  s!"IoCompletion \x7b ctx: {c.ctx.debug}, result: {c.result}, flags: {c.flags} \x7d"

end Completion

end SlotServer
