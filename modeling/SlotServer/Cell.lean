import SlotServer.Error
import SlotServer.Fault

/-!
# Completion cells

A cell carries the outcome of one operation from the dispatch loop to whoever awaits it. It is reset before each use
and completed once in each use.

- `Cell.poll`: ask for the outcome, or leave a waker. A poll has two halves, `beginPoll` and `endPoll`, and a
  completion may land between them;
- `Cell.complete`: publish the outcome. The answer names the waker that is to be woken, after the outcome is readable;
- `Cell.reset`: make ready for the next use;
- `Future`: what a caller of receive or send holds, polled through `Future.poll`.
-/

namespace SlotServer

/-- Who is woken. -/
inductive Waker
  /-- A handler's task. -/
  | task (number : Nat)
  /-- Whoever awaits a receive on a connection. -/
  | receiver (connection : Nat)
  /-- Whoever awaits a send on a connection. -/
  | sender (connection : Nat)
  deriving DecidableEq, Repr

/-- The two halves of a slot. -/
inductive Half
  | receive
  | send
  deriving DecidableEq, Repr

/-- The cell of an operation: which slot, and which half. -/
structure CellName where
  slot : Nat
  half : Half
  deriving DecidableEq, Repr

/-- The phase of a cell in its use. -/
inductive CellPhase
  /-- Nobody has asked and nothing is published. -/
  | empty
  /-- A poll is leaving its waker. -/
  | registering
  /-- A waker is left. -/
  | waiting
  /-- The outcome is published. -/
  | completed
  deriving DecidableEq, Repr, Inhabited

/-- A cell for the outcome of one operation at a time. -/
structure Cell where
  phase : CellPhase := .empty
  waker : Option Waker := none
  result : Option Outcome := none
  deriving Repr, Inhabited

/-- What a poll finds. -/
inductive Poll (α : Type)
  | pending
  | ready (value : α)
  deriving DecidableEq, Repr

namespace Cell

/-- The outcome is published. -/
def isCompleted (c : Cell) : Bool := c.phase = .completed

/-- The published outcome. -/
def outcome? (c : Cell) : Option Outcome := if c.isCompleted then c.result else none

/-- The outcome that a poll of a completed cell gives. -/
def published (c : Cell) : Outcome := c.result.getD (.error .connectionClosed)

/-- Make ready for the next use. -/
def reset (_ : Cell) : Cell := {}

/-- Publish the outcome of this use. The waker left by the last poll, if any, is to be woken; a poll that is still
leaving its waker finds the outcome itself. -/
def complete (c : Cell) (outcome : Outcome) : Except Fault (Option Waker × Cell) :=
  match c.phase with
  | .completed => .error .completedTwice
  | .waiting => .ok (c.waker, { phase := .completed, waker := none, result := some outcome })
  | .empty | .registering => .ok (none, { c with phase := .completed, result := some outcome })

/-- The first half of a poll: the outcome, or the cell with the waker being left. A later waker takes the place of an
earlier one. -/
def beginPoll (c : Cell) (waker : Waker) : Outcome ⊕ Cell :=
  match c.phase with
  | .completed => .inl c.published
  | .empty | .waiting | .registering => .inr { c with phase := .registering, waker := some waker }

/-- The second half of a poll: the waker is left, unless an outcome came in between. -/
def endPoll (c : Cell) : Poll Outcome × Cell :=
  match c.phase with
  | .completed => (.ready c.published, { c with waker := none })
  | .empty | .waiting | .registering => (.pending, { c with phase := .waiting })

/-- Ask for the outcome and leave a waker if there is none yet; `between` happens while the waker is being left. -/
def pollWith (c : Cell) (waker : Waker) (between : Cell → Cell) : Poll Outcome × Cell :=
  match c.beginPoll waker with
  | .inl outcome => (.ready outcome, c)
  | .inr c => (between c).endPoll

/-- Ask for the outcome and leave a waker if there is none yet. -/
def poll (c : Cell) (waker : Waker) : Poll Outcome × Cell := c.pollWith waker id

/-- A poll during whose first half an outcome is published. -/
def pollRacing (c : Cell) (waker : Waker) (outcome : Outcome) : Poll Outcome × Cell :=
  c.pollWith waker fun c =>
    match c.complete outcome with
    | .ok (_, c) => c
    | .error _ => c

@[simp] theorem isCompleted_reset (c : Cell) : c.reset.isCompleted = false := rfl

@[simp] theorem outcome?_reset (c : Cell) : c.reset.outcome? = none := rfl

theorem outcome?_complete {c c' : Cell} {o : Outcome} {w : Option Waker} (h : c.complete o = .ok (w, c')) :
    c'.outcome? = some o := by
  unfold complete at h
  split at h <;> simp_all [outcome?, isCompleted] <;> (obtain ⟨_, rfl⟩ := h; simp)

theorem poll_of_isCompleted {c : Cell} (h : c.isCompleted = true) (w : Waker) :
    c.poll w = (.ready c.published, c) := by
  simp_all [poll, pollWith, beginPoll, isCompleted]

end Cell

/-- What a caller of receive or send holds: the place of a cell, or the error that kept the operation from starting. -/
inductive Future (ρ : Type)
  /-- The outcome will be in this cell. -/
  | awaiting (cell : ρ)
  /-- The operation did not start. The error is told once. -/
  | refused (error : Option Error)
  deriving DecidableEq, Repr

/-- What a refused future gives: its error the first time, and after that that the connection is closed. -/
def refusal (error : Option Error) : Outcome := .error (error.getD .connectionClosed)

end SlotServer
