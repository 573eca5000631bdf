import SlotServer.Error
import SlotServer.Kernel.Memory
import SlotServer.Kernel.Sockets
import SlotServer.Operation

/-!
# The completion queue

One worker's side of the kernel: operations go in, completions come out in the order in which they became ready, and
every call may fail by a schedule. Which operations are answered, and how, is up to whoever holds the queue: `inject`
makes a completion ready.

- `Kernel.ask`: the schedule's word on the next call of a kind;
- `Kernel.push`: queue an operation; a close takes effect at once;
- `Kernel.harvest`: take completions out;
- `Kernel.outstanding`: how many operations the worker takes to be unanswered.
-/

namespace SlotServer

/-- The calls that may fail. -/
inductive Call
  /-- Queue any operation. -/
  | push
  /-- Queue a receive. -/
  | receive
  /-- Queue a send. -/
  | send
  /-- Queue a close. -/
  | close
  /-- Leave a wake-up read. -/
  | arm
  /-- Hand the queue over. -/
  | submit
  /-- Register a region. -/
  | register
  /-- Undo the registration. -/
  | unregister
  /-- Ring the wake-up counter. -/
  | notify
  /-- Start a handler's task. -/
  | spawn
  deriving DecidableEq, Repr

namespace Call

/-- Every call. -/
def all : List Call := [push, receive, send, close, arm, submit, register, unregister, notify, spawn]

/-- The name of a call. -/
def name : Call → String
  | push => "push"
  | receive => "receive"
  | send => "send"
  | close => "close"
  | arm => "arm"
  | submit => "submit"
  | register => "register"
  | unregister => "unregister"
  | notify => "notify"
  | spawn => "spawn"

/-- The call of a name. -/
def named? (s : String) : Option Call := all.find? (·.name = s)

theorem mem_all (c : Call) : c ∈ all := by cases c <;> decide

end Call

/-- How the operations that are not yet answered are counted. -/
inductive Accounting
  /-- Operations queued less completions taken out, never below zero. -/
  | queued
  /-- Completions that are ready and not yet taken out. -/
  | ready
  deriving DecidableEq, Repr

/-- One worker's side of the kernel. -/
structure Kernel where
  /-- What the call number `n` of a kind, from zero, fails with. -/
  schedule : Call → Nat → Option Error := fun _ _ => none
  /-- The calls of each kind so far. -/
  asked : Call → Nat := fun _ => 0
  /-- Operations queued less completions taken out, never below zero. -/
  inflight : Nat := 0
  /-- A wake-up read is outstanding. -/
  armed : Bool := false
  /-- The completions that are ready, the oldest first. -/
  ready : List Completion := []
  sockets : Sockets := {}
  /-- The places of the submission queue, as the log shows them. -/
  capacity : Nat := 1024
  /-- The index that a registered region gets. -/
  bufIndex : UInt16 := 0
  accounting : Accounting := .queued
  /-- A close is answered as soon as it is queued. -/
  answersCloses : Bool := false
  /-- The time, in milliseconds. -/
  now : Nat := 0
  memory : Memory := .usual

namespace Kernel

/-- The schedule's word on the next call of a kind. -/
def ask (k : Kernel) (call : Call) : Except Error Unit × Kernel :=
  let n := k.asked call
  (match k.schedule call n with
    | some e => .error e
    | none => .ok (),
   { k with asked := fun c => if c = call then n + 1 else k.asked c })

/-- From now on `skip` calls of a kind pass, and `count` calls after them fail. -/
def failNext (k : Kernel) (call : Call) (e : Error) (count skip : Nat) : Kernel :=
  let first := k.asked call + skip
  { k with schedule := fun c n =>
      if c = call then (if first ≤ n ∧ n < first + count then some e else none) else k.schedule c n }

/-- The call that queues an operation. -/
def callOf : Op → Call
  | .receive .. => .receive
  | .send .. => .send
  | .close .. => .close

/-- Make a completion ready. -/
def inject (k : Kernel) (c : Completion) : Kernel := { k with ready := k.ready ++ [c] }

/-- What queueing an operation does, once it is let through. -/
def accept (k : Kernel) (op : Op) : Kernel :=
  let k := { k with inflight := k.inflight + 1 }
  match op with
  | .close ctx fd =>
    let k := { k with sockets := k.sockets.close fd }
    if k.answersCloses then k.inject ⟨ctx, 0, 0⟩ else k
  | _ => k

/-- Queue an operation. -/
def push (k : Kernel) (op : Op) : Except Error Unit × Kernel :=
  match k.ask .push with
  | (.error e, k) => (.error e, k)
  | (.ok _, k) =>
    match k.ask (callOf op) with
    | (.error e, k) => (.error e, k)
    | (.ok _, k) => (.ok (), k.accept op)

/-- Leave a wake-up read, if none is outstanding. -/
def arm (k : Kernel) : Except Error Unit × Kernel :=
  match k.ask .arm with
  | (.error e, k) => (.error e, k)
  | (.ok _, k) => (.ok (), { k with armed := true })

/-- Register a region. -/
def register (k : Kernel) : Except Error UInt16 × Kernel :=
  match k.ask .register with
  | (.error e, k) => (.error e, k)
  | (.ok _, k) => (.ok k.bufIndex, k)

/-- Take up to `most` completions out. -/
def harvest (k : Kernel) (most : Nat) : List Completion × Kernel :=
  let batch := k.ready.take most
  (batch, { k with ready := k.ready.drop most, inflight := k.inflight - batch.length })

/-- How many operations are unanswered. -/
def outstanding (k : Kernel) : Nat :=
  match k.accounting with
  | .queued => k.inflight
  | .ready => k.ready.length

end Kernel

end SlotServer
