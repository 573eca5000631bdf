import SlotServer.Kernel.Queue
import SlotServer.Log
import SlotServer.Worker.State

/-!
# A worker at work

A `Machine` is a worker on its kernel, together with the application that its handlers belong to and a record of what
happened. Everything that a worker does is a program of type `Run`. A fault ends the program and keeps the machine as it
was built up to that point.

- `Event`: what the record holds;
- `Run.stepSlot`: a step of a slot;
- `Run.queue`: an operation for the kernel;
- `Worker.build`: a worker from a configuration.
-/

namespace SlotServer

/-- Something that happened at a worker. -/
inductive Event
  /-- A region of this length was offered for registration. -/
  | registered (length : Nat)
  /-- The registration was to be undone. -/
  | unregistered
  /-- The kernel's side was let go. -/
  | released
  /-- A socket was bound to a slot. -/
  | bound (slot : Nat) (fd : Int)
  /-- The kernel took an operation. -/
  | queued (op : Op)
  /-- The kernel did not take an operation. -/
  | refused (op : Op) (e : Error)
  /-- A completion was taken to its slot. -/
  | answered (c : Completion)
  /-- The queue was handed over, to wait for at least so many completions. -/
  | submitted (least : Nat)
  /-- Completions were asked for. -/
  | polled
  /-- The wake-up counter was rung. -/
  | rung
  /-- A descriptor was closed at once, past the queue. It was that of a slot, or of none. -/
  | closed (slot : Option Nat) (fd : Int)
  /-- Both directions of a slot's socket were shut. -/
  | hungUp (slot : Nat) (fd : Int)
  /-- A slot's socket was to send small packets at once. -/
  | hastened (slot : Nat) (fd : Int)
  /-- The handler was given the connection of a slot. -/
  | served (slot : Nat)
  /-- A handler's task was started. -/
  | started
  /-- A send that begins next was asked to take this many bytes. -/
  | asked (length : Nat)
  /-- An operation began, whose outcome will be in a cell. -/
  | began (cell : CellName)
  /-- A waker was left at a cell. -/
  | awaited (cell : CellName) (waker : Waker)
  /-- The waker left at a cell was woken. -/
  | woke (cell : CellName) (waker : Waker)
  /-- A line was written to the log. -/
  | said (level : LogLevel) (message : String)
  deriving DecidableEq, Repr

/-- The event wakes a waker. -/
def Event.wakes (waker : Waker) : Event → Bool
  | .woke _ w => w = waker
  | _ => false

/-- A worker on its kernel. -/
structure Machine (α : Type) where
  worker : Worker
  kernel : Kernel
  /-- The application that the handlers belong to. -/
  app : α
  /-- What happened, the latest first. -/
  trace : List Event := []
  /-- The slots whose connection handle is alive. -/
  held : List Nat := []

/-- How often a waker was woken. -/
def Machine.wakesOf {α : Type} (m : Machine α) (waker : Waker) : Nat := m.trace.countP (·.wakes waker)

/-- What a machine does. -/
abbrev Run (α β : Type) := EStateM Fault (Machine α) β

namespace Run

variable {α β : Type}

/-- The answer of a computation that may be at fault. -/
def ofExcept (x : Except Fault β) : Run α β :=
  match x with
  | .ok b => pure b
  | .error fault => throw fault

/-- Record an event. -/
def record (e : Event) : Run α Unit := modify fun m => { m with trace := e :: m.trace }

/-- The worker. -/
def worker : Run α Worker := return (← get).worker

/-- Change the worker. -/
def modifyWorker (f : Worker → Worker) : Run α Unit := modify fun m => { m with worker := f m.worker }

/-- Change the kernel. -/
def modifyKernel (f : Kernel → Kernel) : Run α Unit := modify fun m => { m with kernel := f m.kernel }

/-- A call of the kernel. -/
def kernel (f : Kernel → β × Kernel) : Run α β :=
  modifyGet fun m =>
    let (b, k) := f m.kernel
    (b, { m with kernel := k })

/-- Change the application. -/
def modifyApp (f : α → α) : Run α Unit := modify fun m => { m with app := f m.app }

/-- Write a line of the log, which begins with the worker's number. -/
def say (level : LogLevel) (message : String) : Run α Unit := do
  let id := (← worker).id
  record (.said level s!"worker {id}: {message}")

/-- Count something. -/
def bump (counter : Counter) (n : UInt64) : Run α Unit := modifyWorker (·.bump counter n)

/-- The slot of an index. -/
def slot? (i : Nat) : Run α (Option Slot) := return (← worker).slots[i]?

/-- Change the slot of an index, if there is one. -/
def modifySlot (i : Nat) (f : Slot → Slot) : Run α Unit :=
  modifyWorker fun w => { w with slots := w.slots.modify i f }

/-- A step of the slot of an index. Where there is no slot, none is free either. -/
def stepSlot (i : Nat) (step : Slot.Step β) : Run α (Except Error β) := do
  match ← slot? i with
  | none => return .error .noFreeSlot
  | some s =>
    let (answer, s) := step s
    modifyWorker (·.setSlot i s)
    return answer

/-- Wake who waits for a cell, if anyone does. -/
def wake (cell : CellName) : Option Waker → Run α Unit
  | none => pure ()
  | some w => record (.woke cell w)

/-- Complete a cell and wake who waits for it. -/
def completeCell (cell : CellName) (complete : Slot → Except Fault (Option Waker × Slot)) : Run α Unit := do
  match ← slot? cell.slot with
  | none => pure ()
  | some s =>
    let (waker, s) ← ofExcept (complete s)
    modifyWorker (·.setSlot cell.slot s)
    wake cell waker

/-- Complete the receive of a slot. -/
def completeReceive (i : Nat) (outcome : Outcome) : Run α Unit :=
  completeCell ⟨i, .receive⟩ (·.completeReceive outcome)

/-- Complete the send of a slot. -/
def completeSend (i : Nat) (outcome : Outcome) : Run α Unit := completeCell ⟨i, .send⟩ (·.completeSend outcome)

/-- Queue an operation. -/
def queue (op : Op) : Run α (Except Error Unit) := do
  let answer ← kernel (·.push op)
  match answer with
  | .ok _ => record (.queued op)
  | .error e => record (.refused op e)
  return answer

/-- A new socket. -/
def openSocket (kind : SocketKind) : Run α Int :=
  kernel fun k =>
    let (fd, sockets) := k.sockets.add kind
    (fd, { k with sockets })

/-- Close a descriptor at once, that of a slot or of none. A negative one is none. -/
def closeNow (slot : Option Nat) (fd : Int) : Run α Unit := do
  if 0 ≤ fd then
    record (.closed slot fd)
    modifyKernel fun k => { k with sockets := k.sockets.close fd }

/-! ## Programs that are known by what they do -/

section

variable {γ : Type} {m m' : Machine α} {i : Nat}

theorem bind_run {x : Run α β} {k : β → Run α γ} {b : β} (hx : x m = .ok b m') : (x >>= k) m = k b m' := by
  show EStateM.bind x k m = _
  unfold EStateM.bind
  rw [hx]

theorem bind_error {x : Run α β} {k : β → Run α γ} {fault : Fault} (hx : x m = .error fault m') :
    (x >>= k) m = .error fault m' := by
  show EStateM.bind x k m = _
  unfold EStateM.bind
  rw [hx]

theorem of_bind {x : Run α β} {k : β → Run α γ} {c : γ} (h : (x >>= k) m = .ok c m') :
    ∃ b m₁, x m = .ok b m₁ ∧ k b m₁ = .ok c m' := by
  change EStateM.bind x k m = _ at h
  unfold EStateM.bind at h
  cases hx : x m with
  | error fault m₁ =>
    rw [hx] at h
    cases h
  | ok b m₁ =>
    rw [hx] at h
    exact ⟨b, m₁, rfl, h⟩

theorem slot?_run {s : Slot} (hs : m.worker.slots[i]? = some s) :
    (slot? i : Run α (Option Slot)) m = .ok (some s) m := congrArg (EStateM.Result.ok · m) hs

theorem slot?_run_none (hs : m.worker.slots[i]? = none) : (slot? i : Run α (Option Slot)) m = .ok none m :=
  congrArg (EStateM.Result.ok · m) hs

theorem stepSlot_run {s : Slot} {f : Slot.Step β} (hs : m.worker.slots[i]? = some s) :
    (stepSlot i f : Run α (Except Error β)) m = .ok (f s).1 { m with worker := m.worker.setSlot i (f s).2 } :=
  bind_run (slot?_run hs)

theorem stepSlot_run_none {f : Slot.Step β} (hs : m.worker.slots[i]? = none) :
    (stepSlot i f : Run α (Except Error β)) m = .ok (.error .noFreeSlot) m := bind_run (slot?_run_none hs)

end

end Run

namespace Worker

/-- Register a region, and keep a record of that. -/
def register (length : Nat) : StateM (Kernel × List Event) (Except Error UInt16) :=
  modifyGet fun (k, trace) =>
    let (answer, k) := k.register
    (answer, k, .registered length :: trace)

/-- What stands for an address in the log. -/
def somePlace : String := "PTR"

/-- A worker from a configuration, on a machine of `cores` cores: the configuration is checked, the pool made and
registered, and the slots are laid out over it. The record tells what was asked of the kernel. -/
def build (id : Nat) (config : Config) (cores : Nat) (k : Kernel) :
    Except Fault (Except Error Worker) × Kernel × List Event :=
  match config.validate, config.segmentLength with
  | .error e, _ => (.ok (.error e), k, [])
  | .ok _, .error fault => (.error fault, k, [])
  | .ok _, .ok segmentLength =>
    match Pool.create register k.memory.mappingLimit segmentLength (config.slotsPerWorker cores) (k, []) with
    | (.error e, k', trace) => (.ok (.error e), k', trace)
    | (.ok pool, k', trace) =>
      ((Worker.ofPool id config k.memory pool).map .ok, k', .said .debug (pool.createdLine somePlace) :: trace)

end Worker

end SlotServer
