import SlotServer.Dispatch.Finish

/-!
# What a machine shows of one slot

Almost every program of a worker works on one slot. What it may change of the machine, as far as that slot goes, is
the slot's *view*: the slot itself, its commands in the inbox, what the record tells of it, the completions that are
ready for it, its handles and its places in the queue of free slots. A program that works on one slot leaves the views
of all others as they are.

- `Event.concerns`, `Machine.history`: the part of the record that is about a slot;
- `Machine.view`: the view of a slot, where `pending` are completions that were taken out and are not routed yet.
-/

namespace SlotServer

/-- The event is about a slot. That the kernel's side was let go is about every slot. -/
def Event.concerns (i : Nat) : Event → Bool
  | .bound j _ | .hungUp j _ | .hastened j _ | .closed (some j) _ | .served j => j = i
  | .queued op | .refused op _ => op.ctx.slot = i
  | .answered c => c.ctx.slot = i
  | .began cell | .awaited cell _ | .woke cell _ => cell.slot = i
  | .released => true
  | .closed none _ | .registered _ | .unregistered | .submitted _ | .polled | .rung | .started | .asked _
  | .said _ _ => false

/-- The event is about no slot. -/
def Event.Aside (e : Event) : Prop := ∀ i, e.concerns i = false

/-- What a slot shows of its machine. -/
structure View where
  slot? : Option Slot
  /-- The slot's commands in the inbox, the oldest first. -/
  commands : List Command
  /-- What the record tells of the slot, the latest first. -/
  history : List Event
  /-- The completions that are ready for the slot. -/
  answers : List Completion
  /-- How many connection handles of the slot are alive. -/
  handles : Nat
  /-- How often the slot is among the free ones. -/
  places : Nat
  /-- How many slots there are. -/
  size : Nat
  /-- The length of the pool's region. -/
  region : Nat
  /-- The dispatch loop has come to its end. -/
  exited : Bool

namespace View

/-- The view with another slot in its place. -/
def put (v : View) (s : Slot) : View := { v with slot? := some s }

/-- The view after an event of the slot. -/
def log (v : View) (e : Event) : View := { v with history := e :: v.history }

/-- The view after a command of the slot was put into the inbox. -/
def command (v : View) (c : Command) : View := { v with commands := v.commands ++ [c] }

end View

namespace Machine

variable {α : Type}

/-- What the record tells of a slot, the latest first. -/
def history (m : Machine α) (i : Nat) : List Event := m.trace.filter (·.concerns i)

/-- The view of a slot, where some completions were taken out and are not routed yet. -/
def view (m : Machine α) (pending : List Completion) (i : Nat) : View where
  slot? := m.worker.slots[i]?
  commands := m.worker.inbox.filter (·.slot = i)
  history := m.history i
  answers := (pending ++ m.kernel.ready).filter (·.ctx.slot = i)
  handles := m.held.count i
  places := m.worker.free.count i
  size := m.worker.slots.length
  region := m.worker.pool.regionLength
  exited := m.worker.exited

section Changes

variable (m : Machine α) (pending : List Completion) (i j : Nat)

theorem view_record (e : Event) :
    ({ m with trace := e :: m.trace } : Machine α).view pending i =
      if e.concerns i then (m.view pending i).log e else m.view pending i := by
  simp only [view, history, View.log, List.filter_cons]
  split <;> rfl

theorem view_setSlot_self (s : Slot) (h : i < m.worker.slots.length) :
    ({ m with worker := m.worker.setSlot i s } : Machine α).view pending i = (m.view pending i).put s := by
  simp [view, history, View.put, Worker.setSlot, h]

theorem view_setSlot_of_ne {i j : Nat} (s : Slot) (h : j ≠ i) :
    ({ m with worker := m.worker.setSlot i s } : Machine α).view pending j = m.view pending j := by
  simp [view, history, Worker.setSlot, List.getElem?_set_ne h.symm]

theorem view_modify_self (f : Slot → Slot) :
    ({ m with worker := { m.worker with slots := m.worker.slots.modify i f } } : Machine α).view pending i =
      { m.view pending i with slot? := (m.view pending i).slot?.map f } := by
  simp [view, history]

theorem view_modify_of_ne {i j : Nat} (f : Slot → Slot) (h : j ≠ i) :
    ({ m with worker := { m.worker with slots := m.worker.slots.modify i f } } : Machine α).view pending j =
      m.view pending j := by
  simp [view, history, h.symm]

theorem view_kernel (k : Kernel) (h : k.ready = m.kernel.ready) :
    ({ m with kernel := k } : Machine α).view pending i = m.view pending i := by
  simp [view, history, h]

theorem view_enqueue (c : Command) :
    ({ m with worker := { m.worker with inbox := m.worker.inbox ++ [c] } } : Machine α).view pending i =
      if c.slot = i then (m.view pending i).command c else m.view pending i := by
  simp only [view, history, View.command, List.filter_append, List.filter_cons, List.filter_nil]
  split <;> simp_all

theorem view_free (free : List Nat) :
    ({ m with worker := { m.worker with free } } : Machine α).view pending i =
      { m.view pending i with places := free.count i } := rfl

theorem view_held (held : List Nat) :
    ({ m with held } : Machine α).view pending i = { m.view pending i with handles := held.count i } := rfl

theorem view_bump (counter : Counter) (n : UInt64) :
    ({ m with worker := m.worker.bump counter n } : Machine α).view pending i = m.view pending i := rfl

end Changes

end Machine

end SlotServer
