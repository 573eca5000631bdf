import SlotServer.Error

/-!
# Task pools

Tasks wait in one queue for the threads of the pool. A flag on each task tells whether it is in the queue; a wake puts
the task there unless the flag is set, and the flag is cleared before each poll, so that a wake during the poll puts the
task back.

- `TaskPool.spawn`: a new task;
- `TaskPool.wake`: put a task into the queue;
- `TaskPool.take`, `TaskPool.clear`, `TaskPool.store`, `TaskPool.finish`: the steps of a thread with a task;
- `TaskPool.stop`: no thread takes another task.
-/

namespace SlotServer

/-- A task: what is left of it, if anything, and whether it is in the queue. -/
structure PoolTask (φ : Type) where
  future : Option φ
  scheduled : Bool
  deriving Repr

/-- A pool of threads and its tasks, which are numbered in the order in which they came. -/
structure TaskPool (φ : Type) where
  threads : Nat
  tasks : List (PoolTask φ) := []
  /-- The numbers of the tasks that wait for a thread, the first one first. -/
  queue : List Nat := []
  /-- Tasks that came and have not ended. -/
  live : Nat := 0
  stopped : Bool := false
  deriving Repr

namespace TaskPool

variable {φ : Type}

/-- The greatest count of threads. -/
def mostThreads : Nat := 256

/-- A pool of `n` threads, or of the nearest count that a pool may have. -/
def start (n : Nat) : TaskPool φ := { threads := min (max n 1) mostThreads }

/-- The name of a thread. -/
def threadName (n : Nat) : String := s!"regio-task-{n}"

/-- A new task, at the end of the queue. A pool that was stopped takes none. -/
def spawn (p : TaskPool φ) (future : φ) : Except Error Nat × TaskPool φ :=
  if p.stopped then (.error .spawn, p)
  else
    let n := p.tasks.length
    (.ok n, { p with
      tasks := p.tasks ++ [{ future := some future, scheduled := true }]
      queue := p.queue ++ [n]
      live := p.live + 1 })

/-- Change a task. -/
def modify (p : TaskPool φ) (n : Nat) (f : PoolTask φ → PoolTask φ) : TaskPool φ :=
  { p with tasks := p.tasks.modify n f }

/-- The task is marked as waiting for a thread. -/
def isScheduled (p : TaskPool φ) (n : Nat) : Bool := p.tasks[n]?.any (·.scheduled)

/-- What is left of a task. -/
def future? (p : TaskPool φ) (n : Nat) : Option φ := p.tasks[n]?.bind (·.future)

/-- Mark a task as waiting for a thread. -/
def mark (p : TaskPool φ) (n : Nat) : TaskPool φ := p.modify n fun t => { t with scheduled := true }

/-- Put a task into the queue, unless it is marked as being there. -/
def wake (p : TaskPool φ) (n : Nat) : TaskPool φ :=
  if p.isScheduled n then p
  else
    let p := p.mark n
    { p with queue := p.queue ++ [n] }

/-- Take the first task out of the queue. -/
def take (p : TaskPool φ) : Option (Nat × TaskPool φ) :=
  match p.queue with
  | [] => none
  | n :: queue => some (n, { p with queue })

/-- Clear the mark of a task that is about to be polled. -/
def clear (p : TaskPool φ) (n : Nat) : TaskPool φ := p.modify n fun t => { t with scheduled := false }

/-- Keep what is left of a task after a poll. -/
def store (p : TaskPool φ) (n : Nat) (future : φ) : TaskPool φ :=
  p.modify n fun t => { t with future := some future }

/-- Let go of what is left of a task. -/
def discard (p : TaskPool φ) (n : Nat) : TaskPool φ := p.modify n fun t => { t with future := none }

/-- A task has ended. -/
def finish (p : TaskPool φ) (n : Nat) : TaskPool φ :=
  let p := p.discard n
  { p with live := p.live - 1 }

/-- No thread takes another task. -/
def stop (p : TaskPool φ) : TaskPool φ := { p with stopped := true }

end TaskPool

end SlotServer
