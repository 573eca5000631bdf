import SlotServer.Tasks.Pool
import SlotServer.Tasks.Script

/-!
# Tasks on the bench

A task pool with one thread whose tasks follow scripts and wait at gates. After each call the thread works until it has
nothing to do, unless it is held. What a task does is told in words, in order. A task that nothing can wake any more
goes away.

- `Tasks.spawn`, `Tasks.openGate`, `Tasks.poke`: calls from outside;
- `Tasks.hold`, `Tasks.letGo`: keep the thread busy, and let it work again;
- `Tasks.stop`, `Tasks.join`, `Tasks.drop`: the end of the pool;
- `Tasks.crowd`: many equal tasks.
-/

namespace SlotServer.Bench

/-- A gate that tasks wait at. -/
structure Gate where
  isOpen : Bool := false
  /-- The tasks whose wakers are kept here, in order. -/
  kept : List Nat := []
  deriving Repr

/-- A pool and its surroundings. -/
structure Tasks where
  pool : TaskPool Script
  /-- The pool itself is gone; tasks may still be kept at gates. -/
  dropped : Bool := false
  /-- The thread is kept busy. -/
  held : Bool := false
  gates : List (String × Gate) := []
  /-- What was told, the latest first. -/
  told : List String := []
  /-- Polls of tasks that had something left. -/
  polls : Nat := 0

namespace Tasks

/-- What is done with the pool. -/
abbrev Act := StateM Tasks

/-- Tell something of a task. -/
def tell (id what : String) : Act Unit := modify fun b => { b with told := s!"{id} {what}" :: b.told }

/-- Change the pool. -/
def modifyPool (f : TaskPool Script → TaskPool Script) : Act Unit := modify fun b => { b with pool := f b.pool }

/-- The gate of a name, closed where there was none. -/
def gate (name : String) : Act Gate := return ((← get).gates.lookup name).getD {}

/-- Change a gate. -/
def setGate (name : String) (g : Gate) : Act Unit :=
  modify fun b => { b with gates := (name, g) :: b.gates.filter (·.1 ≠ name) }

/-- Wake a task. Where the pool is gone, there is no queue for it. -/
def wake (n : Nat) : Act Unit := do
  let gone := (← get).dropped
  modifyPool fun p => if gone then p.mark n else p.wake n

/-- A task goes away if it is neither in the queue nor kept at a gate. -/
def collect (n : Nat) : Act Unit := do
  let b ← get
  if b.pool.queue.contains n || b.gates.any (·.2.kept.contains n) then return
  match b.pool.future? n with
  | none => pure ()
  | some s =>
    modifyPool (·.discard n)
    tell s.id "dropped"

/-- Wake the tasks of a list that a gate kept; each goes away if that was its last chance. -/
def wakeAll (name : String) : List Nat → Act Unit
  | [] => pure ()
  | n :: rest => do
    let g ← gate name
    setGate name { g with kept := rest }
    wake n
    collect n
    wakeAll name rest

/-- Wake and forget the tasks that a gate keeps. The answer is how many there were. -/
def poke (name : String) : Act Nat := do
  let g ← gate name
  wakeAll name g.kept
  return g.kept.length

/-- Open a gate. -/
def openGate (name : String) : Act Nat := do
  let g ← gate name
  setGate name { g with isOpen := true }
  poke name

/-- Start a task. One that is refused goes away at once. -/
def start (s : Script) : Act (Except Error Unit) := do
  match ← modifyGet fun b => let (answer, pool) := b.pool.spawn s; (answer, { b with pool }) with
  | .ok _ => return .ok ()
  | .error e =>
    tell s.id "dropped"
    return .error e

/-- How a poll of a script ends. -/
inductive Ending
  | waits (rest : List ScriptStep)
  | done

/-- Follow a script up to a step that has to wait. -/
def follow (n : Nat) (id : String) : List ScriptStep → Act Ending
  | [] => do
    tell id "done"
    return .done
  | step :: rest => do
    match step with
    | .emit what =>
      tell id what
      follow n id rest
    | .name =>
      tell id s!"on {TaskPool.threadName 0}"
      follow n id rest
    | .active =>
      tell id "active Some(1)"
      follow n id rest
    | .giveWay wakes =>
      if wakes ≠ 0 then wake n
      tell id "yield"
      return .waits rest
    | .wakeSelf =>
      wake n
      follow n id rest
    | .park => return .waits rest
    | .await name =>
      let g ← gate name
      if g.isOpen then follow n id rest
      else
        setGate name { g with kept := g.kept ++ [n] }
        tell id s!"waits {name}"
        return .waits (step :: rest)
    | .openGate name =>
      discard (openGate name)
      follow n id rest
    | .poke name =>
      discard (poke name)
      follow n id rest
    | .spawn child steps =>
      match ← start ⟨child, steps⟩ with
      | .ok _ => tell id "spawned Ok(())"
      | .error e => tell id s!"spawned Err({e.debug})"
      follow n id rest
    | .fail => return .done

/-- Poll a task that was taken out of the queue. -/
def poll (n : Nat) : Act Unit := do
  modifyPool (·.clear n)
  match (← get).pool.future? n with
  | none => pure ()
  | some s =>
    modify fun b => { b with polls := b.polls + 1 }
    match ← follow n s.id s.steps with
    | .waits rest =>
      modifyPool (·.store n ⟨s.id, rest⟩)
      collect n
    | .done =>
      modifyPool (·.finish n)
      tell s.id "dropped"

/-- Up to so many polls. -/
def workUpTo : Nat → Act Unit
  | 0 => pure ()
  | k + 1 => do
    let b ← get
    if b.held || b.dropped || b.pool.stopped then return
    match b.pool.take with
    | none => pure ()
    | some (n, pool) =>
      set { b with pool }
      poll n
      workUpTo k

/-- A bound on the polls that a pool has before it: every step puts each task into the queue at most once. -/
def pollBound (p : TaskPool Script) : Nat :=
  let steps := p.tasks.foldl (fun n t => n + t.future.elim 0 fun s => weightAll s.steps) 0
  p.queue.length + steps * (p.tasks.length + steps) + 1

/-- The thread works until it has nothing to do. -/
def work : Act Unit := do workUpTo (pollBound (← get).pool)

/-- Start a task from outside. -/
def spawn (s : Script) : Act (Except Error Unit) := do
  let answer ← start s
  work
  return answer

/-- Open a gate from outside. -/
def openFromOutside (name : String) : Act Nat := do
  let n ← openGate name
  work
  return n

/-- Poke a gate from outside. -/
def pokeFromOutside (name : String) : Act Nat := do
  let n ← poke name
  work
  return n

/-- Keep the thread busy with a task that does nothing. -/
def hold : Act (Except Error Unit) := do
  if (← get).pool.stopped then return .error .spawn
  modify fun b => { b with held := true, pool := { b.pool with live := b.pool.live + 1 } }
  return .ok ()

/-- End the task that keeps the thread busy, if there is one. -/
def endHold : Act Bool := do
  if !(← get).held then return false
  modify fun b => { b with held := false, pool := { b.pool with live := b.pool.live - 1 } }
  return true

/-- Let the thread work again. -/
def letGo : Act Bool := do
  let was ← endHold
  work
  return was

/-- The pool takes no more tasks and its thread polls none. -/
def stop : Act Unit := modifyPool (·.stop)

/-- Take the tasks out of the queue without polling them. -/
def emptyQueue : Nat → Act Unit
  | 0 => pure ()
  | k + 1 => do
    match (← get).pool.take with
    | none => pure ()
    | some (n, pool) =>
      modify fun b => { b with pool }
      collect n
      emptyQueue k

/-- Stop the pool and wait for its thread. -/
def join : Act Unit := do
  stop
  discard endHold
  emptyQueue (← get).pool.queue.length

/-- Drop the pool. The answer is whether it was there. -/
def drop : Act Bool := do
  if (← get).dropped then return false
  join
  modify fun b => { b with dropped := true }
  return true

/-- What many equal tasks come to: how many ended, how often they were polled, and the answer to another task after the
pool was joined. -/
structure Crowd where
  done : Nat
  polls : Nat
  afterJoin : Except Error Unit

/-- Start `count` tasks that give way `yields` times each, and let the thread work. -/
def crowd (count yields : Nat) : Act Crowd := do
  let s : Script := ⟨"", List.replicate yields (.giveWay 1)⟩
  (List.range count).forM fun _ => discard (start s)
  let before := (← get).pool.live
  work
  let b ← get
  join
  let afterJoin ← start s
  return ⟨before - b.pool.live, b.polls, afterJoin⟩

/-- A fresh pool of `n` threads. -/
def fresh (n : Nat) : Tasks := { pool := .start n }

end Tasks

end SlotServer.Bench
