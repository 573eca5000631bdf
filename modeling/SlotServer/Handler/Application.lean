import SlotServer.Dispatch.Finish
import SlotServer.Handler.Echo

/-!
# Applications

What the dispatch loop gives its connections to: a service, the tasks that were started for it, and the connections that
were kept. A task is polled when it is new or was woken since its last poll.

- `Application.serve`: what happens to a new connection;
- `Application.runTasks`: poll the tasks that have something to do.
-/

namespace SlotServer

/-- What becomes of a new connection. -/
inductive Service
  /-- It is kept at once. -/
  | keep
  /-- Its task keeps it. -/
  | keepLater
  /-- A handler serves it. -/
  | handler (h : Handler)
  deriving DecidableEq, Repr, Inhabited

/-- A task that was started. -/
structure HandlerTask where
  slot : Nat
  stage : Handler.Stage := .ready
  /-- How often the task had been woken when it was last polled, if it was. -/
  seen : Option Nat := none
  deriving DecidableEq, Repr

/-- A connection that was kept. -/
structure Handle where
  slot : Nat
  alive : Bool := true
  receiving : Option OperationFuture := none
  sending : Option OperationFuture := none
  deriving DecidableEq, Repr

/-- A service with its tasks and connections. -/
structure Application where
  service : Service
  tasks : List HandlerTask := []
  handles : List Handle := []
  /-- The dispatch loop has not come to its end. -/
  running : Bool := true
  deriving Repr

namespace Application

/-- What is done by an application's worker. -/
abbrev Act (β : Type) := Run Application β

/-- Keep a connection. -/
def keep (i : Nat) : Act Unit := Run.modifyApp fun r => { r with handles := r.handles ++ [{ slot := i }] }

/-- Give the connection of a slot to the application. A task that is not started is dropped, and with it the connection
that it holds. -/
def serve : Run.Serve Application := fun i => do
  let service := (← get).app.service
  if service = .keep then keep i
  match ← Run.kernel (·.ask .spawn) with
  | .ok _ =>
    Run.record .started
    Run.modifyApp fun r => { r with tasks := r.tasks ++ [{ slot := i }] }
    return .ok ()
  | .error e =>
    if service ≠ .keep then Connection.drop i
    return .error e

/-- Poll a task. -/
def pollTask (number : Nat) (t : HandlerTask) : Act Handler.Stage := do
  match (← get).app.service with
  | .keep => return .finished
  | .keepLater =>
    keep t.slot
    return .finished
  | .handler h => h.poll (.task number) t.slot t.stage

/-- Change a task. -/
def setTask (number : Nat) (f : HandlerTask → HandlerTask) : Act Unit :=
  Run.modifyApp fun r => { r with tasks := r.tasks.modify number f }

/-- Poll a task if it has something to do: it was not polled before, or was woken since. The answer is whether it has
returned. -/
def visit (number : Nat) : Act (Option Bool) := do
  let m ← get
  match m.app.tasks[number]? with
  | none => return none
  | some t =>
    let wakes := m.wakesOf (.task number)
    if t.stage = .finished || t.seen = some wakes then return none
    setTask number fun t => { t with seen := some wakes }
    let stage ← pollTask number t
    setTask number fun t => { t with stage }
    return some (stage = .finished)

/-- Visit the tasks of a list, and tell which of them were polled. -/
def visitAll : List Nat → Act (List (Nat × Bool))
  | [] => return []
  | number :: rest => do
    let first ← visit number
    let others ← visitAll rest
    return (first.map fun done => (number, done)).toList ++ others

/-- Poll the tasks that have something to do, once each and in the order in which they were started. -/
def runTasks : Act (List (Nat × Bool)) := do visitAll (List.range (← get).app.tasks.length)

/-- Change a connection that was kept. -/
def setHandle (c : Nat) (f : Handle → Handle) : Act Unit :=
  Run.modifyApp fun r => { r with handles := r.handles.modify c f }

/-- Drop a connection that was kept. -/
def dropHandle (c i : Nat) : Act Unit := do
  setHandle c fun h => { h with alive := false }
  Connection.drop i

/-- Tear the worker down. -/
def finish : Act Unit := do
  Run.modifyApp fun r => { r with running := false }
  Run.finish

end Application

end SlotServer
