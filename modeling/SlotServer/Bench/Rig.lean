import SlotServer.Handler.Application

/-!
# A worker on the bench

A worker over a kernel that answers only what it is told to. It is driven one call at a time: turns of the dispatch
loop, calls of acceptors and handles, and polls of the handlers' tasks.

- `Rig.turns`, `Rig.run`: the loop;
- `Rig.accept`, `Rig.startAccept`: new sockets;
- `Rig.complete`, `Rig.deliver`, `Rig.fail`: what the kernel does;
- `Rig.named`: the connections that were kept, by number.
-/

namespace SlotServer.Bench

/-- A worker with its application. -/
abbrev Rig := Machine Application

namespace Rig

/-- What is done on the bench. -/
abbrev Act (β : Type) := Application.Act β

variable {β : Type}

/-! ## Acceptors -/

/-- A new socket for a slot. A slot that does not take it has it closed. -/
def startAccept (i : Nat) (kind : SocketKind) (peer : Option Net.SocketAddress) : Act (Except Error (Nat × Int)) := do
  let fd ← Run.openSocket kind
  match ← Run.startAccept i fd peer with
  | .ok _ => return .ok (i, fd)
  | .error e =>
    Run.closeNow none fd
    return .error e

/-- A new socket for a free slot, if there is one. -/
def accept (kind : SocketKind) (peer : Option Net.SocketAddress) : Act (Option (Except Error (Nat × Int))) := do
  match ← Run.acquire with
  | none => return none
  | some i => return some (← startAccept i kind peer)

/-- Do something that may put a command into the inbox, if there is a place or it is forced. -/
def withRoom (force : Bool) (act : Act β) : Act (Option β) := do
  if !force && (← Run.worker).inboxFull then return none
  return some (← act)

/-! ## The dispatch loop -/

/-- What happened after the first `n` events, the earliest first. -/
def since (m : Rig) (n : Nat) : List Event := (m.trace.take (m.trace.length - n)).reverse

/-- How many completions each wait of some events asked for. -/
def waits (es : List Event) : List Nat :=
  es.filterMap fun
    | .submitted least => some least
    | _ => none

/-- How often some events asked for completions. -/
def polls (es : List Event) : Nat := es.count .polled

/-- One turn: whether the loop goes on, what its waits asked for, and how often it asked for completions. -/
def turn (block : Bool) : Act (Bool × List Nat × Nat) := do
  let n := (← get).trace.length
  let goesOn ← Run.turn Application.serve block
  let es := since (← get) n
  return (goesOn, waits es, polls es)

/-- So many turns. -/
def turns (block : Bool) : Nat → Act (List (Bool × List Nat × Nat))
  | 0 => return []
  | n + 1 => do
    let first ← turn block
    return first :: (← turns block n)

/-- Do something with the dispatch loop, if it is still there. -/
def withLoop (act : Act β) : Act (Option β) := do
  if !(← get).app.running then return none
  return some (← act)

/-- Ask the worker to stop and run its loop to the end. From here on the kernel counts what it has ready, so the loop
ends after the turn that leaves nothing to do. -/
def run : Act (List Nat × Nat) := do
  let n := (← get).trace.length
  Run.modifyApp fun r => { r with running := false }
  Run.requestStop
  Run.modifyKernel fun k => { k with accounting := .ready }
  let m ← get
  Run.dispatch Application.serve (m.kernel.ready.length + m.worker.inbox.length + 2)
  let es := since (← get) n
  return (waits es, polls es)

/-! ## The kernel -/

/-- Answer an operation. -/
def complete (c : Completion) : Act Unit := Run.modifyKernel (·.inject c)

/-- The place and length of the latest receive of a slot. -/
def lastReceive? (es : List Event) (i : Nat) : Option (Nat × Nat) :=
  es.findSome? fun
    | .queued (.receive ctx _ offset length _) => if ctx.slot = i then some (offset, length) else none
    | _ => none

/-- The place and length of the latest send of a slot. -/
def lastSend? (es : List Event) (i : Nat) : Option (Nat × Nat) :=
  es.findSome? fun
    | .queued (.send ctx _ offset length _) => if ctx.slot = i then some (offset, length) else none
    | _ => none

/-- Put bytes where the latest receive of a slot wants them, and answer it, with their count if nothing else is given.
The answer is that of the operation, if there is one. -/
def deliver (i : Nat) (data : Array UInt8) (result : Option Int32) : Act (Option Int32) := do
  match lastReceive? (← get).trace i with
  | none => return none
  | some (offset, length) =>
    let data := data.take length
    Run.modifyWorker fun w => { w with pool := w.pool.put offset data }
    let result := result.getD (Int32.ofNat data.size)
    complete ⟨.ofSlot i, result, 0⟩
    return some result

/-- The bytes that the latest send of a slot is about, as they are now. -/
def peek (i : Nat) : Act (Option (List UInt8)) := do
  let m ← get
  return (lastSend? m.trace i).map fun (offset, length) => m.worker.pool.bytesAt offset length

/-- Let calls of a kind fail. -/
def fail (call : Call) (e : Error) (count skip : Nat) : Act Unit :=
  Run.modifyKernel (·.failNext call e count skip)

/-- No wake-up read is outstanding. -/
def disarm : Act Unit := Run.modifyKernel fun k => { k with armed := false }

/-! ## Connections that were kept -/

/-- What a number of a connection stands for. -/
inductive Named
  | unknown
  | gone
  | live (slot : Nat)
  deriving DecidableEq, Repr

/-- The connection of a number. -/
def named (c : Nat) : Act Named := do
  match (← get).app.handles[c]? with
  | none => return .unknown
  | some h => return if h.alive then .live h.slot else .gone

/-- Start a receive on a connection and keep its future. -/
def receive (c i : Nat) : Act Unit := do
  let future ← Connection.receive i
  Application.setHandle c fun h => { h with receiving := some future }

/-- Start a send on a connection and keep its future, if it starts. -/
def send (c i length : Nat) : Act (Except Error Unit) := do
  match ← Connection.send i length with
  | .error e => return .error e
  | .ok future =>
    Application.setHandle c fun h => { h with sending := some future }
    return .ok ()

/-- Poll a future that is kept, if there is one. -/
def pollKept (future : Option OperationFuture) (waker : Waker) (keep : OperationFuture → Act Unit) :
    Act (Option (Poll Outcome)) := do
  match future with
  | none => return none
  | some f =>
    let (answer, f) ← Connection.pollFuture waker f
    keep f
    return some answer

/-- Poll the future of a connection's receive. -/
def pollReceive (c : Nat) : Act (Option (Poll Outcome)) := do
  pollKept ((← get).app.handles[c]?.bind (·.receiving)) (.receiver c) fun f =>
    Application.setHandle c fun h => { h with receiving := some f }

/-- Poll the future of a connection's send. -/
def pollSend (c : Nat) : Act (Option (Poll Outcome)) := do
  pollKept ((← get).app.handles[c]?.bind (·.sending)) (.sender c) fun f =>
    Application.setHandle c fun h => { h with sending := some f }

/-- Drop both futures of a connection. -/
def forget (c : Nat) : Act Unit := Application.setHandle c fun h => { h with receiving := none, sending := none }

/-- Copy what a connection received to the front of its send half. The answer is what was received and the length of
the half. -/
def copy (i : Nat) : Act (List UInt8 × Nat) := do
  let (rx, tx) ← Connection.buffers i
  discard (Connection.fill i rx.toArray)
  return (rx, tx.length)

/-- How often the waiters of a connection's receive and send were woken. -/
def wakesOfHandle (m : Rig) (c : Nat) : Nat × Nat :=
  (m.wakesOf (.receiver c), m.wakesOf (.sender c))

/-- A rig over a configuration, or why there is none. -/
def start (id : Nat) (config : Config) (service : Service) (k : Kernel) :
    Except Fault (Except Error Rig) × List Event :=
  match Worker.build id config machineCores k with
  | (.error fault, _, trace) => (.error fault, trace)
  | (.ok (.error e), _, trace) => (.ok (.error e), trace)
  | (.ok (.ok worker), kernel, trace) => (.ok (.ok { worker, kernel, app := { service }, trace }), trace)

end Rig

end SlotServer.Bench
