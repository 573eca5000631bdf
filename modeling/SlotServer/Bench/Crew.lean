import SlotServer.Bench.Rig
import SlotServer.Distributor
import SlotServer.Net.Listener

/-!
# A distributor on the bench

Workers behind a distributor, over kernels that answer closes at once and receives never. The connections are kept.
After each call the dispatch loops go on until they have nothing to do.

- `Crew.start`: workers, a listening socket and a distributor;
- `Crew.assign`, `Crew.connect`: new connections;
- `Crew.release`, `Crew.receive`: what is done with the oldest connection of a worker;
- `Crew.stop`, `Crew.drop`, `Crew.shutDown`: the end.
-/

namespace SlotServer.Bench

/-- Workers and their distributor. -/
structure Crew where
  distributor : Distributor Application
  /-- Where the listening socket is. -/
  network : Net.Namespace
  listener : Net.Listener
  /-- The distributor was not dropped. -/
  present : Bool := true

namespace Crew

/-- What is done with a crew. -/
abbrev Act := StateM Crew

variable {β : Type}

/-- The kernel of a worker. -/
def kernel : Kernel := { answersCloses := true }

/-- So many workers, the first of which has the number `id`. -/
def workers (config : Config) (id : Nat) : Nat → Except Fault (Except Error (List Rig))
  | 0 => .ok (.ok [])
  | n + 1 =>
    match (Rig.start id config .keep kernel).1 with
    | .error fault => .error fault
    | .ok (.error e) => .ok (.error e)
    | .ok (.ok first) => (workers config (id + 1) n).map fun rest => rest.map (first :: ·)

/-- So many workers, a listening socket and a distributor. -/
def start (config : Config) (n : Nat) : Except Fault (Except Error Crew) :=
  (workers config 0 n).map fun started => do
    let crew ← started
    let (listener, network) ← Net.Listener.bind config {}
    return { distributor := ← Distributor.start crew, network, listener }

/-- Turn the loop up to so many times, until it has nothing to do. -/
def settleUpTo : Nat → Rig.Act Unit
  | 0 => pure ()
  | n + 1 => do
    let m ← get
    if m.app.running && !(m.worker.inbox.isEmpty && m.kernel.ready.isEmpty) then
      discard (Run.turn Application.serve true)
      settleUpTo n

/-- Do something at the worker of a number and let its loop go on. -/
def atWorker (w : Nat) (act : Rig.Act β) : Act (Option (Except Fault β)) :=
  modifyGet fun c =>
    let (answer, distributor) := Distributor.atWorker w (do
      let b ← act
      settleUpTo (← Run.lastTurns)
      return b) c.distributor
    (answer, { c with distributor })

/-- A client that tries to connect. -/
def connect : Act (Except Int32 Unit) := do
  let c ← get
  return c.network.connect c.listener.address

/-- So many clients that try to connect while descriptors are short. The answer is how many of them got through. -/
def starve (n : Nat) : Act Nat := do
  let answer ← connect
  return if answer matches .ok _ then n else 0

/-- A connection for the worker of a number. -/
def assign (w : Nat) (peer : Option Net.SocketAddress) : Act (Option (Except Fault (Except Error Nat))) :=
  atWorker w (Distributor.bindNew peer)

/-- The oldest connection that a worker keeps, and its slot. -/
def oldest? (m : Rig) : Option (Nat × Nat) :=
  m.app.handles.zipIdx.findSome? fun (h, c) => if h.alive then some (c, h.slot) else none

/-- Do something with the oldest connection of a worker, if there is one. -/
def atOldest (w : Nat) (act : Nat → Nat → Rig.Act β) : Act (Option (Except Fault (Option β))) :=
  atWorker w do
    match oldest? (← get) with
    | none => return none
    | some (c, i) => return some (← act c i)

/-- Drop the oldest connection of a worker. The answer is its slot. -/
def release (w : Nat) : Act (Option (Except Fault (Option Nat))) :=
  atOldest w fun c i => do
    Application.dropHandle c i
    return i

/-- Start a receive on the oldest connection of a worker. The answer is the state of its slot. -/
def receive (w : Nat) : Act (Option (Except Fault (Option SlotState))) :=
  atOldest w fun c i => do
    Rig.receive c i
    return (← Run.slot? i).elim .disconnected (·.state)

/-- The acceptor is to stop. -/
def stop : Act Unit :=
  modify fun c =>
    let ((), distributor) := Distributor.stop c.distributor
    { c with distributor }

/-- Drop the distributor, if it is there. -/
def drop : Act Bool := do
  let present := (← get).present
  stop
  modify fun c => { c with present := false }
  return present

/-- Ask a worker to stop and run its loop to the end. -/
def shutDown (w : Nat) : Act (Option (Except Fault Nat)) :=
  atWorker w do
    Run.requestStop
    if (← get).app.running then
      Run.turnUpTo Application.serve (← Run.lastTurns)
      Application.finish
    return (← Run.worker).id

/-- The connections of a worker that are kept, each with the state of its slot. -/
def keptBy (m : Rig) : List (Nat × SlotState) :=
  (m.app.handles.filter (·.alive)).map fun h => (h.slot, (m.worker.slots[h.slot]?).elim .disconnected (·.state))

/-- The connections that are kept, by the number of their worker and then by slot. -/
def kept (c : Crew) : List (Nat × Nat × SlotState) :=
  c.distributor.workers.zipIdx.flatMap fun (m, w) =>
    ((keptBy m).map fun (i, state) => (w, i, state)).mergeSort fun (_, i, s) (_, k, t) =>
      i < k || (i = k && s.name ≤ t.name)

end Crew

end SlotServer.Bench
