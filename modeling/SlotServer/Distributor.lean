import SlotServer.Rotation
import SlotServer.Worker.Inbox

/-!
# Distributors

An acceptor hands each new connection to the worker whose turn it is. A worker without a free slot refuses it, and no
other worker is tried.

- `Distributor.offer`: a connection for the worker whose turn it is;
- `Distributor.assign`: a connection for a worker of one's choice;
- `Distributor.take`: what the acceptor does with the answer of one accept.
-/

namespace SlotServer

/-- Workers that take connections in turn. -/
structure Distributor (α : Type) where
  workers : List (Machine α)
  rotation : Rotation
  /-- The acceptor was told to stop. -/
  stopped : Bool := false

/-- What an acceptor does after an accept that failed. -/
inductive AfterFailure
  | again
  /-- Again, but after a rest that lets descriptors become free. -/
  | afterRest
  | stop
  deriving DecidableEq, Repr

/-- The system's numbers for a connection that went away and for an interruption. -/
def passing : List Int32 := [4, 71, 103]

/-- The system's numbers for descriptors or memory that ran out. -/
def exhausted : List Int32 := [12, 23, 24, 105]

/-- What an acceptor does after an accept that failed with this number. -/
def AfterFailure.of (errno : Int32) : AfterFailure :=
  if errno ∈ passing then .again else if errno ∈ exhausted then .afterRest else .stop

namespace Distributor

variable {α β : Type}

/-- What is done with the workers of a distributor. -/
abbrev Act (α β : Type) := StateM (Distributor α) β

/-- A distributor over workers, of which there has to be one. -/
def start (workers : List (Machine α)) : Except Error (Distributor α) :=
  if workers.isEmpty then .error (.invalidConfig "no workers to distribute to")
  else .ok { workers, rotation := .start workers.length }

/-- The distributor with another worker in the place of an old one. -/
def setWorker (d : Distributor α) (w : Nat) (m : Machine α) : Distributor α := { d with workers := d.workers.set w m }

/-- Do something at the worker of a number, if there is one. -/
def atWorker (w : Nat) (act : Run α β) : Act α (Option (Except Fault β)) := do
  match (← get).workers[w]? with
  | none => return none
  | some m =>
    match act m with
    | .ok b m =>
      modify (·.setWorker w m)
      return some (.ok b)
    | .error fault m =>
      modify (·.setWorker w m)
      return some (.error fault)

/-- Bind a new TCP socket to a free slot of the worker. -/
def bindNew (peer : Option Net.SocketAddress) : Run α (Except Error Nat) := do
  let fd ← Run.openSocket .tcp
  Run.assign fd peer

/-- A connection for the worker of a number. The answer is its slot, if there is such a worker. -/
def assign (w : Nat) (peer : Option Net.SocketAddress) : Act α (Option (Except Fault (Except Error Nat))) :=
  atWorker w (bindNew peer)

/-- The number of the worker whose turn it is. -/
def nextWorker : Act α Nat :=
  modifyGet fun d =>
    let (w, rotation) := d.rotation.pick
    (w, { d with rotation })

/-- A connection for the worker whose turn it is. -/
def offer (peer : Option Net.SocketAddress) : Act α (Option (Except Fault (Except Error Nat))) := do
  assign (← nextWorker) peer

/-- What the acceptor does with the answer of one accept: a connection from a peer, or a failure. The result is whether
it goes on. -/
def take (answer : Except Int32 Net.SocketAddress) : Act α Bool := do
  if (← get).stopped then return false
  match answer with
  | .ok peer =>
    discard (offer (some peer))
    return true
  | .error e => return AfterFailure.of e ≠ .stop

/-- Take no more connections. -/
def stop : Act α Unit := modify fun d => { d with stopped := true }

theorem length_setWorker (d : Distributor α) (w : Nat) (m : Machine α) :
    (d.setWorker w m).workers.length = d.workers.length := List.length_set

end Distributor

end SlotServer
