import SlotServer.Distributor
import SlotServer.Handler.Application
import SlotServer.Net.Listener
import SlotServer.Worker.Start

/-!
# Servers

A listening socket, an acceptor, and workers whose connections one handler serves.

- `Server.start`: check the configuration, listen, and start the workers one after another;
- `Server.stop`: stop the acceptor, drain the workers and tear them down;
- `Server.counters`, `Server.total`, `Server.freeSlots`: what the workers counted, and the slots that nobody uses.
-/

namespace SlotServer

/-- A server. -/
structure Server where
  listener : Net.Listener
  distributor : Distributor Application

/-- What comes of an attempt to start a server, and what was written to the log. -/
structure Startup where
  outcome : Except Fault (Except Error Server)
  log : List Said

namespace Server

/-- The lines that a worker wrote, the earliest first. -/
def linesOf (m : Machine Application) : List Said :=
  m.trace.reverse.filterMap fun
    | .said level message => some (level, message)
    | _ => none

/-- Ask a worker to stop and run its loop to the end. -/
def stopWorker : Application.Act Unit := do
  Run.requestStop
  Run.modifyApp fun r => { r with running := false }
  Run.dispatch Application.serve (← Run.lastTurns)

/-- The worker after it was stopped. A fault ends its loop without a teardown. -/
def stopped (m : Machine Application) : Machine Application :=
  match stopWorker m with
  | .ok _ m => m
  | .error _ m =>
    { m with trace := .said .warn s!"worker {m.worker.id}: dispatch thread panicked" :: m.trace }

/-- Start so many workers after those that there are, on a machine of such memory. Where one does not start, the others
are still there. -/
def startWorkers (config : Config) (cores : Nat) (handler : Handler) :
    Nat → Memory → List (Machine Application) → Except Fault (Except Error Unit) × List (Machine Application)
  | 0, _, crew => (.ok (.ok ()), crew)
  | n + 1, memory, crew =>
    match Worker.start crew.length config cores memory with
    | .error fault => (.error fault, crew)
    | .ok (.error e) => (.ok (.error e), crew)
    | .ok (.ok s) =>
      let m := { worker := s.worker, kernel := s.kernel, trace := s.trace, app := { service := .handler handler } }
      startWorkers config cores handler n s.memory (crew ++ [m])

/-- What the log says of a choice that does nothing here. -/
def fastLoopbackLine : String := "regio: use_fast_loopback has no effect on Linux, ignored"

/-- What the log says of a server that has started. -/
def servingLine (config : Config) (cores : Nat) (address : Net.SocketAddress) : String :=
  s!"regio: serving {address.text} with {config.effectiveWorkers cores} workers " ++
    s!"x {config.slotsPerWorker cores} slots ({config.receiveLength}+{config.sendLength} byte buffers)"

/-- Start workers behind a listening socket. -/
def startBehind (config : Config) (cores : Nat) (handler : Handler) (listener : Net.Listener) (memory : Memory) :
    Startup :=
  let first : List Said := if config.useFastLoopback then [(.info, fastLoopbackLine)] else []
  let failed := fun (crew : List (Machine Application)) => first ++ (crew.map stopped).flatMap linesOf
  match startWorkers config cores handler (config.effectiveWorkers cores) memory [] with
  | (.error fault, crew) => ⟨.error fault, failed crew⟩
  | (.ok (.error e), crew) => ⟨.ok (.error e), failed crew⟩
  | (.ok (.ok _), crew) =>
    match Distributor.start crew with
    | .error e => ⟨.ok (.error e), failed crew⟩
    | .ok distributor =>
      ⟨.ok (.ok { listener, distributor }), first ++ [(.info, servingLine config cores listener.address)]⟩

/-- Start a server in a network namespace, on a machine of such memory. -/
def start (config : Config) (cores : Nat) (handler : Handler) (ns : Net.Namespace) (memory : Memory := .usual) :
    Startup :=
  match config.validate with
  | .error e => ⟨.ok (.error e), []⟩
  | .ok _ =>
    match Net.Listener.bind config ns with
    | .error e => ⟨.ok (.error e), []⟩
    | .ok (listener, _) => startBehind config cores handler listener memory

/-- The workers. -/
def workers (s : Server) : List (Machine Application) := s.distributor.workers

/-- What each worker counted. -/
def counters (s : Server) : List Counters := s.workers.map (·.worker.counters)

/-- What the workers counted together. -/
def total (s : Server) : Except Fault Counters := Counters.total s.counters

/-- The slots that nobody uses. -/
def freeSlots (s : Server) : Nat := s.workers.foldl (fun n m => n + m.worker.free.length) 0

/-- Stop the acceptor, and drain and tear down every worker. -/
def stop (s : Server) : Server :=
  { s with distributor := { s.distributor with workers := s.workers.map stopped, stopped := true } }

/-- What the log says of a server that has stopped, unless its counters have no sum. -/
def stoppedLine (s : Server) : Except Fault String := s.total.map fun c => s!"regio: stopped {c.text}"

/-- What was written to the log from the start of a server that has stopped to its end, after the lines of its start. -/
def log (s : Server) : List Said :=
  s.workers.flatMap linesOf ++ (s.stoppedLine.toOption.map fun line => (.info, line)).toList

/-- Stopping keeps every worker. -/
theorem length_workers_stop (s : Server) : s.stop.workers.length = s.workers.length := by
  simp [stop, workers]

end Server

end SlotServer
