import SlotServer.Server

/-!
# The echo server as a program

The environment and two arguments make the configuration. The program writes what it does, serves until it is told to
stop, and then shows what was counted.

- `Program.configure`: the configuration;
- `Program.launch`: the lines up to the moment from which on connections are served, or up to the failure;
- `Program.farewell`: the lines at the end;
- `Line.text`: the wording.
-/

namespace SlotServer.Program

/-- A line that the program writes. -/
inductive Line
  | starting (listen : Net.SocketAddress) (connections workers : Nat)
  | failed (e : Error)
  | listening (address : Net.SocketAddress)
  | shuttingDown
  /-- What was counted in so many tenths of a second. -/
  | counted (tenths : Nat) (counters : Counters)
  | done
  deriving DecidableEq, Repr

/-- A time in seconds, with one place. -/
def secondsText (tenths : Nat) : String := s!"{tenths / 10}.{tenths % 10}s"

/-- The wording of a line. The one that tells of the end has an empty line before it. -/
def Line.text : Line → String
  | .starting listen connections workers =>
    s!"regio-echo: starting on {listen.text} ({connections} connections, {workers} workers)"
  | .failed e => s!"regio-echo: failed to start: {e.message}"
  | .listening address => s!"regio-echo: listening on {address.text}"
  | .shuttingDown => "\nregio-echo: shutting down..."
  | .counted tenths counters => s!"[{secondsText tenths}] {counters.text}"
  | .done => "regio-echo: done."

/-- The configuration of an environment and arguments: the first is the number of the service, the second the count of
connections. One that is no number has no effect. -/
def configure (env : Environment) (args : List String) : Config :=
  let read := fun bits i => args[i]?.bind (Text.natural? (Text.greatest bits))
  let c := Config.ofEnvironment env
  { c with
    listen := (read 16 0).elim c.listen fun number => c.listen.withService (UInt16.ofNat number)
    backlog := (read 64 1).getD c.backlog }

/-- The line with which the program starts. -/
def firstLine (config : Config) (cores : Nat) : Line :=
  .starting config.listen config.backlog (config.effectiveWorkers cores)

/-- What comes of a start, beyond the line before it. -/
def opened (startup : Startup) : Except Fault (Except Error Server × Line) :=
  startup.outcome.map fun answer =>
    match answer with
    | .ok server => (.ok server, .listening server.listener.address)
    | .error e => (.error e, .failed e)

/-- Start the server in a network namespace, and write what comes of it. -/
def launch (config : Config) (cores : Nat) (ns : Net.Namespace) : Except Fault (Except Error Server × List Line) :=
  (opened (Server.start config cores .echo ns)).map fun (answer, line) => (answer, [firstLine config cores, line])

/-- The lines at the end of a server that ran for so many tenths of a second. What it counted is read before it is
stopped. -/
def farewell (server : Server) (tenths : Nat) : Except Fault (List Line) :=
  server.total.map fun counters => [.shuttingDown, .counted tenths counters, .done]

/-- The program's exit code: one where the server did not start. -/
def exitCode {α : Type} : Except Error α → Nat
  | .ok _ => 0
  | .error _ => 1

end SlotServer.Program
