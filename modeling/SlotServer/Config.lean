import SlotServer.Environment
import SlotServer.Error
import SlotServer.Fault

/-!
# Configuration

The sizes and choices that a server starts with.

- `Config.ofEnvironment`: the defaults, with what the environment sets;
- `Config.validate`: what a worker can be built from;
- `Config.effectiveWorkers`, `Config.slotsPerWorker`: how many workers there are and how the slots are shared out.

Sizes are 64-bit words: `backlog`, `receiveLength`, `sendLength`, `workers`, `batch` and `handlerThreads` are below
`wordCount`, `acceptBacklog` and `ringEntries` below `2 ^ 32`. A span of time has its seconds in a 64-bit word: `grace`
is below `1000 * wordCount`, which is more than a clock can tell (`timeCount`).
-/

namespace SlotServer

/-- What a server starts with. -/
structure Config where
  listen : Net.SocketAddress := .v4 ⟨0, 0, 0, 0⟩ 9999
  /-- How many connections wait in the kernel. -/
  acceptBacklog : Nat := 4096
  /-- How many connections are served, over all workers. -/
  backlog : Nat := 1024
  receiveLength : Nat := 4096
  sendLength : Nat := 4096
  /-- Zero stands for one per core. -/
  workers : Nat := 0
  /-- Small packets are held back. -/
  useNagle : Bool := false
  useFastLoopback : Bool := false
  /-- The size of each worker's submission queue. -/
  ringEntries : Nat := 256
  /-- How many completions are taken at a time. -/
  batch : Nat := 1024
  /-- Zero stands for one per core. -/
  handlerThreads : Nat := 0
  /-- How long a worker drains, in milliseconds. -/
  grace : Nat := 2000
  deriving Repr, DecidableEq, Inhabited

/-- The value is a power of two. -/
def isPowerOfTwo (n : Nat) : Bool := n ≠ 0 && n &&& (n - 1) = 0

namespace Config

/-- The variables that the environment may set. -/
def variableNames : List String :=
  ["REGIO_LISTEN", "REGIO_ACCEPT_BACKLOG", "REGIO_CONNECTIONS", "REGIO_RECV_BUF", "REGIO_SEND_BUF", "REGIO_WORKERS",
    "REGIO_NAGLE", "REGIO_FAST_LOOPBACK", "REGIO_SQ_ENTRIES", "REGIO_HANDLER_THREADS"]

/-- The defaults, with what the environment sets. -/
def ofEnvironment (env : Environment) : Config :=
  let size := fun bits name otherwise => (env.parse? (Text.natural? (Text.greatest bits)) name).getD otherwise
  let d : Config := {}
  { d with
    listen := (env.parse? Net.SocketAddress.read? "REGIO_LISTEN").getD d.listen
    acceptBacklog := size 32 "REGIO_ACCEPT_BACKLOG" d.acceptBacklog
    backlog := size 64 "REGIO_CONNECTIONS" d.backlog
    receiveLength := size 64 "REGIO_RECV_BUF" d.receiveLength
    sendLength := size 64 "REGIO_SEND_BUF" d.sendLength
    workers := size 64 "REGIO_WORKERS" d.workers
    useNagle := env.flag "REGIO_NAGLE" d.useNagle
    useFastLoopback := env.flag "REGIO_FAST_LOOPBACK" d.useFastLoopback
    ringEntries := size 32 "REGIO_SQ_ENTRIES" d.ringEntries
    handlerThreads := size 64 "REGIO_HANDLER_THREADS" d.handlerThreads }

/-- The greatest length of a half: operations carry it in 32 bits. -/
def greatestHalf : Nat := 0xffffffff

/-- Why a configuration is refused, the first reason that applies. -/
def complaint? (c : Config) : Option String :=
  if c.receiveLength = 0 then some "receive_buffer_length must be non-zero"
  else if c.sendLength = 0 then some "send_buffer_length must be non-zero"
  else if greatestHalf < c.receiveLength || greatestHalf < c.sendLength then some "buffer length exceeds 4 GiB"
  else if c.backlog = 0 then some "connection_backlog must be non-zero"
  else if !isPowerOfTwo c.ringEntries then some "sq_entries must be a power of two"
  else if c.batch = 0 then some "completion_batch must be non-zero"
  else none

/-- A worker can be built from the configuration. -/
def validate (c : Config) : Except Error Unit :=
  match c.complaint? with
  | some why => .error (.invalidConfig why)
  | none => .ok ()

/-- The count of workers on a machine of `cores` cores: at least one, and no more than there are connections. -/
def effectiveWorkers (c : Config) (cores : Nat) : Nat :=
  let asked := if c.workers = 0 then cores else c.workers
  min (max asked 1) (max c.backlog 1)

/-- The slots of each worker, rounded up. -/
def slotsPerWorker (c : Config) (cores : Nat) : Nat :=
  let w := c.effectiveWorkers cores
  (c.backlog + w - 1) / w

/-- The count of threads that run handlers. -/
def effectiveThreads (c : Config) (cores : Nat) : Nat :=
  if c.handlerThreads = 0 then max cores 2 else c.handlerThreads

/-- The length of a slot's segment: its receive half and its send half. -/
def segmentLength (c : Config) : Except Fault Nat := checkedAdd c.receiveLength c.sendLength

theorem effectiveWorkers_pos (c : Config) (cores : Nat) : 0 < c.effectiveWorkers cores := by
  simp only [effectiveWorkers]
  omega

end Config

/-- The cores of the machine that the program runs on: it keeps to one. -/
def machineCores : Nat := 1

/-- A choice of one field of a configuration. -/
inductive Setting
  | listen (address : Net.SocketAddress)
  | acceptBacklog (n : Nat)
  | backlog (n : Nat)
  | receiveLength (n : Nat)
  | sendLength (n : Nat)
  | workers (n : Nat)
  | useNagle (on : Bool)
  | useFastLoopback (on : Bool)
  | ringEntries (n : Nat)
  | batch (n : Nat)
  | handlerThreads (n : Nat)
  | grace (milliseconds : Nat)
  deriving Repr, DecidableEq

/-- The configuration after a choice. -/
def Config.set (c : Config) : Setting → Config
  | .listen address => { c with listen := address }
  | .acceptBacklog n => { c with acceptBacklog := n }
  | .backlog n => { c with backlog := n }
  | .receiveLength n => { c with receiveLength := n }
  | .sendLength n => { c with sendLength := n }
  | .workers n => { c with workers := n }
  | .useNagle on => { c with useNagle := on }
  | .useFastLoopback on => { c with useFastLoopback := on }
  | .ringEntries n => { c with ringEntries := n }
  | .batch n => { c with batch := n }
  | .handlerThreads n => { c with handlerThreads := n }
  | .grace n => { c with grace := n }

/-- The configuration after a row of choices. -/
def Config.setAll (c : Config) (settings : List Setting) : Config := settings.foldl Config.set c

end SlotServer
