import SlotServer.SlotState
import SlotServer.Text.Quoted

/-!
# Errors

What a caller of the engine is told when something cannot be done.

- `Error.message` is the wording;
- `Error.errno?` is the system's error number, where there is one;
- `Error.debug` shows the value with its fields.
-/

namespace SlotServer

/-- Why an operation could not be done. -/
inductive Error
  /-- The ring could not be set up. -/
  | ringSetup (errno : Int32)
  /-- The submission queue is full. -/
  | ringFull
  /-- The kernel refused the queued operations. -/
  | submit (errno : Int32)
  /-- The buffer region could not be mapped. -/
  | bufferAlloc (errno : Int32)
  /-- The buffer region could not be registered. -/
  | bufferRegister (errno : Int32)
  /-- The wake-up counter could not be made or written. -/
  | notifier (errno : Int32)
  /-- A socket could not be set up. -/
  | socket (errno : Int32)
  /-- A thread or task could not be started. -/
  | spawn
  /-- A configuration was refused. -/
  | invalidConfig (why : String)
  /-- A slot is in a state that does not allow the request. -/
  | invalidState (slot : Nat) (state : SlotState)
  /-- A send is longer than the send half. -/
  | bufferTooSmall (requested capacity : Nat)
  /-- Every slot is taken. -/
  | noFreeSlot
  /-- The connection is gone. -/
  | connectionClosed
  /-- A receive or send ended with an error. -/
  | io (errno : Int32)
  /-- Another error of the system. -/
  | os (errno : Int32)
  deriving DecidableEq, Repr, Inhabited

namespace Error

/-- The system's error number, where the error has one. -/
def errno? : Error → Option Int32
  | ringSetup e | submit e | bufferAlloc e | bufferRegister e | notifier e | socket e | io e | os e => some e
  | _ => none

/-- The name of the kind of error. -/
def kind : Error → String
  | ringSetup _ => "RingSetup"
  | ringFull => "RingFull"
  | submit _ => "Submit"
  | bufferAlloc _ => "BufferAlloc"
  | bufferRegister _ => "BufferRegister"
  | notifier _ => "Notifier"
  | socket _ => "Socket"
  | spawn => "Spawn"
  | invalidConfig _ => "InvalidConfig"
  | invalidState _ _ => "InvalidState"
  | bufferTooSmall _ _ => "BufferTooSmall"
  | noFreeSlot => "NoFreeSlot"
  | connectionClosed => "ConnectionClosed"
  | io _ => "Io"
  | os _ => "Os"

/-- The wording of an error. -/
def message : Error → String
  | ringSetup e => s!"io_uring setup: errno {e}"
  | ringFull => "ring full"
  | submit e => s!"io_uring submit: errno {e}"
  | bufferAlloc e => s!"buffer alloc failed: errno {e}"
  | bufferRegister e => s!"buffer register failed: errno {e}"
  | notifier e => s!"notifier: errno {e}"
  | socket e => s!"socket: errno {e}"
  | spawn => "spawn failed"
  | invalidConfig why => s!"invalid config: {why}"
  | invalidState slot state => s!"slot {slot} in invalid state {state.name}"
  | bufferTooSmall requested capacity => s!"send of {requested} bytes exceeds buffer of {capacity}"
  | noFreeSlot => "no free connection slot"
  | connectionClosed => "connection closed"
  | io e => s!"I/O completion failed: errno {e}"
  | os e => s!"OS error: errno {e}"

/-- The error with its fields. -/
def debug (e : Error) : String :=
  match e with
  | invalidConfig why => s!"{e.kind}({Text.quote why})"
  | invalidState slot state => s!"{e.kind} \x7b slot: {slot}, state: {state.word} \x7d"
  | bufferTooSmall requested capacity => s!"{e.kind} \x7b requested: {requested}, capacity: {capacity} \x7d"
  | e =>
    match e.errno? with
    | some n => s!"{e.kind}({n})"
    | none => e.kind

end Error

/-- How an operation ended: a byte count, or why it failed. -/
abbrev Outcome := Except Error Nat

end SlotServer
