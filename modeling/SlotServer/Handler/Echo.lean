import SlotServer.Connection

/-!
# Handlers

What an application does with a connection. A handler is a task that is polled: it goes on until it awaits an outcome
that is not there yet, and is polled again after it was woken.

- `Handler.echo`: send back what was received, until the peer ends or something fails;
- `Handler.once`: send back one message, reversed;
- `Handler.poll`: one poll of a handler's task.

A handler that returns drops its connection, and so does one that is at fault.
-/

namespace SlotServer

/-- What a handler does. -/
inductive Handler
  /-- Send back what was received, over and over. -/
  | echo
  /-- Receive once, send that back reversed, and return. -/
  | once
  /-- Return at once. -/
  | leave
  deriving DecidableEq, Repr, Inhabited

namespace Handler

/-- Where a task is. -/
inductive Stage
  /-- About to receive. -/
  | ready
  /-- A receive is awaited. -/
  | receiving (future : OperationFuture)
  /-- A send is awaited. -/
  | sending (future : OperationFuture)
  /-- The handler has returned. -/
  | finished
  deriving DecidableEq, Repr

variable {α : Type}

/-- Whether a task has to wait where it is, or goes on. -/
inductive Progress
  | waits (stage : Stage)
  | goesOn (stage : Stage)
  deriving DecidableEq, Repr

/-- Copy the first `n` received bytes into the send half, or as many as it holds. -/
def copyOver (i n : Nat) : Run α Unit := do
  let rx ← Connection.received i
  let n := min n (← Connection.sendBuffer i).length
  if rx.length < n then throw (.beyondView n rx.length)
  discard (Connection.fill i (rx.take n).toArray)

/-- Start to send bytes of the send half. -/
def startSend (i n : Nat) : Run α Progress := do
  match ← Connection.send i n with
  | .error _ => return .goesOn .finished
  | .ok future => return .goesOn (.sending future)

/-- What follows on a receive of `n` bytes. -/
def answer (h : Handler) (i n : Nat) : Run α Progress := do
  match h with
  | .echo =>
    copyOver i n
    startSend i (min n (← Connection.sendCapacity i))
  | .once =>
    let (count, _) ← Connection.fill i (← Connection.received i).reverse.toArray
    startSend i count
  | .leave => return .goesOn .finished

/-- Go from one awaited outcome to the next. -/
def step (h : Handler) (waker : Waker) (i : Nat) : Stage → Run α Progress
  | .ready => do
    match h with
    | .leave => return .goesOn .finished
    | _ => return .goesOn (.receiving (← Connection.receive i))
  | .receiving future => do
    match ← Connection.pollFuture waker future with
    | (.pending, future) => return .waits (.receiving future)
    | (.ready (.error _), _) | (.ready (.ok 0), _) => return .goesOn .finished
    | (.ready (.ok n), _) => answer h i n
  | .sending future => do
    match ← Connection.pollFuture waker future with
    | (.pending, future) => return .waits (.sending future)
    | (.ready (.error _), _) => return .goesOn .finished
    | (.ready (.ok _), _) =>
      match h with
      | .echo => return .goesOn .ready
      | _ => return .goesOn .finished
  | .finished => return .waits .finished

/-- Up to so many steps. -/
def steps (h : Handler) (waker : Waker) (i : Nat) : Nat → Stage → Run α Stage
  | 0, stage => pure stage
  | n + 1, stage => do
    match ← step h waker i stage with
    | .waits stage => return stage
    | .goesOn .finished => return .finished
    | .goesOn stage => steps h waker i n stage

/-- The steps of a poll. An operation that was just started has no outcome yet, or an error that ends the handler: a
poll ends one operation, starts the next and asks for its outcome. -/
def stepsOfPoll : Nat := 4

/-- Poll the task of a handler for the connection of a slot. -/
def poll (h : Handler) (waker : Waker) (i : Nat) (stage : Stage) : Run α Stage := do
  let stage ←
    try steps h waker i stepsOfPoll stage
    catch fault =>
      Connection.drop i
      throw fault
  if stage = .finished then Connection.drop i
  return stage

end Handler

end SlotServer
