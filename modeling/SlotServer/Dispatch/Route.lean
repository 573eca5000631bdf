import SlotServer.Dispatch.Issue

/-!
# Completions

A completion ends the operation of the slot that its context names. Which operation that was is told by the slot's
state; a slot that waits for none is a violation of protocol, which is counted and otherwise ignored.

- `Run.route`: one completion;
- `Run.onReceive`, `Run.onSend`, `Run.onClose`: the three kinds of operation.
-/

namespace SlotServer.Run

variable {α : Type}

/-- Count a violation of protocol on a slot. -/
def violation (i : Nat) (e : Error) : Run α Unit := do
  say .error s!"slot {i}: {e.message}"
  bump .violations 1

/-- The error number of a negative result. The least one has none. -/
def errnoOf (result : Int32) : Run α Int32 :=
  if result = Int32.minValue then throw .negOverflow else pure (-result)

/-- A receive has ended. No bytes are the peer's orderly end, and a negative result is an error: either closes the
connection before whoever waits is told. A connection without a handle is closed too. -/
def onReceive (i : Nat) (result : Int32) : Run α Unit := do
  if result ≤ 0 then
    match ← stepSlot i (Slot.abortReceive 0) with
    | .error e => violation i e
    | .ok _ =>
      let outcome : Outcome ←
        if result < 0 then do
          let errno ← errnoOf result
          say .debug s!"receive on slot {i} failed: errno {errno}"
          bump .errors 1
          pure (.error (.io errno))
        else do
          bump .receives 1
          pure (.ok 0)
      issueClose i
      completeReceive i outcome
  else
    let n := result.toInt.toNat
    match ← stepSlot i (Slot.finishReceive n) with
    | .error e => violation i e
    | .ok _ =>
      bump .receives 1
      bump .bytesIn (UInt64.ofNat n)
      if !((← slot? i).any (·.attached)) then disconnect i
      completeReceive i (.ok n)

/-- A send has ended. A negative result is an error, which closes the connection. -/
def onSend (i : Nat) (result : Int32) : Run α Unit := do
  if result < 0 then
    match ← stepSlot i Slot.abortSend with
    | .error e => violation i e
    | .ok _ =>
      let errno ← errnoOf result
      say .debug s!"send on slot {i} failed: errno {errno}"
      bump .errors 1
      issueClose i
      completeSend i (.error (.io errno))
  else
    let n := result.toInt.toNat
    match ← stepSlot i Slot.finishSend with
    | .error e => violation i e
    | .ok _ =>
      bump .sends 1
      bump .bytesOut (UInt64.ofNat n)
      if !((← slot? i).any (·.attached)) then disconnect i
      completeSend i (.ok n)

/-- A close has ended, well or not: the slot is free of its socket. -/
def onClose (i : Nat) (result : Int32) : Run α Unit := do
  if result < 0 then
    let errno ← errnoOf result
    say .debug s!"close on slot {i}: errno {errno}"
  match ← stepSlot i Slot.finishDisconnect with
  | .error e => violation i e
  | .ok _ =>
    bump .disconnects 1
    say .trace s!"slot {i} disconnected"
    release i

/-- Take one completion to the slot that it names. -/
def route (c : Completion) : Run α Unit := do
  let i := c.ctx.slot
  record (.answered c)
  match ← slot? i with
  | none =>
    say .error s!"completion for unknown slot {i}"
    bump .violations 1
  | some s =>
    match s.state with
    | .receiving => onReceive i c.result
    | .sending => onSend i c.result
    | .disconnecting => onClose i c.result
    | state =>
      say .error s!"unexpected completion ({c.result}) for slot {i} in state {state.name}"
      bump .violations 1

end SlotServer.Run
