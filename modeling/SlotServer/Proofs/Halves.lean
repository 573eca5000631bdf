import SlotServer.Dispatch.Finish

/-!
# The two halves of a slot

Receives and sends go the same way through a slot, each with its own states, segment and cell. What the two have in
common is said here once, for a `Half`.

- `SlotState.works`, `Half.working`: the state in which an operation of a half is under way;
- `Slot.halfOp`, `Slot.abortHalf`, `Slot.completeHalf`: an operation, its failure and its cell;
- `Run.issueHalf`: what the dispatch loop does for a half (`execute_half`), and `Run.failHalf`: what is done for it
  after the loop's end (`failCommand_half`);
- `Run.settleClose`, `Run.settleForce`: what follows a close, well or not (`onClose_eq`), and what is left to do for a
  slot that was forced free.
-/

namespace SlotServer

namespace SlotState

/-- An operation of the half is under way. -/
def works : SlotState → Half → Bool
  | .receiving, .receive | .sending, .send => true
  | _, _ => false

/-- The socket is being closed, or is closed. -/
def isOver : SlotState → Bool
  | .disconnecting | .disconnected => true
  | _ => false

theorem works_of_isOver {state : SlotState} (h : state.isOver = true) (half : Half) : state.works half = false := by
  cases state <;> cases h <;> rfl

theorem works_of_isIdle {state : SlotState} (h : state.isIdle = true) (half : Half) : state.works half = false := by
  cases state <;> cases h <;> rfl

theorem ne_disconnected_of_isIdle {state : SlotState} (h : state.isIdle = true) : state ≠ disconnected := by
  rintro rfl
  cases h

theorem mem_of_isIdle {state : SlotState} (h : state.isIdle = true) : state ∈ [accepted, received, sent] := by
  cases state <;> cases h <;> decide

theorem isIdle_of_mem {state : SlotState} (h : state ∈ [accepted, received, sent]) : state.isIdle = true := by
  cases state <;> first | rfl | exact absurd h (by decide)

theorem isOver_of_isIdle {state : SlotState} (h : state.isIdle = true) : state.isOver = false := by
  cases state <;> cases h <;> rfl

end SlotState

namespace Half

/-- The state in which an operation of the half is under way. -/
def working : Half → SlotState
  | receive => .receiving
  | send => .sending

/-- The command that has the half's operation queued. -/
def command (i : Nat) : Half → Command
  | receive => .receive i
  | send => .send i

@[simp] theorem slot_command (half : Half) (i : Nat) : (half.command i).slot = i := by cases half <;> rfl

theorem works_iff {state : SlotState} {half : Half} : state.works half = true ↔ state = half.working := by
  cases state <;> cases half <;> decide

theorem isIdle_working (half : Half) : half.working.isIdle = false := by
  cases half <;> rfl

theorem working_ne_disconnected (half : Half) : half.working ≠ .disconnected := by
  cases half <;> exact nofun

theorem works_working (half other : Half) : half.working.works other = decide (other = half) := by
  cases half <;> cases other <;> rfl

theorem works_self (half : Half) : half.working.works half = true := works_iff.2 rfl

end Half

namespace Slot

theorem advance_of_mem {s : Slot} {allowed : List SlotState} {next : SlotState} (h : s.state ∈ allowed) :
    s.advance allowed next = (.ok (), { s with state := next }) := by
  rw [advance, transition_of_mem h]
  rfl

theorem advance_of_not_mem {s : Slot} {allowed : List SlotState} {next : SlotState} (h : s.state ∉ allowed) :
    s.advance allowed next = (.error s.wrongState, s) := by
  rw [advance, transition_of_not_mem h]
  rfl

theorem abortReceive_ok {s : Slot} (h : s.state = .receiving) (n : Nat) :
    s.abortReceive n = (.ok (), { s with state := .disconnecting, receivedLength := n }) :=
  advance_of_mem (List.mem_singleton.2 h)

theorem finishReceive_ok {s : Slot} (h : s.state = .receiving) (n : Nat) :
    s.finishReceive n = (.ok (), { s with state := .received, receivedLength := n }) :=
  advance_of_mem (List.mem_singleton.2 h)

theorem abortSend_ok {s : Slot} (h : s.state = .sending) : s.abortSend = (.ok (), { s with state := .disconnecting }) :=
  advance_of_mem (List.mem_singleton.2 h)

theorem finishSend_ok {s : Slot} (h : s.state = .sending) : s.finishSend = (.ok (), { s with state := .sent }) :=
  advance_of_mem (List.mem_singleton.2 h)

/-- The slot without its socket. -/
abbrev unbound (s : Slot) : Slot := { s with state := .disconnected, fd := -1 }

theorem finishDisconnect_ok {s : Slot} (h : s.state = .disconnecting) :
    s.finishDisconnect = (.ok s.fd, s.unbound) := by
  rw [finishDisconnect, transition_of_mem (List.mem_singleton.2 h)]

/-- The slot with a socket that was just bound. -/
def withSocket (s : Slot) (fd : Int) (peer : Option Net.SocketAddress) : Slot :=
  { s with state := .accepting, fd, peer, receivedLength := 0, sendLength := 0, attached := false, leases := 1 }

theorem startAccept_ok {s : Slot} (h : s.state = .disconnected) (fd : Int) (peer : Option Net.SocketAddress) :
    s.startAccept fd peer = (.ok (), s.withSocket fd peer) := by
  rw [startAccept, transition_of_mem (List.mem_singleton.2 h)]
  rfl

theorem startAccept_error {s : Slot} (h : s.state ≠ .disconnected) (fd : Int) (peer : Option Net.SocketAddress) :
    s.startAccept fd peer = (.error s.wrongState, s) := by
  rw [startAccept, transition_of_not_mem fun hm => h (List.mem_singleton.1 hm)]

theorem force_free {s : Slot} (h : s.state = .disconnected) : s.force = (none, s) := if_pos h

theorem force_live {s : Slot} (h : s.state ≠ .disconnected) :
    s.force = (some (s.state, s.fd), s.unbound) := if_neg h

/-- The slot after an operation of a half began. A send is of so many bytes. -/
def begin (s : Slot) (length : Nat) : Half → Slot
  | .receive => { s with state := .receiving, receiveCell := {} }
  | .send => { s with state := .sending, sendCell := {}, sendLength := length }

@[simp] theorem state_begin (s : Slot) (length : Nat) (half : Half) : (s.begin length half).state = half.working := by
  cases half <;> rfl

@[simp] theorem fd_begin (s : Slot) (length : Nat) (half : Half) : (s.begin length half).fd = s.fd := by
  cases half <;> rfl

@[simp] theorem index_begin (s : Slot) (length : Nat) (half : Half) : (s.begin length half).index = s.index := by
  cases half <;> rfl

@[simp] theorem attached_begin (s : Slot) (length : Nat) (half : Half) :
    (s.begin length half).attached = s.attached := by
  cases half <;> rfl

theorem cell_begin_self (s : Slot) (length : Nat) (half : Half) : Connection.cell (s.begin length half) half = {} := by
  cases half <;> rfl

theorem cell_begin_of_ne (s : Slot) (length : Nat) {half other : Half} (h : other ≠ half) :
    Connection.cell (s.begin length half) other = Connection.cell s other := by
  cases half <;> cases other <;> first | rfl | exact absurd rfl h

/-- The states in which an operation of a half may begin. -/
def startsFrom : Half → List SlotState
  | .receive => [.accepted, .sent]
  | .send => [.accepted, .received, .sent]

theorem startReceive_eq (s : Slot) : s.startReceive =
    if s.state ∈ startsFrom .receive then (.ok (), s.begin 0 .receive) else (.error s.wrongState, s) := by
  by_cases hmem : s.state ∈ startsFrom .receive
  · rw [if_pos hmem]
    exact (if_pos hmem).trans (advance_of_mem (s := { s with receiveCell := s.receiveCell.reset }) hmem)
  · rw [if_neg hmem]
    exact if_neg hmem

theorem startSend_eq (s : Slot) (length : Nat) : s.startSend length =
    if s.sendHalf.length < length then (.error (.bufferTooSmall length s.sendHalf.length), s)
    else if s.state ∈ startsFrom .send then (.ok (), s.begin length .send) else (.error s.wrongState, s) := by
  by_cases hlong : s.sendHalf.length < length
  · rw [if_pos hlong]
    exact if_pos hlong
  rw [if_neg hlong]
  refine (if_neg hlong).trans ?_
  by_cases hmem : s.state ∈ startsFrom .send
  · rw [if_pos hmem]
    exact (if_pos hmem).trans
      (advance_of_mem (s := { s with sendCell := s.sendCell.reset, sendLength := length }) hmem)
  · rw [if_neg hmem]
    exact if_neg hmem

theorem isIdle_of_startsFrom {s : Slot} {half : Half} (h : s.state ∈ startsFrom half) : s.state.isIdle = true := by
  cases hs : s.state <;> rw [hs] at h <;> first | rfl | (cases half <;> exact absurd h (by decide))

/-- The segment of a half. -/
def segment (s : Slot) : Half → Segment
  | .receive => s.receiveHalf
  | .send => s.sendHalf

/-- The operation of a half, from a place on: a receive fills the whole half, and a send takes as many bytes as were
asked for. -/
def opAt (s : Slot) (half : Half) (i place : Nat) : Op :=
  match half with
  | .receive => .receive (.ofSlot i) s.fd place (low32 s.receiveHalf.length) s.receiveHalf.bufIndex
  | .send => .send (.ofSlot i) s.fd place (low32 s.sendLength) s.sendHalf.bufIndex

/-- The operation of a half, from the half's first byte on. -/
def halfOp (s : Slot) (half : Half) (i : Nat) : Op := s.opAt half i (s.segment half).offset

/-- The close of a slot. -/
def closeOp (s : Slot) (i : Nat) : Op := .close (.ofSlot i) s.fd

/-- The operation of a half has failed. -/
def abortHalf : Half → Step Unit
  | .receive => abortReceive 0
  | .send => abortSend

theorem abortHalf_working {s : Slot} {half : Half} (hstate : s.state = half.working) :
    ∃ n, s.abortHalf half = (.ok (), { s with state := .disconnecting, receivedLength := n }) := by
  cases half with
  | receive => exact ⟨0, advance_of_mem (List.mem_singleton.2 hstate)⟩
  | send => exact ⟨s.receivedLength, advance_of_mem (List.mem_singleton.2 hstate)⟩

theorem abortHalf_not_working {s : Slot} {half : Half} (hstate : s.state ≠ half.working) :
    ∃ n, s.abortHalf half = (.error s.wrongState, { s with receivedLength := n }) := by
  cases half with
  | receive => exact ⟨0, advance_of_not_mem fun hmem => hstate (List.mem_singleton.1 hmem)⟩
  | send => exact ⟨s.receivedLength, advance_of_not_mem fun hmem => hstate (List.mem_singleton.1 hmem)⟩

/-- Complete the cell of a half. -/
def completeHalf (half : Half) (outcome : Outcome) (s : Slot) : Except Fault (Option Waker × Slot) :=
  ((Connection.cell s half).complete outcome).map fun (waker, c) => (waker, Connection.setCell s c half)

theorem completeHalf_error {s : Slot} {half : Half} {o : Outcome} {fault : Fault}
    (h : s.completeHalf half o = .error fault) :
    (Connection.cell s half).phase = .completed ∧ fault = .completedTwice := by
  unfold completeHalf Cell.complete at h
  cases hphase : (Connection.cell s half).phase <;> rw [hphase] at h <;> cases h
  exact ⟨rfl, rfl⟩

theorem completeHalf_ok {s s' : Slot} {half : Half} {o : Outcome} {waker : Option Waker}
    (h : s.completeHalf half o = .ok (waker, s')) :
    ∃ c, c.phase = .completed ∧ c.outcome? = some o ∧ s' = Connection.setCell s c half := by
  unfold completeHalf Cell.complete at h
  cases hphase : (Connection.cell s half).phase <;> rw [hphase] at h <;> cases h <;> exact ⟨_, rfl, rfl, rfl⟩

theorem cell_setCell_self (s : Slot) (c : Cell) (half : Half) :
    Connection.cell (Connection.setCell s c half) half = c := by
  cases half <;> rfl

theorem cell_setCell_of_ne (s : Slot) (c : Cell) {half other : Half} (h : other ≠ half) :
    Connection.cell (Connection.setCell s c half) other = Connection.cell s other := by
  cases half <;> cases other <;> first | rfl | exact absurd rfl h

theorem setCell_cell (s : Slot) (half : Half) : Connection.setCell s (Connection.cell s half) half = s := by
  cases half <;> rfl

@[simp] theorem state_setCell (s : Slot) (c : Cell) (half : Half) : (Connection.setCell s c half).state = s.state := by
  cases half <;> rfl

@[simp] theorem fd_setCell (s : Slot) (c : Cell) (half : Half) : (Connection.setCell s c half).fd = s.fd := by
  cases half <;> rfl

@[simp] theorem attached_setCell (s : Slot) (c : Cell) (half : Half) :
    (Connection.setCell s c half).attached = s.attached := by
  cases half <;> rfl

@[simp] theorem ctx_opAt (s : Slot) (half : Half) (i place : Nat) : (s.opAt half i place).ctx = .ofSlot i := by
  cases half <;> rfl

end Slot

namespace Run

variable {α : Type}

/-- Queue the operation of a half. Where the kernel does not take it, the connection is closed. -/
def issueHalf (half : Half) (i : Nat) : Run α Unit := do
  match ← slot? i with
  | none => pure ()
  | some s =>
    let place ← placeOf (s.segment half)
    if let .error e ← queue (s.opAt half i place) then
      bump .errors 1
      if (← stepSlot i (Slot.abortHalf half)) matches .ok _ then
        issueClose i
        completeCell ⟨i, half⟩ (Slot.completeHalf half (.error e))

theorem execute_half (serve : Serve α) (half : Half) (i : Nat) : execute serve (half.command i) = issueHalf half i := by
  cases half <;> rfl

/-- Fail the operation of a half that will not be queued. -/
def failHalf (half : Half) (i : Nat) : Run α Unit := do
  if (← stepSlot i (Slot.abortHalf half)) matches .ok _ then
    closeSlot i
    completeCell ⟨i, half⟩ (Slot.completeHalf half (.error .connectionClosed))

theorem failCommand_half (half : Half) (i : Nat) : (failCommand (half.command i) : Run α Unit) = (do
    say .debug s!"failing orphaned {(half.command i).text}"
    failHalf half i) := by
  cases half <;> rfl

/-- Free a slot of its socket, which the kernel has closed. -/
def settleClose (i : Nat) : Run α Unit := do
  match ← stepSlot i Slot.finishDisconnect with
  | .error e => violation i e
  | .ok _ =>
    bump .disconnects 1
    say .trace s!"slot {i} disconnected"
    release i

theorem onClose_eq (i : Nat) (result : Int32) : (onClose i result : Run α Unit) = (do
    if result < 0 then
      let errno ← errnoOf result
      say .debug s!"close on slot {i}: errno {errno}"
    settleClose i) := rfl

/-- Close the socket of a slot that was forced free, unless the kernel has its close, and give the lease back. -/
def settleForce (i : Nat) (s : Slot) : Run α Bool := do
  if s.state ≠ .disconnecting then closeNow (some i) s.fd
  bump .disconnects 1
  release s.index
  return true

end Run

end SlotServer
