import Mathlib.Logic.Relation
import SlotServer.Proofs.Halves

/-!
# A slot between the loop and its handle

The dispatch loop does not end an operation at once. The slot moves on, then the loop sees whether the connection still
has a handle, and at last the cell is completed; an operation that failed has its close queued before that. A handle may
do something between any two of these steps.

- `Beat`, `Beat.run`: what the loop does at once at a slot, and what it is to do next;
- `Scene.Call`: what handles and acceptors do at once at a slot;
- `Scene`, `Scene.Step`: a slot with what the loop has yet to do for it, and all that may happen next;
- `Scene.play?`: what comes of a schedule.
-/

namespace SlotServer

variable {β : Type}

/-- The state in which an operation of the half leaves the slot. -/
def Half.ended : Half → SlotState
  | receive => .received
  | send => .sent

/-- The half whose operation is under way. -/
def SlotState.half? : SlotState → Option Half
  | receiving => some .receive
  | sending => some .send
  | _ => none

theorem SlotState.half?_eq_some {state : SlotState} {half : Half} :
    state.half? = some half ↔ state = half.working := by
  cases state <;> cases half <;> decide

/-- The operation of a half has ended. A receive has delivered so many bytes. -/
def Slot.finishHalf (n : Nat) : Half → Slot.Step Unit
  | .receive => finishReceive n
  | .send => finishSend

/-- What an operation goes through. -/
inductive Note
  | began (half : Half)
  /-- The slot moved on from the operation, which had this outcome. -/
  | ended (half : Half) (outcome : Outcome)
  /-- The cell was completed with this outcome. -/
  | completed (half : Half) (outcome : Outcome)

/-- What the dispatch loop does at once at a slot. -/
inductive Beat
  /-- A new socket is taken over. -/
  | accept
  /-- The connection gets a handle. -/
  | attach
  /-- A new socket is given up. -/
  | abandon
  /-- The operation of the half has ended. -/
  | finish (half : Half) (n : Nat)
  /-- The operation of the half has failed, or met the peer's end. -/
  | abort (half : Half) (outcome : Outcome)
  /-- See whether the connection has a handle. -/
  | check
  /-- The connection is closed, if it is idle. -/
  | disconnect
  /-- The close is queued. -/
  | close
  /-- The close has ended. -/
  | unbind
  /-- The lease of the socket is given back. -/
  | release
  /-- The slot is freed whatever its state. -/
  | force
  /-- The cell of the half is completed. -/
  | complete (half : Half) (outcome : Outcome)

/-- What comes of a beat. -/
structure Beat.Next where
  /-- What is to be done next, before what was to be done after the beat. -/
  more : List Beat := []
  notes : List Note := []
  slot : Slot

namespace Beat

/-- What comes of a step of the slot. One that is refused ends the row. -/
def ifMoved (more : List Beat) (notes : List Note) : Except Error β × Slot → Next
  | (.ok _, slot) => { more, notes, slot }
  | (.error _, slot) => { slot }

/-- Do the beat at a slot. Where a close is queued, `taken` is whether the kernel takes it. -/
def run (taken : Bool) : Beat → Slot → Except Fault Next
  | accept, s => .ok (ifMoved [attach] [] s.finishAccept)
  | attach, s => .ok { slot := s.attach }
  | abandon, s => .ok (ifMoved [close] [] s.abortAccept)
  | finish half n, s =>
    .ok (ifMoved [check, complete half (.ok n)] [.ended half (.ok n)] (s.finishHalf n half))
  | abort half outcome, s =>
    .ok (ifMoved [close, complete half outcome] [.ended half outcome] (s.abortHalf half))
  | check, s => .ok { more := if s.attached then [] else [disconnect], slot := s }
  | disconnect, s => .ok (ifMoved [close] [] s.startDisconnect)
  | close, s => .ok { more := if taken then [] else [unbind], slot := s }
  | unbind, s => .ok (ifMoved [release] [] s.finishDisconnect)
  | release, s =>
    match s.releaseLease with
    | (none, _) => .error s.leaseFault
    | (some _, slot) => .ok { slot }
  | force, s =>
    match s.force with
    | (none, slot) => .ok { slot }
    | (some (state, _), slot) =>
      .ok {
        more := (state.half?.map (complete · (.error .connectionClosed))).toList ++ [release]
        notes := (state.half?.map (.ended · (.error .connectionClosed))).toList
        slot }
  | complete half outcome, s =>
    (s.completeHalf half outcome).map fun (_, slot) => { notes := [.completed half outcome], slot }

/-- The beats that the loop may begin with, where it has nothing else to do for the slot. -/
def opens : Beat → Bool
  | accept | abandon | finish .. | abort .. | disconnect | close | unbind | force => true
  | attach | check | release | complete .. => false

end Beat

/-- A slot, what the loop has yet to do for it, and what its operations went through, the latest first. -/
structure Scene where
  slot : Slot
  todo : List Beat := []
  log : List Note := []

namespace Scene

/-- What handles and acceptors do at once at a slot. -/
inductive Call
  /-- An acceptor binds a socket. -/
  | bind (fd : Int) (peer : Option Net.SocketAddress)
  | receive
  | send (length : Nat)
  | poll (half : Half) (waker : Waker)
  /-- The handle is gone. -/
  | detach
  /-- The connection of a handle that is gone is closed, if it is idle. -/
  | disconnect
  /-- The lease of a handle is given back. -/
  | release

/-- What comes of an operation's beginning. -/
def begun (half : Half) : Except Error Unit × Slot → List Note × Slot
  | (.ok _, slot) => ([.began half], slot)
  | (.error _, slot) => ([], slot)

/-- Make the call at a slot. -/
def Call.run : Call → Slot → Except Fault (List Note × Slot)
  | bind fd peer, s => .ok ([], (s.startAccept fd peer).2)
  | receive, s => .ok (begun .receive s.startReceive)
  | send length, s => .ok (begun .send (s.startSend length))
  | poll half waker, s => .ok ([], Connection.setCell s ((Connection.cell s half).poll waker).2 half)
  | detach, s => .ok ([], s.detach)
  | disconnect, s => .ok ([], s.startDisconnect.2)
  | release, s =>
    match s.releaseLease with
    | (none, _) => .error s.leaseFault
    | (some _, slot) => .ok ([], slot)

/-- The loop goes on with what it is to do. -/
inductive GoesOn (d : Scene) : Scene → Prop
  | beat {b : Beat} {rest : List Beat} {taken : Bool} {next : Beat.Next} (htodo : d.todo = b :: rest)
    (hrun : b.run taken d.slot = .ok next) : GoesOn d ⟨next.slot, next.more ++ rest, next.notes ++ d.log⟩

/-- What may happen next. -/
inductive Step (d : Scene) : Scene → Prop
  | calls {c : Call} {notes : List Note} {s : Slot} (hrun : c.run d.slot = .ok (notes, s)) :
    Step d { d with slot := s, log := notes ++ d.log }
  | begins {b : Beat} (hidle : d.todo = []) (hb : b.opens = true) : Step d { d with todo := [b] }
  | goesOn {d' : Scene} (h : d.GoesOn d') : Step d d'

/-- What comes of a slot, however the loop and the calls are interleaved. -/
abbrev Reaches (s : Slot) (d : Scene) : Prop := Relation.ReflTransGen Step ⟨s, [], []⟩ d

/-! ## Schedules -/

/-- Who does something next. -/
inductive Cue
  | call (c : Call)
  | begins (b : Beat)
  | goesOn (taken : Bool)

/-- Do what was chosen, where it may be done. -/
def next? (d : Scene) : Cue → Option Scene
  | .call c =>
    match c.run d.slot with
    | .ok (notes, s) => some { d with slot := s, log := notes ++ d.log }
    | .error _ => none
  | .begins b => if d.todo.isEmpty && b.opens then some { d with todo := [b] } else none
  | .goesOn taken =>
    match d.todo with
    | [] => none
    | b :: rest =>
      match b.run taken d.slot with
      | .ok next => some ⟨next.slot, next.more ++ rest, next.notes ++ d.log⟩
      | .error _ => none

/-- Do what was chosen, one after the other. -/
def play? (d : Scene) : List Cue → Option Scene
  | [] => some d
  | cue :: cues => (d.next? cue).bind (·.play? cues)

variable {d d' : Scene}

theorem step_of_next? {cue : Cue} (h : d.next? cue = some d') : Step d d' := by
  cases cue with
  | call c =>
    rw [next?] at h
    split at h <;> cases h
    rename_i hrun
    exact .calls hrun
  | begins b =>
    rw [next?] at h
    split at h <;> cases h
    rename_i hb
    obtain ⟨hidle, hopens⟩ := Bool.and_eq_true_iff.1 hb
    exact .begins (List.isEmpty_iff.1 hidle) hopens
  | goesOn taken =>
    rw [next?] at h
    split at h
    case h_1 => cases h
    rename_i b rest htodo
    split at h <;> cases h
    rename_i hrun
    exact .goesOn (.beat htodo hrun)

theorem reaches_of_play? {cues : List Cue} (h : d.play? cues = some d') : Relation.ReflTransGen Step d d' := by
  induction cues generalizing d with
  | nil =>
    cases h
    exact .refl
  | cons cue cues ih =>
    obtain ⟨d₁, hnext, hplay⟩ := Option.bind_eq_some_iff.1 h
    exact .head (step_of_next? hnext) (ih hplay)

end Scene

end SlotServer
