import SlotServer.Proofs.Twins

/-!
# Calls that do not see the kernel's queues

What acceptors and handles ask of a worker, and its teardown, are as blind as the programs of the loop.

- `Blind.assign`, `Blind.requestStop`: the calls of acceptors;
- `Blind.deed`: those of a handle;
- `Blind.finish`: the worker is torn down.
-/

namespace SlotServer.Blind

variable {α : Type} {i : Nat}

/-! ## Acceptors -/

theorem ring : Blind (Run.ring : Run α (Except Error Unit)) := bind (record _) fun _ => ask nofun nofun

theorem requestStop : Blind (Run.requestStop : Run α Unit) := by
  refine bind (modifyWorker fun _ => rfl) fun _ => bind ring fun answer => ?_
  cases answer with
  | ok _ => exact pure _
  | error e => exact say

theorem acquire : Blind (Run.acquire : Run α (Option Nat)) := by
  refine bind worker fun w => ?_
  split
  · exact pure _
  · split
    · exact pure _
    · exact bind (modifyWorker fun _ => rfl) fun _ => pure _

theorem startAccept (fd : Int) (peer : Option Net.SocketAddress) :
    Blind (Run.startAccept i fd peer : Run α (Except Error Unit)) := by
  refine bind slot? fun here => ?_
  split
  · exact pure _
  · refine bind (stepSlot _) fun answer => ?_
    cases answer with
    | error e => exact bind (bind pushFree fun _ => pure _) fun _ => pure _
    | ok _ => exact bind (record _) fun _ => bind (submit _) fun _ => pure _

theorem assign (fd : Int) (peer : Option Net.SocketAddress) :
    Blind (Run.assign fd peer : Run α (Except Error Nat)) := by
  refine bind acquire fun free => ?_
  cases free with
  | none => exact bind bump fun _ => bind closeNow fun _ => pure _
  | some i =>
    refine bind (startAccept fd peer) fun answer => ?_
    cases answer with
    | error e => exact bind closeNow fun _ => bind bump fun _ => pure _
    | ok _ => exact pure _

/-! ## Handles -/

theorem receive : Blind (Connection.receive i : Run α OperationFuture) := by
  refine bind (stepSlot _) fun answer => ?_
  cases answer with
  | error e => exact pure _
  | ok _ => exact bind (record _) fun _ => bind (submit _) fun _ => pure _

theorem send (length : Nat) : Blind (Connection.send i length : Run α (Except Error OperationFuture)) := by
  refine bind (stepSlot _) fun answer => ?_
  cases answer with
  | error e => exact pure _
  | ok _ => exact bind (record _) fun _ => bind (record _) fun _ => bind (submit _) fun _ => pure _

theorem pollFuture (waker : Waker) (future : OperationFuture) :
    Blind (Connection.pollFuture waker future : Run α (Poll Outcome × OperationFuture)) := by
  cases future with
  | refused e => exact pure _
  | awaiting name =>
    refine bind slot? fun here => ?_
    cases here with
    | none => exact pure _
    | some s =>
      refine bind (modifyWorker fun _ => rfl) fun _ => ?_
      dsimp only
      split
      · exact bind (record _) fun _ => pure _
      · exact pure _

theorem bytes (s : Segment) : Blind (Connection.bytes s : Run α (List UInt8)) := bind worker fun _ => ofExcept _

theorem received : Blind (Connection.received i : Run α (List UInt8)) := by
  refine bind slot? fun here => ?_
  cases here with
  | none => exact pure _
  | some s => exact bytes _

theorem sendBuffer : Blind (Connection.sendBuffer i : Run α (List UInt8)) := by
  refine bind slot? fun here => ?_
  cases here with
  | none => exact pure _
  | some s => exact bytes _

theorem fill (data : Array UInt8) : Blind (Connection.fill i data : Run α (Nat × Nat)) := by
  refine bind slot? fun here => ?_
  cases here with
  | none => exact pure _
  | some s =>
    exact bind worker fun w => bind (ofExcept _) fun done => bind (modifyWorker fun _ => rfl) fun _ => pure _

/-- A call of a handle. -/
theorem deed (d : Deed) : Blind (d.run i : Run α Unit) := by
  cases d with
  | receive => exact bind receive fun _ => pure _
  | send length => exact bind (send length) fun _ => pure _
  | poll half waker => exact bind (pollFuture waker _) fun _ => pure _
  | readReceived => exact bind received fun _ => pure _
  | readSend => exact bind sendBuffer fun _ => pure _
  | fill data => exact bind (fill data) fun _ => pure _
  | drop => exact drop

/-! ## The teardown -/

theorem deregister : Blind (Run.deregister : Run α (Except Error Unit)) := by
  refine bind worker fun w => ?_
  split
  · exact pure _
  · exact bind (modifyWorker fun _ => rfl) fun _ => bind (record _) fun _ => ask nofun nofun

theorem settleForce (s : Slot) : Blind (Run.settleForce i s : Run α Bool) := by
  unfold Run.settleForce
  split
  · exact bind closeNow fun _ => bind bump fun _ => bind release fun _ => pure _
  · exact bind bump fun _ => bind release fun _ => pure _

theorem forceSlot : Blind (Run.forceSlot i : Run α Bool) := by
  refine bind slot? fun here => ?_
  cases here with
  | none => exact pure _
  | some s =>
    dsimp only
    by_cases hfree : s.state = .disconnected
    · rw [Slot.force_free hfree]
      exact bind (modifyWorker fun _ => rfl) fun _ => pure _
    · rw [Slot.force_live hfree]
      refine bind (modifyWorker fun _ => rfl) fun _ => ?_
      dsimp only
      split
      · exact bind (completeCell _ _) fun _ => settleForce s
      · exact bind (completeCell _ _) fun _ => settleForce s
      · exact settleForce s

theorem forceAll (l : List Nat) : Blind (Run.forceAll l : Run α Nat) := by
  induction l with
  | nil => exact pure _
  | cons i l ih => exact bind forceSlot fun _ => bind ih fun _ => pure _

theorem finish : Blind (Run.finish : Run α Unit) := by
  refine bind (modifyWorker fun _ => rfl) fun _ => bind (bind worker fun _ => failUpTo _) fun _ => ?_
  have hforce : Blind (do
      Run.record .released
      let forced ← Run.forceAll (List.range (← Run.worker).slots.length)
      let counted := (← Run.worker).counters.text
      Run.say .info s!"stopped ({forced} connections force-closed) {counted}" : Run α Unit) :=
    bind (record _) fun _ => bind worker fun _ => bind (forceAll _) fun _ => bind worker fun _ => say
  refine bind deregister fun answer => ?_
  cases answer with
  | ok _ => exact hforce
  | error e => exact bind say fun _ => hforce

end SlotServer.Blind
