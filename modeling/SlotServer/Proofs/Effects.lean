import SlotServer.Proofs.Strides

/-!
# Effects of a slot's programs

What the loop does with a completion hangs on the slot that the completion names and on nothing else, as long as the
kernel lets every operation through: whatever else the machine holds, the slot becomes the same, the same is counted,
recorded and queued, and the slot is freed or is not. Such an effect can be had on any machine with that slot.

- `Effect`, `Machine.gain`: an effect, and the machine that has it;
- `Machine.Fine`: a machine with a slot, over a kernel that lets operations through;
- `Local`: a program with one effect for each slot, with a rule for each way to put programs together;
- `Local.route`: a completion that is taken to its slot.
-/

namespace SlotServer

variable {α β γ : Type}

/-! ## Kernels that let operations through -/

/-- Every operation is let through from now on. -/
def Kernel.Willing (k : Kernel) : Prop :=
  ∀ call ∈ [Call.push, .receive, .send, .close], ∀ n, k.asked call ≤ n → k.schedule call n = none

namespace Kernel

theorem ask_of_none {k : Kernel} {call : Call} (h : k.schedule call (k.asked call) = none) :
    (k.ask call).1 = .ok () := by
  unfold ask
  dsimp only
  rw [h]

theorem callOf_mem (op : Op) : callOf op ∈ [Call.push, .receive, .send, .close] := by
  cases op <;> simp [callOf]

theorem Willing.ask {k : Kernel} (h : k.Willing) (call : Call) : (k.ask call).2.Willing := by
  intro call' hcall n hn
  refine h call' hcall n (Nat.le_trans ?_ hn)
  show k.asked call' ≤ if call' = call then k.asked call + 1 else k.asked call'
  split
  · rename_i hsame
    rw [hsame]
    exact Nat.le_succ _
  · exact Nat.le_refl _

theorem Willing.accept {k : Kernel} (h : k.Willing) (op : Op) : (k.accept op).Willing := by
  cases op with
  | receive => exact h
  | send => exact h
  | close ctx fd =>
    unfold Kernel.accept
    dsimp only
    split <;> exact h

/-- A willing kernel takes an operation, and is as willing as before. -/
theorem Willing.push {k : Kernel} (h : k.Willing) (op : Op) :
    (k.push op).1 = .ok () ∧ (k.push op).2.Willing := by
  have hfirst := ask_of_none (h .push (List.mem_cons_self ..) _ (Nat.le_refl _))
  have hnext := h.ask .push
  have hsecond := ask_of_none (hnext (callOf op) (callOf_mem op) _ (Nat.le_refl _))
  have hlast := (hnext.ask (callOf op)).accept op
  unfold Kernel.push
  cases hask : k.ask .push with
  | mk answer k₁ =>
    rw [hask] at hfirst hsecond hlast
    cases hfirst
    dsimp only
    cases hask' : k₁.ask (callOf op) with
    | mk answer k₂ =>
      rw [hask'] at hsecond hlast
      cases hsecond
      exact ⟨rfl, hlast⟩

end Kernel

/-! ## Effects -/

/-- What a program does at a slot. -/
structure Effect where
  /-- What the slot becomes, if it changes. -/
  slot : Option Slot := none
  counted : List (Counter × UInt64) := []
  /-- What is recorded, the latest first. -/
  events : List Event := []
  /-- The operations that are queued, the first one first. -/
  pushed : List Op := []
  /-- The slot is freed. -/
  frees : Bool := false

namespace Effect

/-- An effect, and another one after it. The first does not free the slot. -/
def andThen (e e' : Effect) : Effect where
  slot := e'.slot.or e.slot
  counted := e.counted ++ e'.counted
  events := e'.events ++ e.events
  pushed := e.pushed ++ e'.pushed
  frees := e'.frees

/-- What the slot is after the effect. -/
def after (e : Effect) (here : Option Slot) : Option Slot := here.map fun s => e.slot.getD s

/-- The effect neither frees the slot nor takes a lease of it or gives one back. -/
structure Spares (e : Effect) (here : Option Slot) : Prop where
  frees : e.frees = false
  leases : ∀ s, here = some s → (e.slot.getD s).leases = s.leases

theorem Spares.of_none {e : Effect} (hslot : e.slot = none) (hfrees : e.frees = false) (here : Option Slot) :
    e.Spares here where
  frees := hfrees
  leases s _ := by rw [hslot, Option.getD_none]

theorem Spares.of_some {e : Effect} {s s' : Slot} (hslot : e.slot = some s') (hfrees : e.frees = false)
    (hleases : s'.leases = s.leases) : e.Spares (some s) where
  frees := hfrees
  leases t ht := by
    obtain rfl := Option.some.inj ht
    rw [hslot, Option.getD_some, hleases]

theorem Spares.andThen {e e' : Effect} {here : Option Slot} (h : e.Spares here) (h' : e'.Spares (e.after here)) :
    (e.andThen e').Spares here where
  frees := h'.frees
  leases s hs := by
    have hafter : e.after here = some (e.slot.getD s) := by rw [after, hs, Option.map_some]
    have hboth : (e.andThen e').slot.getD s = e'.slot.getD (e.slot.getD s) := by
      unfold Effect.andThen
      cases e'.slot <;> rfl
    rw [hboth, h'.leases _ hafter, h.leases s hs]

end Effect

namespace Counters

/-- The counters with several things counted. -/
def count (c : Counters) (counted : List (Counter × UInt64)) : Counters :=
  counted.foldl (fun c one => c.bump one.1 one.2) c

end Counters

namespace Kernel

/-- The kernel with several operations queued. -/
def pushAll (k : Kernel) (ops : List Op) : Kernel := ops.foldl (fun k op => (k.push op).2) k

theorem Willing.pushAll {k : Kernel} (h : k.Willing) (ops : List Op) : (k.pushAll ops).Willing := by
  induction ops generalizing k with
  | nil => exact h
  | cons op ops ih => exact ih (h.push op).2

end Kernel

namespace Machine

/-- The machine that has an effect at a slot. -/
def gain (m : Machine α) (i : Nat) (e : Effect) : Machine α :=
  { m with
    worker := { m.worker with
      slots := match e.slot with
        | some s => m.worker.slots.set i s
        | none => m.worker.slots
      counters := m.worker.counters.count e.counted
      free := if e.frees then m.worker.free ++ [i] else m.worker.free }
    kernel := m.kernel.pushAll e.pushed
    trace := e.events ++ m.trace }

/-- A machine with a slot, or without it, over a willing kernel, where a slot that may be freed has a place. -/
structure Fine (i : Nat) (here : Option Slot) (id : Nat) (m : Machine α) : Prop where
  slot : m.worker.slots[i]? = here
  id : m.worker.id = id
  willing : m.kernel.Willing
  room : ∀ s, here = some s → s.leases ≠ 0 → m.worker.free.length < m.worker.freeCapacity

variable {i : Nat} {e e' : Effect} {m : Machine α}

theorem gain_gain (hfrees : e.frees = false) : (m.gain i e).gain i e' = m.gain i (e.andThen e') := by
  unfold gain Effect.andThen Counters.count Kernel.pushAll
  rw [hfrees, List.foldl_append, List.foldl_append, List.append_assoc]
  cases hslot : e.slot <;> cases hslot' : e'.slot <;> simp

theorem slots_gain (m : Machine α) (i : Nat) (e : Effect) :
    (m.gain i e).worker.slots.length = m.worker.slots.length := by
  unfold gain
  cases e.slot with
  | none => rfl
  | some s => exact List.length_set

theorem slot_gain_self (m : Machine α) (i : Nat) (e : Effect) :
    (m.gain i e).worker.slots[i]? = e.after m.worker.slots[i]? := by
  unfold gain Effect.after
  cases e.slot with
  | none =>
    cases m.worker.slots[i]? <;> rfl
  | some s =>
    show (m.worker.slots.set i s)[i]? = _
    by_cases hi : i < m.worker.slots.length
    · rw [List.getElem?_set_self hi, List.getElem?_eq_getElem hi]
      rfl
    · rw [List.getElem?_eq_none (by rw [List.length_set]; exact Nat.le_of_not_lt hi),
        List.getElem?_eq_none (Nat.le_of_not_lt hi)]
      rfl

theorem slot_gain_of_ne (m : Machine α) {i j : Nat} (e : Effect) (h : j ≠ i) :
    (m.gain i e).worker.slots[j]? = m.worker.slots[j]? := by
  unfold gain
  cases e.slot with
  | none => rfl
  | some s => exact List.getElem?_set_ne h.symm

theorem Fine.gain {here : Option Slot} {id : Nat} (h : m.Fine i here id) (hspares : e.Spares here) :
    (m.gain i e).Fine i (e.after here) id where
  slot := by rw [slot_gain_self, h.slot]
  id := h.id
  willing := h.willing.pushAll e.pushed
  room s hs hleases := by
    have hfree : (m.gain i e).worker.free = m.worker.free := by
      show (if e.frees = true then _ else _) = _
      rw [hspares.frees, if_neg Bool.false_ne_true]
    rw [hfree]
    show _ < (m.gain i e).worker.slots.length
    rw [slots_gain]
    obtain ⟨s₀, hs₀, rfl⟩ := Option.map_eq_some_iff.1 hs
    rw [hspares.leases s₀ hs₀] at hleases
    exact h.room s₀ hs₀ hleases

end Machine

/-! ## Programs with one effect for each slot -/

/-- Where the slot is `here`, the program is at fault, or it has one effect, whatever else the machine holds. Only a
program that may come last frees the slot or changes its leases. -/
def LocalAt (i : Nat) (last : Bool) (here : Option Slot) (id : Nat) (x : Run α β) : Prop :=
  (∃ fault, ∀ m : Machine α, m.Fine i here id → ∃ m', x m = .error fault m') ∨
    ∃ b e, (last = false → e.Spares here) ∧
      ∀ m : Machine α, m.Fine i here id → x m = .ok b (m.gain i e)

/-- The program has one effect for each slot. -/
def Local (i : Nat) (last : Bool) (x : Run α β) : Prop := ∀ here id, LocalAt i last here id x

namespace LocalAt

variable {i id : Nat} {last : Bool} {here : Option Slot} {x : Run α β} {k : β → Run α γ}

theorem of_run {b : β} {e : Effect} (hspares : e.Spares here)
    (hx : ∀ m : Machine α, m.Fine i here id → x m = .ok b (m.gain i e)) : LocalAt i last here id x :=
  .inr ⟨b, e, fun _ => hspares, hx⟩

/-- A program with one effect, and another one after it. -/
theorem after {b : β} {e : Effect} (hspares : e.Spares here)
    (hx : ∀ m : Machine α, m.Fine i here id → x m = .ok b (m.gain i e))
    (hk : LocalAt i last (e.after here) id (k b)) : LocalAt i last here id (x >>= k) := by
  rcases hk with ⟨fault, hfault⟩ | ⟨c, e', hspares', hrun⟩
  · refine .inl ⟨fault, fun m hm => ?_⟩
    obtain ⟨m', hm'⟩ := hfault _ (hm.gain hspares)
    exact ⟨m', (Run.bind_run (hx m hm)).trans hm'⟩
  · refine .inr ⟨c, e.andThen e', fun hlast => hspares.andThen (hspares' hlast), fun m hm => ?_⟩
    rw [← Machine.gain_gain hspares.frees]
    exact (Run.bind_run (hx m hm)).trans (hrun _ (hm.gain hspares))

end LocalAt

namespace Local

variable {i : Nat} {last : Bool}

theorem pure (b : β) : Local i last (Pure.pure b : Run α β) := fun here _ =>
  .of_run (e := {}) (.of_none rfl rfl here) fun _ _ => rfl

theorem throw (fault : Fault) : Local i last (MonadExcept.throw fault : Run α β) := fun _ _ =>
  .inl ⟨fault, fun m _ => ⟨m, rfl⟩⟩

theorem bind {x : Run α β} {k : β → Run α γ} (hx : Local i false x) (hk : ∀ b, Local i last (k b)) :
    Local i last (x >>= k) := by
  intro here id
  rcases hx here id with ⟨fault, hfault⟩ | ⟨b, e, hspares, hrun⟩
  · refine .inl ⟨fault, fun m hm => ?_⟩
    obtain ⟨m', hm'⟩ := hfault m hm
    refine ⟨m', ?_⟩
    show EStateM.bind x k m = _
    unfold EStateM.bind
    rw [hm']
  · exact .after (hspares rfl) hrun (hk b _ id)

theorem slot? : Local i last (Run.slot? i : Run α (Option Slot)) := fun here _ =>
  .of_run (b := here) (e := {}) (.of_none rfl rfl here) fun m hm => congrArg (EStateM.Result.ok · m) hm.slot

theorem record (event : Event) : Local i last (Run.record event : Run α Unit) := fun here _ =>
  .of_run (e := { events := [event] }) (.of_none rfl rfl here) fun _ _ => rfl

theorem say (level : LogLevel) (message : String) : Local i last (Run.say level message : Run α Unit) := by
  refine fun here id => .of_run (b := ()) (e := { events := [.said level s!"worker {id}: {message}"] })
    (.of_none rfl rfl here) fun m hm => ?_
  rw [← hm.id]
  rfl

theorem bump (counter : Counter) (n : UInt64) : Local i last (Run.bump counter n : Run α Unit) := fun here _ =>
  .of_run (e := { counted := [(counter, n)] }) (.of_none rfl rfl here) fun _ _ => rfl

theorem stepSlot {f : Slot.Step β} (hf : ∀ s, (f s).2.leases = s.leases) :
    Local i last (Run.stepSlot i f : Run α (Except Error β)) := by
  intro here id
  cases here with
  | none => exact .of_run (e := {}) (.of_none rfl rfl none) fun m hm => Run.stepSlot_run_none hm.slot
  | some s =>
    exact .of_run (e := { slot := some (f s).2 }) (.of_some rfl rfl (hf s)) fun m hm => Run.stepSlot_run hm.slot

/-- An operation is queued, and what comes after that. -/
theorem queue {op : Op} {k : Except Error Unit → Run α β} (hk : Local i last (k (.ok ()))) :
    Local i last (Run.queue op >>= k) := by
  refine fun here id => .after (b := .ok ()) (e := { pushed := [op], events := [.queued op] }) (.of_none rfl rfl here)
    (fun m hm => ?_) (hk _ id)
  have hrun := Run.queue_run op m
  rw [(hm.willing.push op).1] at hrun
  exact hrun

theorem completeCell (half : Half) (outcome : Outcome) :
    Local i last (Run.completeCell ⟨i, half⟩ (Slot.completeHalf half outcome) : Run α Unit) := by
  intro here id
  cases here with
  | none => exact .of_run (e := {}) (.of_none rfl rfl none) fun m hm => Run.bind_run (Run.slot?_run_none hm.slot)
  | some s =>
    cases hdone : s.completeHalf half outcome with
    | error fault =>
      refine .inl ⟨fault, fun m hm => ⟨m, (Run.bind_run (Run.slot?_run hm.slot)).trans ?_⟩⟩
      dsimp only
      rw [hdone]
      rfl
    | ok done =>
      obtain ⟨waker, s'⟩ := done
      have hleases : s'.leases = s.leases := by
        obtain ⟨c, -, -, rfl⟩ := Slot.completeHalf_ok hdone
        cases half <;> rfl
      refine .of_run (b := ()) (e := { slot := some s', events := (waker.map (.woke ⟨i, half⟩ ·)).toList })
        (.of_some rfl rfl hleases) fun m hm => (Run.bind_run (Run.slot?_run hm.slot)).trans ?_
      dsimp only
      rw [hdone]
      cases waker <;> rfl

/-- A lease is given back, and with the last one the slot is freed. -/
theorem release : Local i true (Run.release i : Run α Unit) := by
  intro here id
  cases here with
  | none => exact .of_run (e := {}) (.of_none rfl rfl none) fun m hm => Run.bind_run (Run.slot?_run_none hm.slot)
  | some s =>
    by_cases hnone : s.leases = 0
    · refine .inl ⟨s.leaseFault, fun m hm => ?_⟩
      refine ⟨{ m with worker := m.worker.setSlot i { s with leases := s.leases - 1 } },
        (Run.bind_run (Run.slot?_run hm.slot)).trans ?_⟩
      dsimp only
      rw [Slot.releaseLease, if_pos hnone]
      exact Run.bind_run rfl
    · refine .inr ⟨(), { slot := some { s with leases := s.leases - 1 }, frees := decide (s.leases = 1) }, ?_,
        fun m hm => ?_⟩
      · intro hlast
        cases hlast
      refine (Run.bind_run (Run.slot?_run hm.slot)).trans ?_
      dsimp only
      rw [Slot.releaseLease, if_neg hnone]
      refine (Run.bind_run rfl).trans ?_
      cases hlast : decide (s.leases = 1) with
      | false => rfl
      | true =>
        have hroom : m.worker.free.length < (m.worker.slots.set i { s with leases := s.leases - 1 }).length := by
          rw [List.length_set]
          exact hm.room s rfl hnone
        refine (Run.bind_run (b := true) ?_).trans rfl
        exact (Run.pushFree_run _).trans (if_neg (Nat.not_le.2 hroom))

/-! ### Completions -/

theorem issueClose : Local i last (Run.issueClose i : Run α Unit) := by
  refine bind slot? fun here => ?_
  cases here with
  | none => exact pure _
  | some s => exact queue (pure _)

end Local

namespace Slot

theorem leases_transition (s : Slot) (allowed : List SlotState) (next : SlotState) :
    (s.transition allowed next).2.leases = s.leases := by
  unfold transition
  split <;> rfl

theorem leases_abortHalf (half : Half) (s : Slot) : (s.abortHalf half).2.leases = s.leases := by
  cases half with
  | receive => exact leases_transition { s with receivedLength := 0 } _ _
  | send => exact leases_transition s _ _

theorem leases_finishDisconnect (s : Slot) : s.finishDisconnect.2.leases = s.leases := by
  by_cases hstate : s.state = .disconnecting
  · rw [finishDisconnect_ok hstate]
  · unfold finishDisconnect
    rw [transition_of_not_mem (by simpa using hstate)]

end Slot

namespace Local

variable {i : Nat} {last : Bool}

theorem disconnect : Local i last (Run.disconnect i : Run α Unit) := by
  refine bind (stepSlot fun s => s.leases_transition _ _) fun answer => ?_
  cases answer with
  | error e => exact pure _
  | ok _ => exact issueClose

theorem violation (e : Error) : Local i last (Run.violation i e : Run α Unit) := bind (say _ _) fun _ => bump _ _

theorem errnoOf (result : Int32) : Local i last (Run.errnoOf result : Run α Int32) := by
  unfold Run.errnoOf
  split
  · exact throw _
  · exact pure _

/-- A half whose operation has ended well is left, or its connection is closed where no handle is attached. -/
theorem delivered (half : Half) (outcome : Outcome) : Local i last (do
    if !((← Run.slot? i).any (·.attached)) then Run.disconnect i
    Run.completeCell ⟨i, half⟩ (Slot.completeHalf half outcome) : Run α Unit) := by
  refine bind slot? fun here => ?_
  split
  · exact bind disconnect fun _ => completeCell _ _
  · exact completeCell _ _

theorem onReceive (result : Int32) : Local i last (Run.onReceive i result : Run α Unit) := by
  unfold Run.onReceive
  split
  · refine bind (stepSlot (Slot.leases_abortHalf .receive)) fun answer => ?_
    cases answer with
    | error e => exact violation e
    | ok _ =>
      have hrest : ∀ outcome, Local i last (do
          Run.issueClose i
          Run.completeReceive i outcome : Run α Unit) :=
        fun outcome => bind issueClose fun _ => completeCell .receive _
      dsimp only
      split
      · exact bind (errnoOf result) fun _ => bind (say _ _) fun _ => bind (bump _ _) fun _ => bind (pure _) hrest
      · exact bind (bump _ _) fun _ => bind (pure _) hrest
  · refine bind (stepSlot fun s => Slot.leases_transition { s with receivedLength := _ } _ _) fun answer => ?_
    cases answer with
    | error e => exact violation e
    | ok _ => exact bind (bump _ _) fun _ => bind (bump _ _) fun _ => delivered .receive _

theorem onSend (result : Int32) : Local i last (Run.onSend i result : Run α Unit) := by
  unfold Run.onSend
  split
  · refine bind (stepSlot (Slot.leases_abortHalf .send)) fun answer => ?_
    cases answer with
    | error e => exact violation e
    | ok _ =>
      refine bind (errnoOf result) fun _ => bind (say _ _) fun _ => bind (bump _ _) fun _ => ?_
      exact bind issueClose fun _ => completeCell .send _
  · refine bind (stepSlot fun s => s.leases_transition _ _) fun answer => ?_
    cases answer with
    | error e => exact violation e
    | ok _ => exact bind (bump _ _) fun _ => bind (bump _ _) fun _ => delivered .send _

theorem onClose (result : Int32) : Local i true (Run.onClose i result : Run α Unit) := by
  have hsettle : Local i true (Run.settleClose i : Run α Unit) := by
    refine bind (stepSlot Slot.leases_finishDisconnect) fun answer => ?_
    cases answer with
    | error e => exact violation e
    | ok fd => exact bind (bump _ _) fun _ => bind (say _ _) fun _ => release
  rw [Run.onClose_eq]
  split
  · exact bind (errnoOf result) fun _ => bind (say _ _) fun _ => hsettle
  · exact hsettle

/-- A completion that is taken to its slot has one effect for each slot. -/
theorem route (c : Completion) : Local c.ctx.slot true (Run.route c : Run α Unit) := by
  refine bind (record _) fun _ => bind slot? fun here => ?_
  cases here with
  | none => exact bind (say _ _) fun _ => bump _ _
  | some s =>
    dsimp only
    split
    · exact onReceive _
    · exact onSend _
    · exact onClose _
    · exact bind (say _ _) fun _ => bump _ _

end Local

end SlotServer
