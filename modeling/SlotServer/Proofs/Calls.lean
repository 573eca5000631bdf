import SlotServer.Proofs.Halves
import SlotServer.Proofs.Leads

/-!
# The calls of a worker

Rules for the calls that more than one program of a worker makes, each told by the views it starts from and comes to.

- `Leads.completeCell`: a cell is completed, and who waits for it is woken;
- `Leads.release`: a lease is given back, where `Roomy` says that the queue of free slots has a place left;
- `Leads.submit`, `Leads.submit_exited`: a command is put into the inbox, or is failed at once after the loop's end;
- `Leads.closeSlot`, `Leads.forceSlot`: a slot that is disconnecting, or is in whatever state, is closed past the queue.

Some calls are known by the machine that they come to: `Run.stepSlot_eq`, `Run.enqueue_run`, `Connection.pollFuture_run`
and the like.
-/

namespace SlotServer

variable {α β : Type}

/-- A slot with no place in the queue of free slots, while every other slot has at most one there. -/
def Rely.Roomy (R : Rely) (v : View) : Prop :=
  v.slot?.isSome ∧ v.places = 0 ∧ ∀ j v', R.others j v' → v'.places ≤ 1 ∧ (v'.slot? = none → v'.places = 0)

/-- A slot with no command in the inbox, while every other slot has at most one there. -/
def Rely.Quiet (R : Rely) (v : View) : Prop :=
  v.slot?.isSome ∧ v.commands = [] ∧
    ∀ j v', R.others j v' → v'.commands.length ≤ 1 ∧ (v'.slot? = none → v'.commands = [])

/-- Numbers below a bound, each at most once, are no more than the bound. -/
theorem length_le_of_count {l : List Nat} {n : Nat} (hone : ∀ j, l.count j ≤ 1)
    (hbound : ∀ j, n ≤ j → l.count j = 0) : l.length ≤ n := by
  have hsub : l ⊆ List.range n := fun j hj =>
    List.mem_range.2 (Nat.lt_of_not_le fun hn => List.count_eq_zero.1 (hbound j hn) hj)
  have hlength := (List.nodup_iff_count.2 hone).length_le_of_subset hsub
  rw [List.length_range] at hlength
  exact hlength

/-- Where one of them is missing, they are fewer than the bound. -/
theorem length_lt_of_count {l : List Nat} {n i : Nat} (hi : i < n) (hfree : l.count i = 0)
    (hone : ∀ j, l.count j ≤ 1) (hbound : ∀ j, n ≤ j → l.count j = 0) : l.length < n := by
  refine length_le_of_count (l := i :: l) (fun j => ?_) fun j hj => ?_
  · by_cases hj : j = i
    · rw [hj, List.count_cons_self]
      exact Nat.le_of_eq (congrArg (· + 1) hfree)
    · rw [List.count_cons_of_ne (Ne.symm hj)]
      exact hone j
  · rw [List.count_cons_of_ne (by omega)]
    exact hbound j hj

/-- The commands of a slot are counted in the inbox. -/
theorem Machine.count_inbox (m : Machine α) (pending : List Completion) (j : Nat) :
    (m.worker.inbox.map (·.slot)).count j = (m.view pending j).commands.length := by
  rw [List.count_eq_countP, List.countP_map, List.countP_eq_length_filter]
  rfl

/-- The segment ends inside a region, at a place that is a word. -/
def Segment.Within (s : Segment) (region : Nat) : Prop := s.offset + s.length < wordCount ∧ s.offset + s.length ≤ region

namespace Pool

theorem place_eq (p : Pool) (s : Segment) : p.place s =
    if s.offset + s.length < wordCount then
      if p.regionLength < s.offset + s.length then .error .beyondRegion else .ok s.offset
    else .error .addOverflow := by
  simp only [place, Segment.stop, checkedAdd]
  split
  · show (if _ then _ else _ : Except Fault Nat) = _
    split <;> rfl
  · rfl

theorem place_of_within {p : Pool} {s : Segment} (h : s.Within p.regionLength) : p.place s = .ok s.offset := by
  rw [place_eq, if_pos h.1, if_neg (Nat.not_lt.2 h.2)]

theorem offset_of_place {p : Pool} {s : Segment} {offset : Nat} (h : p.place s = .ok offset) : offset = s.offset := by
  rw [place_eq] at h
  split at h
  · split at h <;> cases h
    rfl
  · cases h

theorem fault_of_place {p : Pool} {s : Segment} {fault : Fault} (h : p.place s = .error fault) :
    fault = .addOverflow ∨ fault = .beyondRegion := by
  rw [place_eq] at h
  split at h
  · split at h <;> cases h
    exact .inr rfl
  · cases h
    exact .inl rfl

end Pool

namespace Connection

/-- The segment that a handle sees of a half. -/
def view (s : Slot) : Half → Segment
  | .receive => receivedView s
  | .send => sendView s

/-- A handle sees nothing of a half whose operation is under way, and of another one no more than there is. -/
theorem view_cases (s : Slot) (half : Half) : (view s half).offset = (s.segment half).offset ∧
    (s.state = half.working ∧ (view s half).length = 0 ∨
      s.state ≠ half.working ∧ (view s half).length ≤ (s.segment half).length) := by
  cases half with
  | receive =>
    by_cases hstate : s.state = .receiving
    · rw [show view s .receive = { s.receiveHalf with length := 0 } from if_pos hstate]
      exact ⟨rfl, .inl ⟨hstate, rfl⟩⟩
    · rw [show view s .receive = { s.receiveHalf with length := min s.receivedLength s.receiveHalf.length }
        from if_neg hstate]
      exact ⟨rfl, .inr ⟨hstate, Nat.min_le_right _ _⟩⟩
  | send =>
    by_cases hstate : s.state = .sending
    · rw [show view s .send = { s.sendHalf with length := 0 } from if_pos hstate]
      exact ⟨rfl, .inl ⟨hstate, rfl⟩⟩
    · rw [show view s .send = s.sendHalf from if_neg hstate]
      exact ⟨rfl, .inr ⟨hstate, Nat.le_refl _⟩⟩

/-- What a handle sees ends inside the region where the half does. -/
theorem within_view {s : Slot} {half : Half} {region : Nat} (h : (s.segment half).Within region) :
    (view s half).Within region := by
  obtain ⟨hword, hregion⟩ := h
  obtain ⟨hoffset, hlength⟩ := view_cases s half
  constructor <;> omega

end Connection

namespace View

/-- The view after who waited for a cell was woken, if anyone did. -/
def wake (v : View) (cell : CellName) : Option Waker → View
  | none => v
  | some w => v.log (.woke cell w)

/-- The view after the slot's socket was closed at once, where it has one. -/
def cut (v : View) (i : Nat) (fd : Int) : View := if 0 ≤ fd then v.log (.closed (some i) fd) else v

/-- The view after an operation of a half began. -/
def begin (v : View) (i : Nat) (half : Half) (s : Slot) : View :=
  ((v.put s).log (.began ⟨i, half⟩)).command (half.command i)

theorem put_self {v : View} {s : Slot} (hs : v.slot? = some s) : v.put s = v := by
  rw [put, ← hs]

@[simp] theorem slot?_log (v : View) (e : Event) : (v.log e).slot? = v.slot? := rfl

theorem commands_cut (v : View) (i : Nat) (fd : Int) : (v.cut i fd).commands = v.commands := by
  unfold cut
  split <;> rfl

theorem commands_wake (v : View) (cell : CellName) (waker : Option Waker) :
    (v.wake cell waker).commands = v.commands := by
  cases waker <;> rfl

end View

/-! ## Calls that are known by what they do -/

section Known

variable {m : Machine α} {i : Nat} {half : Half} {s : Slot}

theorem Worker.setSlot_self {w : Worker} (hs : w.slots[i]? = some s) : w.setSlot i s = w := by
  obtain ⟨hi, rfl⟩ := List.getElem?_eq_some_iff.1 hs
  rw [Worker.setSlot, List.set_getElem_self]

theorem Run.say_run (level : LogLevel) (message : String) (m : Machine α) : ∃ line,
    (Run.say level message : Run α Unit) m = .ok () { m with trace := .said level line :: m.trace } := ⟨_, rfl⟩

theorem Run.stepSlot_eq {f : Slot.Step β} {answer : Except Error β} {s' : Slot} (hs : m.worker.slots[i]? = some s)
    (hf : f s = (answer, s')) :
    (Run.stepSlot i f : Run α (Except Error β)) m = .ok answer { m with worker := m.worker.setSlot i s' } := by
  rw [Run.stepSlot_run hs, hf]

/-- A step that changes nothing of the slot changes nothing of the machine. -/
theorem Run.stepSlot_same {f : Slot.Step β} {answer : Except Error β} (hs : m.worker.slots[i]? = some s)
    (hf : f s = (answer, s)) : (Run.stepSlot i f : Run α (Except Error β)) m = .ok answer m := by
  rw [Run.stepSlot_eq hs hf, Worker.setSlot_self hs]

theorem Run.pushFree_run (m : Machine α) : Run.pushFree i m =
    if m.worker.freeCapacity ≤ m.worker.free.length then .ok false m
    else .ok true { m with worker := { m.worker with free := m.worker.free ++ [i] } } := by
  show (if _ then _ else _ : Run α Bool) m = _
  split <;> rfl

theorem Run.enqueue_run (m : Machine α) (c : Command) : Run.enqueue c m =
    if m.worker.inboxFull then .ok false m
    else .ok true { m with worker := { m.worker with inbox := m.worker.inbox ++ [c] } } := by
  show (if _ then _ else _ : Run α Bool) m = _
  split <;> rfl

theorem Run.failOrphans_run {c : Command} (hinbox : m.worker.inbox = [c]) :
    (Run.failOrphans : Run α Unit) m = Run.failCommand c { m with worker := { m.worker with inbox := [] } } := by
  have hloop : (Run.failOrphans : Run α Unit) m =
      (Run.failCommand c >>= fun _ => pure () : Run α Unit) { m with worker := { m.worker with inbox := [] } } := by
    obtain ⟨⟨_, _, _, inbox⟩, _⟩ := m
    obtain rfl : inbox = [c] := hinbox
    rfl
  rw [hloop, bind_pure_unit]

/-- A receive that is refused changes nothing. -/
theorem Connection.receive_refused (hs : m.worker.slots[i]? = some s) (hstart : s.state ∉ Slot.startsFrom .receive) :
    (Connection.receive i : Run α OperationFuture) m = .ok (.refused (some s.wrongState)) m :=
  Run.bind_run (Run.stepSlot_same hs ((Slot.startReceive_eq s).trans (if_neg hstart)))

/-- A send that is refused changes nothing. -/
theorem Connection.send_refused {length : Nat} (hs : m.worker.slots[i]? = some s)
    (hstart : ¬ (length ≤ s.sendHalf.length ∧ s.state ∈ Slot.startsFrom .send)) :
    ∃ e, (Connection.send i length : Run α (Except Error OperationFuture)) m = .ok (.error e) m := by
  have hrefuse : ∃ e, s.startSend length = (.error e, s) := by
    rw [Slot.startSend_eq]
    by_cases hlong : s.sendHalf.length < length
    · exact ⟨_, if_pos hlong⟩
    · rw [if_neg hlong]
      exact ⟨_, if_neg fun hmem => hstart ⟨Nat.le_of_not_lt hlong, hmem⟩⟩
  obtain ⟨e, he⟩ := hrefuse
  exact ⟨e, Run.bind_run (Run.stepSlot_same hs he)⟩

/-- What a poll finds, it finds in the cell. -/
theorem Connection.pollFuture_run {waker : Waker} (hs : m.worker.slots[i]? = some s) :
    (Connection.pollFuture waker (.awaiting ⟨i, half⟩) : Run α (Poll Outcome × OperationFuture)) m =
      match (Connection.cell s half).poll waker with
      | (.pending, c) => .ok (.pending, .awaiting ⟨i, half⟩)
          { m with
            worker := m.worker.setSlot i (Connection.setCell s c half)
            trace := .awaited ⟨i, half⟩ waker :: m.trace }
      | (.ready o, c) => .ok (.ready o, .awaiting ⟨i, half⟩)
          { m with worker := m.worker.setSlot i (Connection.setCell s c half) } := by
  refine (Run.bind_run (Run.slot?_run hs)).trans ?_
  dsimp only
  cases hpoll : (Connection.cell s half).poll waker with
  | mk answer c => cases answer <;> rfl

end Known

/-! ## Steps of a slot -/

namespace Leads

variable {R : Rely} {i : Nat} {v : View} {s : Slot}

/-- A step of a slot that is there. -/
theorem stepSlot_some {f : Slot.Step β} {Q : Except Error β → View → Prop} (hs : v.slot? = some s)
    (h : Q (f s).1 (v.put (f s).2)) : Leads R i (Run.stepSlot i f : Run α (Except Error β)) v Q :=
  stepSlot (fun hnone => by rw [hnone] at hs; cases hs) fun s' hs' => by
    obtain rfl : s = s' := Option.some.inj (hs.symm.trans hs')
    exact h

/-- A step that is allowed. -/
theorem advance_ok {allowed : List SlotState} {next : SlotState} {Q : Except Error Unit → View → Prop}
    (hs : v.slot? = some s) (hstate : s.state ∈ allowed) (h : Q (.ok ()) (v.put { s with state := next })) :
    Leads R i (Run.stepSlot i (Slot.advance allowed next) : Run α (Except Error Unit)) v Q :=
  stepSlot_some hs (by rw [Slot.advance_of_mem hstate]; exact h)

/-- A step that is not allowed leaves everything as it was. -/
theorem advance_error {allowed : List SlotState} {next : SlotState} {Q : Except Error Unit → View → Prop}
    (hs : v.slot? = some s) (hstate : s.state ∉ allowed) (h : Q (.error s.wrongState) v) :
    Leads R i (Run.stepSlot i (Slot.advance allowed next) : Run α (Except Error Unit)) v Q :=
  stepSlot_some hs (by rw [Slot.advance_of_not_mem hstate, View.put_self hs]; exact h)

/-! ## Cells -/

theorem wake {cell : CellName} {waker : Option Waker} {Q : Unit → View → Prop} (hcell : cell.slot = i)
    (h : Q () (v.wake cell waker)) : Leads R i (Run.wake cell waker : Run α Unit) v Q := by
  cases waker with
  | none => exact pure h
  | some w => exact note (fun j => by rw [← hcell]; rfl) h

theorem completeCell {cell : CellName} {f : Slot → Except Fault (Option Waker × Slot)} {Q : Unit → View → Prop}
    (hcell : cell.slot = i) (hs : v.slot? = some s) (hfault : ∀ fault, f s = .error fault → R.faults fault)
    (h : ∀ waker s', f s = .ok (waker, s') → Q () ((v.put s').wake cell waker)) :
    Leads R i (Run.completeCell cell f : Run α Unit) v Q := by
  subst hcell
  refine bind (slot?_some hs ?_)
  refine bind (ofExcept (fun ⟨waker, s'⟩ hf => ?_) hfault)
  exact bind (setSlot (by rw [hs]; rfl) (wake rfl (h waker s' hf)))

/-! ## Leases -/

theorem pushFree {Q : Bool → View → Prop} (hplace : Q true { v with places := v.places + 1 })
    (hfull : R.Roomy v ∨ Q false v) : Leads R i (Run.pushFree i : Run α Bool) v Q := by
  rintro m pending hothers rfl
  rw [Run.pushFree_run]
  by_cases hle : m.worker.freeCapacity ≤ m.worker.free.length
  · rw [if_pos hle]
    refine ⟨?_, fun _ _ => rfl⟩
    refine hfull.resolve_left fun ⟨hs, hnone, hroom⟩ => ?_
    have hi : i < m.worker.slots.length := by simpa [Machine.view] using hs
    have hcount : ∀ j, m.worker.free.count j ≤ 1 ∧ (m.worker.slots.length ≤ j → m.worker.free.count j = 0) := by
      intro j
      by_cases hj : j = i
      · subst hj
        exact ⟨by rw [show List.count j _ = 0 from hnone]; exact Nat.zero_le 1, fun _ => hnone⟩
      · obtain ⟨hle, hbound⟩ := hroom j _ (hothers j hj)
        exact ⟨hle, fun hj => hbound (List.getElem?_eq_none hj)⟩
    exact absurd hle (Nat.not_le.2
      (length_lt_of_count hi hnone (fun j => (hcount j).1) fun j hj => (hcount j).2 hj))
  · rw [if_neg hle]
    refine ⟨?_, fun j hj => ?_⟩
    · show Q true (Machine.view { m with worker := { m.worker with free := m.worker.free ++ [i] } } pending i)
      rw [Machine.view_free, List.count_append, List.count_singleton_self]
      exact hplace
    · show Machine.view { m with worker := { m.worker with free := m.worker.free ++ [i] } } pending j = _
      rw [Machine.view_free, List.count_append, List.count_singleton, if_neg (by simpa using hj.symm)]
      rfl

/-- A lease of a slot is given back. Where it was the last one, the slot gets a place among the free ones, unless these
have none left. -/
theorem release {Q : Unit → View → Prop} (hs : v.slot? = some s)
    (hnone : s.leases = 0 → R.faults s.leaseFault)
    (hmore : s.leases ≠ 0 → s.leases ≠ 1 → Q () (v.put { s with leases := s.leases - 1 }))
    (hlast : s.leases = 1 → Q () { v.put { s with leases := 0 } with places := v.places + 1 })
    (hfull : s.leases = 1 → R.Roomy v ∨ Q () (v.put { s with leases := 0 })) :
    Leads R i (Run.release i : Run α Unit) v Q := by
  refine bind (slot?_some hs ?_)
  refine bind (setSlot (by rw [hs]; rfl) ?_)
  by_cases h0 : s.leases = 0
  · rw [if_pos h0]
    exact throw (hnone h0)
  · rw [if_neg h0]
    by_cases h1 : s.leases = 1
    · have hafter : s.leases - 1 = 0 := by rw [h1]; rfl
      rw [decide_eq_true h1, hafter]
      refine bind (pushFree (pure (hlast h1)) ?_)
      rcases hfull h1 with ⟨-, hplaces, hroom⟩ | h
      · exact .inl ⟨rfl, hplaces, hroom⟩
      · exact .inr (say h)
    · rw [decide_eq_false h1]
      exact pure (hmore h0 h1)

/-! ## Closing past the queue -/

theorem closeNow {fd : Int} {Q : Unit → View → Prop} (h : Q () (v.cut i fd)) :
    Leads R i (Run.closeNow (some i) fd : Run α Unit) v Q := by
  unfold Run.closeNow
  unfold View.cut at h
  split
  · rename_i hfd
    rw [if_pos hfd] at h
    exact bind (note (fun _ => rfl) (modifyKernel (fun _ => rfl) h))
  · rename_i hfd
    rw [if_neg hfd] at h
    exact pure h

theorem closeSlot {Q : Unit → View → Prop} (hs : v.slot? = some s)
    (hclose : s.state = .disconnecting →
      Leads R i (Run.release i : Run α Unit) ((v.put s.unbound).cut i s.fd) Q)
    (hother : s.state ≠ .disconnecting → Q () v) : Leads R i (Run.closeSlot i : Run α Unit) v Q := by
  refine bind (stepSlot_some hs ?_)
  by_cases hd : s.state = .disconnecting
  · rw [Slot.finishDisconnect, Slot.transition_of_mem (by rw [hd]; exact List.mem_singleton_self _)]
    exact bind (closeNow (bind (bump (hclose hd))))
  · rw [Slot.finishDisconnect, Slot.transition_of_not_mem (by simpa using hd), View.put_self hs]
    exact pure (hother hd)

theorem settleForce {Q : Bool → View → Prop}
    (hcut : s.state ≠ .disconnecting → Leads R i (Run.release s.index : Run α Unit) (v.cut i s.fd) fun _ => Q true)
    (hkeep : s.state = .disconnecting → Leads R i (Run.release s.index : Run α Unit) v fun _ => Q true) :
    Leads R i (Run.settleForce i s : Run α Bool) v Q := by
  unfold Run.settleForce
  split
  · rename_i hstate
    exact bind (closeNow (bind (bump (bind ((hcut hstate).mono fun _ _ h => pure h)))))
  · rename_i hstate
    exact bind (bump (bind ((hkeep (Decidable.not_not.1 hstate)).mono fun _ _ h => pure h)))

/-- Who waits for an operation that is under way is told before the rest is done. -/
theorem forceSlot {Q : Bool → View → Prop} (hs : v.slot? = some s) (hfree : s.state = .disconnected → Q false v)
    (hhalf : ∀ half : Half, s.state = half.working →
      Leads R i (Run.completeCell ⟨i, half⟩ (Slot.completeHalf half (.error .connectionClosed)) : Run α Unit)
        (v.put s.unbound) fun _ v' => Leads R i (Run.settleForce i s : Run α Bool) v' Q)
    (hquiet : s.state ≠ .disconnected → (∀ half, s.state.works half = false) →
      Leads R i (Run.settleForce i s : Run α Bool) (v.put s.unbound) Q) :
    Leads R i (Run.forceSlot i : Run α Bool) v Q := by
  refine bind (slot?_some hs ?_)
  dsimp only
  by_cases hlive : s.state = .disconnected
  · rw [Slot.force_free hlive]
    refine bind (setSlot (by rw [hs]; rfl) (pure ?_))
    rw [View.put_self hs]
    exact hfree hlive
  · rw [Slot.force_live hlive]
    refine bind (setSlot (by rw [hs]; rfl) ?_)
    dsimp only
    split
    · rename_i hstate
      exact bind (hhalf .receive hstate)
    · rename_i hstate
      exact bind (hhalf .send hstate)
    · rename_i hno hno'
      refine hquiet hlive fun half => ?_
      cases half with
      | receive => exact Bool.eq_false_iff.2 fun hw => hno (Half.works_iff.1 hw)
      | send => exact Bool.eq_false_iff.2 fun hw => hno' (Half.works_iff.1 hw)

/-! ## The inbox -/

theorem enqueue {c : Command} {Q : Bool → View → Prop} (hc : c.slot = i) (hplace : Q true (v.command c))
    (hfull : R.Quiet v ∨ Q false v) : Leads R i (Run.enqueue c : Run α Bool) v Q := by
  rintro m pending hothers rfl
  rw [Run.enqueue_run]
  by_cases hle : m.worker.inboxFull
  · rw [if_pos hle]
    refine ⟨?_, fun _ _ => rfl⟩
    refine hfull.resolve_left fun ⟨hs, hnone, hroom⟩ => ?_
    have hi : i < m.worker.slots.length := by simpa [Machine.view] using hs
    have hcount := m.count_inbox pending
    have hfew : (m.worker.inbox.map (·.slot)).length < m.worker.slots.length := by
      refine length_lt_of_count hi (by rw [hcount, hnone]; rfl) (fun j => ?_) fun j hj => ?_
      · rw [hcount]
        by_cases hne : j = i
        · rw [hne, hnone]
          exact Nat.zero_le 1
        · exact (hroom j _ (hothers j hne)).1
      · have hne : j ≠ i := fun h => Nat.not_lt.2 hj (h ▸ hi)
        rw [hcount, (hroom j _ (hothers j hne)).2 (List.getElem?_eq_none hj)]
        rfl
    have hroom : 2 * m.worker.slots.length ≤ m.worker.inbox.length := of_decide_eq_true hle
    rw [List.length_map] at hfew
    omega
  · rw [if_neg hle]
    refine ⟨?_, fun j hj => ?_⟩
    · rw [Machine.view_enqueue, if_pos hc]
      exact hplace
    · rw [Machine.view_enqueue, if_neg fun h => hj (h.symm.trans hc)]

theorem ring {Q : Except Error Unit → View → Prop} (h : ∀ answer, Q answer v) :
    Leads R i (Run.ring : Run α (Except Error Unit)) v Q := still .ring h

/-- After the loop's end, with no command but one in the inbox, that one is failed. -/
theorem failOrphans {c : Command} {Q : Unit → View → Prop} (hothers : ∀ j v', R.others j v' → v'.commands = [])
    (hv : v.commands = [c]) (h : Leads R i (Run.failCommand c : Run α Unit) { v with commands := [] } Q) :
    Leads R i (Run.failOrphans : Run α Unit) v Q := by
  refine goesOn (fun m pending hm hview => ?_) h
  subst hview
  have hall : ∀ d ∈ m.worker.inbox, d.slot = i := fun d hd => Decidable.byContradiction fun hne => by
    have hmem : d ∈ (m.view pending d.slot).commands := List.mem_filter.2 ⟨hd, decide_eq_true rfl⟩
    rw [hothers _ _ (hm d.slot hne)] at hmem
    exact List.not_mem_nil hmem
  have hinbox : m.worker.inbox = [c] :=
    (List.filter_eq_self.2 fun d hd => decide_eq_true (hall d hd)).symm.trans hv
  refine ⟨{ m with worker := { m.worker with inbox := [] } }, ?_, rfl, fun j hj => ?_⟩
  · exact Run.failOrphans_run hinbox
  · show ({ m.view pending j with commands := [] } : View) = m.view pending j
    rw [← hothers j _ (hm j hj)]

theorem settle_exited {c : Command} {Q : Unit → View → Prop} (hexited : v.exited = true)
    (hothers : ∀ j v', R.others j v' → v'.commands = []) (hv : v.commands = [c])
    (h : Leads R i (Run.failCommand c : Run α Unit) { v with commands := [] } Q) :
    Leads R i (Run.settle : Run α Unit) v Q :=
  bind (worker fun w hw _ => by rw [hw, hexited]; exact failOrphans hothers hv h)

theorem settle {Q : Unit → View → Prop} (hexited : v.exited = false) (h : Q () v) :
    Leads R i (Run.settle : Run α Unit) v Q :=
  bind (worker fun w hw _ => by rw [hw, hexited]; exact pure h)

/-- A command for a loop that is there. -/
theorem submit {c : Command} {Q : Unit → View → Prop} (hc : c.slot = i) (hexited : v.exited = false)
    (hfull : R.Quiet v ∨ R.faults .inboxStalled) (h : Q () (v.command c)) :
    Leads R i (Run.submit c : Run α Unit) v Q := by
  refine bind (enqueue hc ?_ (hfull.imp_right fun hfault => ?_))
  · refine bind (ring fun answer => ?_)
    cases answer with
    | error e => exact bind (say (settle hexited h))
    | ok _ => exact settle hexited h
  · exact bind (worker fun w hw _ => by rw [hw, hexited]; exact throw hfault)

/-- After the loop's end a command is failed at once, whether or not there was a place for it. -/
theorem submit_exited {c : Command} {Q : Unit → View → Prop} (hc : c.slot = i) (hexited : v.exited = true)
    (hothers : ∀ j v', R.others j v' → v'.commands = []) (hv : v.commands = [])
    (h : Leads R i (Run.failCommand c : Run α Unit) v Q) : Leads R i (Run.submit c : Run α Unit) v Q := by
  have hcommands : (v.command c).commands = [c] := by rw [View.command, hv, List.nil_append]
  have hback : { v.command c with commands := [] } = v := by rw [← hv]; rfl
  have hsettle : Leads R i (Run.settle : Run α Unit) (v.command c) Q :=
    settle_exited hexited hothers hcommands (by rw [hback]; exact h)
  refine bind (enqueue hc ?_ (.inr ?_))
  · refine bind (ring fun answer => ?_)
    cases answer with
    | error e => exact bind (say hsettle)
    | ok _ => exact hsettle
  · exact bind (worker fun w hw _ => by rw [hw, hexited]; exact h)

/-! ## Operations -/

theorem begin (half : Half) {x : Run α β} {Q : β → View → Prop} (hexited : v.exited = false)
    (hfull : R.Quiet v ∨ R.faults .inboxStalled) {s' : Slot} (h : Leads R i x (v.begin i half s') Q) :
    Leads R i (do
      Run.record (.began ⟨i, half⟩)
      Run.submit (half.command i)
      x) (v.put s') Q := by
  refine bind (note (fun _ => rfl) (bind ?_))
  refine submit (half.slot_command i) hexited (hfull.imp_left fun ⟨_, hnone, hfew⟩ => ⟨rfl, hnone, hfew⟩) h

/-- A receive begins, or is refused and leaves everything as it was. -/
theorem receive {Q : OperationFuture → View → Prop} (hs : v.slot? = some s)
    (hstart : s.state ∈ Slot.startsFrom .receive → v.exited = false ∧ (R.Quiet v ∨ R.faults .inboxStalled) ∧
      Q (.awaiting ⟨i, .receive⟩) (v.begin i .receive (s.begin 0 .receive)))
    (hrefuse : s.state ∉ Slot.startsFrom .receive → Q (.refused (some s.wrongState)) v) :
    Leads R i (Connection.receive i : Run α OperationFuture) v Q := by
  refine bind (stepSlot_some hs ?_)
  rw [Slot.startReceive_eq]
  by_cases hmem : s.state ∈ Slot.startsFrom .receive
  · obtain ⟨hexited, hfull, hq⟩ := hstart hmem
    rw [if_pos hmem]
    exact begin .receive hexited hfull (pure hq)
  · rw [if_neg hmem, View.put_self hs]
    exact pure (hrefuse hmem)

/-- A send begins, or is refused and leaves everything as it was. -/
theorem send {length : Nat} {Q : Except Error OperationFuture → View → Prop} (hs : v.slot? = some s)
    (hstart : length ≤ s.sendHalf.length → s.state ∈ Slot.startsFrom .send →
      v.exited = false ∧ (R.Quiet v ∨ R.faults .inboxStalled) ∧
        Q (.ok (.awaiting ⟨i, .send⟩)) (v.begin i .send (s.begin length .send)))
    (hrefuse : s.sendHalf.length < length ∨ s.state ∉ Slot.startsFrom .send → ∀ e, Q (.error e) v) :
    Leads R i (Connection.send i length : Run α (Except Error OperationFuture)) v Q := by
  refine bind (stepSlot_some hs ?_)
  rw [Slot.startSend_eq]
  by_cases hlong : s.sendHalf.length < length
  · rw [if_pos hlong, View.put_self hs]
    exact pure (hrefuse (.inl hlong) _)
  rw [if_neg hlong]
  by_cases hmem : s.state ∈ Slot.startsFrom .send
  · obtain ⟨hexited, hfull, hq⟩ := hstart (Nat.le_of_not_lt hlong) hmem
    rw [if_pos hmem]
    exact bind (record_aside (fun _ => rfl) (begin .send hexited hfull (pure hq)))
  · rw [if_neg hmem, View.put_self hs]
    exact pure (hrefuse (.inr hmem) _)

/-! ## The pool and the numbers of errors -/

/-- What hangs on the place of a segment is there where the segment has a place. -/
theorem ofPlace {w : Worker} {seg : Segment} {y : Except Fault β} {f : Nat → β} {Q : β → View → Prop}
    (hy : y = (w.pool.place seg).map f) (hw : w.pool.regionLength = v.region) (h : Q (f seg.offset) v)
    (hfault : seg.Within v.region ∨ R.faults .addOverflow ∧ R.faults .beyondRegion) :
    Leads R i (Run.ofExcept y : Run α β) v Q := by
  subst hy
  cases hplace : w.pool.place seg with
  | ok offset =>
    rw [← Pool.offset_of_place hplace] at h
    exact pure h
  | error fault =>
    refine throw ?_
    rcases hfault with hin | ⟨hadd, hregion⟩
    · rw [Pool.place_of_within (hw ▸ hin)] at hplace
      cases hplace
    · rcases Pool.fault_of_place hplace with rfl | rfl
      · exact hadd
      · exact hregion

theorem placeOf {seg : Segment} {Q : Nat → View → Prop} (h : Q seg.offset v)
    (hfault : seg.Within v.region ∨ R.faults .addOverflow ∧ R.faults .beyondRegion) :
    Leads R i (Run.placeOf seg : Run α Nat) v Q :=
  bind (worker fun w _ hw => ofPlace (f := id) (by cases w.pool.place seg <;> rfl) hw h hfault)

theorem bytes {seg : Segment} {Q : List UInt8 → View → Prop} (h : ∀ bytes, Q bytes v)
    (hfault : seg.Within v.region ∨ R.faults .addOverflow ∧ R.faults .beyondRegion) :
    Leads R i (Connection.bytes seg : Run α (List UInt8)) v Q :=
  bind (worker fun _ _ hw => ofPlace rfl hw (h _) hfault)

/-- What a handle reads, it leaves as it is. -/
theorem received {Q : List UInt8 → View → Prop} (hs : v.slot? = some s) (h : ∀ bytes, Q bytes v)
    (hfault : (Connection.receivedView s).Within v.region ∨ R.faults .addOverflow ∧ R.faults .beyondRegion) :
    Leads R i (Connection.received i : Run α (List UInt8)) v Q :=
  bind (slot?_some hs (bytes h hfault))

theorem sendBuffer {Q : List UInt8 → View → Prop} (hs : v.slot? = some s) (h : ∀ bytes, Q bytes v)
    (hfault : (Connection.sendView s).Within v.region ∨ R.faults .addOverflow ∧ R.faults .beyondRegion) :
    Leads R i (Connection.sendBuffer i : Run α (List UInt8)) v Q :=
  bind (slot?_some hs (bytes h hfault))

theorem setPool {pool : Pool} {Q : Unit → View → Prop} (hpool : pool.regionLength = v.region) (h : Q () v) :
    Leads R i (Run.modifyWorker fun w => { w with pool } : Run α Unit) v Q := by
  rintro m pending - rfl
  have hview : ∀ j, ({ m with worker := { m.worker with pool } } : Machine α).view pending j = m.view pending j := by
    intro j
    simp only [Machine.view, Machine.history, hpool]
  refine ⟨?_, fun j _ => hview j⟩
  show Q () (({ m with worker := { m.worker with pool } } : Machine α).view pending i)
  rw [hview]
  exact h

theorem fill {data : Array UInt8} {Q : Nat × Nat → View → Prop} (hs : v.slot? = some s) (h : ∀ counts, Q counts v)
    (hfault : (Connection.sendView s).Within v.region ∨ R.faults .addOverflow ∧ R.faults .beyondRegion) :
    Leads R i (Connection.fill i data : Run α (Nat × Nat)) v Q := by
  refine bind (slot?_some hs (bind (worker fun w _ hw => ?_)))
  exact bind (ofPlace rfl hw (bind (setPool hw (pure (h _)))) hfault)

/-! ## Handles -/

theorem takeHold {Q : Unit → View → Prop} (h : Q () { v with handles := v.handles + 1 }) :
    Leads R i (modify fun m => { m with held := i :: m.held } : Run α Unit) v Q := by
  rintro m pending - rfl
  refine ⟨?_, fun j hj => ?_⟩
  · show Q () (({ m with held := i :: m.held } : Machine α).view pending i)
    rw [Machine.view_held, List.count_cons_self]
    exact h
  · show ({ m with held := i :: m.held } : Machine α).view pending j = _
    rw [Machine.view_held, List.count_cons_of_ne hj.symm]
    rfl

theorem letGo {Q : Unit → View → Prop} (h : Q () { v with handles := v.handles - 1 }) :
    Leads R i (modify fun m => { m with held := m.held.erase i } : Run α Unit) v Q := by
  rintro m pending - rfl
  refine ⟨?_, fun j hj => ?_⟩
  · show Q () (({ m with held := m.held.erase i } : Machine α).view pending i)
    rw [Machine.view_held, List.count_erase_self]
    exact h
  · show ({ m with held := m.held.erase i } : Machine α).view pending j = _
    rw [Machine.view_held, List.count_erase_of_ne hj]
    rfl

theorem errnoOf {result : Int32} {Q : Int32 → View → Prop} (h : Q (-result) v)
    (hfault : result ≠ Int32.minValue ∨ R.faults .negOverflow) :
    Leads R i (Run.errnoOf result : Run α Int32) v Q := by
  unfold Run.errnoOf
  split
  · rename_i hmin
    exact throw (hfault.resolve_left fun hne => hne hmin)
  · exact pure h

theorem setNoDelay {fd : Int} {Q : Except Error Unit → View → Prop} (h : ∀ answer, Q answer (v.log (.hastened i fd))) :
    Leads R i (Run.setNoDelay i fd : Run α (Except Error Unit)) v Q := by
  refine bind (note (fun _ => rfl) (still (.bind .get fun m => ?_) h))
  split <;> exact .pure _

end Leads

end SlotServer
