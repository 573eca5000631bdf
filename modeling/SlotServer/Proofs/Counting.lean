import SlotServer.Proofs.Deeds
import SlotServer.Proofs.Record

/-!
# Leases and places

A slot has a lease for the dispatch loop while it has a socket, and one for the handle of its connection. It has a place
in the queue of free slots while it has no lease. This is kept whatever the kernel comes up with, so nothing here asks
which operation a completion answers: a completion is told from another one only by the state that it finds.

- `Counted`: the leases of a slot, its handle, its place and what else keeps a program from being at fault;
- `Counted.release`, `Counted.issueClose`: a lease is given back, and a socket is closed;
- `Tallied`: a slot whose leases are told by its state, as they are before and after each program of the dispatch loop
  (`Tallied.route`, `Tallied.issueHalf`, `Tallied.failCommand`, `Tallied.forceSlot`).
-/

namespace SlotServer

variable {α β : Type}

namespace SlotState

/-- The leases that the dispatch loop has of a slot. -/
def leases : SlotState → Nat
  | .disconnected => 0
  | _ => 1

theorem leases_of_ne {state : SlotState} (h : state ≠ disconnected) : state.leases = 1 := by
  cases state <;> first | rfl | exact absurd rfl h

end SlotState

/-- There is at most one command and at most one place for a slot, and neither for one that is not there. -/
structure View.Few (v : View) : Prop where
  commands : v.commands.length ≤ 1 ∧ (v.slot? = none → v.commands = [])
  places : v.places ≤ 1 ∧ (v.slot? = none → v.places = 0)

/-- The other slots leave room in the inbox and in the queue of free slots. -/
class Rely.Sparse (R : Rely) : Prop where
  few : ∀ j v', R.others j v' → v'.Few

theorem zero_ne_minValue : (0 : Int32) ≠ Int32.minValue := by decide

theorem Cell.complete_ok {c : Cell} (h : c.phase ≠ .completed) (o : Outcome) :
    ∃ waker c', c.complete o = .ok (waker, c') ∧ c'.phase = .completed := by
  unfold Cell.complete
  cases hphase : c.phase with
  | completed => exact absurd hphase h
  | _ => exact ⟨_, _, rfl, rfl⟩

/-- The cells in `opened` are to be completed yet. Those of all other operations that began are completed. -/
structure Pending (opened : Half → Bool) (h : List Event) (s : Slot) : Prop where
  uncompleted : ∀ half, opened half = true → (Connection.cell s half).phase ≠ .completed
  resolved : ∀ half, opened half = false → begun half h = true → (Connection.cell s half).phase = .completed

/-- The leases of a slot: so many are owed, and the handle has one more. The cells in `opened` are to be completed
yet. -/
structure Counted (i owed : Nat) (opened : Half → Bool) (v : View) (s : Slot) : Prop
    extends Pending opened v.history s where
  here : v.slot? = some s
  index : s.index = i
  /-- A context names the slot truly. -/
  small : i < 0x100000000
  leases : s.leases.toNat = owed + v.handles
  attached : s.attached = true ↔ 0 < v.handles
  single : v.handles ≤ 1
  places : v.places = if s.leases = 0 then 1 else 0
  unbound : s.state = .disconnected → s.fd = -1
  unserved : s.state = .accepting → v.handles = 0
  within : ∀ half, (s.segment half).Within v.region
  commands : v.commands.length ≤ 1
  answers : ∀ c ∈ v.answers, c.result ≠ Int32.minValue

/-- A slot whose leases and open cells are told by its state. -/
abbrev Tallied (i : Nat) (v : View) (s : Slot) : Prop := Counted i s.state.leases s.state.works v s

/-- The slot is tallied after a program as it was before, and the program left the commands in the inbox alone. -/
def Kept (i : Nat) (v v' : View) : Prop := ∃ s, Tallied i v' s ∧ v'.commands = v.commands

namespace Counted

variable {R : Rely} {i owed : Nat} {half : Half} {opened opened' : Half → Bool} {v : View} {s s' : Slot}

theorem few (h : Counted i owed opened v s) : v.Few where
  commands := ⟨h.commands, fun hnone => by rw [h.here] at hnone; cases hnone⟩
  places := ⟨by rw [h.places]; split <;> decide, fun hnone => by rw [h.here] at hnone; cases hnone⟩

theorem slot_ofSlot (h : Counted i owed opened v s) : (Context.ofSlot i).slot = i := by
  rw [Context.slot_ofSlot, Nat.mod_eq_of_lt h.small]

theorem one (h : Counted i s.state.leases opened v s) (hlive : s.state ≠ .disconnected) : Counted i 1 opened v s := by
  rw [← SlotState.leases_of_ne hlive]
  exact h

/-- A step of the slot that leaves its leases, its handle and its halves as they are. -/
theorem put (h : Counted i owed opened v s) (hindex : s'.index = s.index) (hleases : s'.leases = s.leases)
    (hattached : s'.attached = s.attached) (hsegment : ∀ half, s'.segment half = s.segment half)
    (hunbound : s'.state = .disconnected → s'.fd = -1) (hunserved : s'.state = .accepting → s.state = .accepting)
    (hpending : Pending opened' v.history s') : Counted i owed opened' (v.put s') s' :=
  { toPending := hpending
    here := rfl
    index := hindex.trans h.index
    small := h.small
    leases := by rw [hleases]; exact h.leases
    attached := by rw [hattached]; exact h.attached
    single := h.single
    places := by rw [hleases]; exact h.places
    unbound := hunbound
    unserved := fun hs => h.unserved (hunserved hs)
    within := fun half => by rw [hsegment]; exact h.within half
    commands := h.commands
    answers := h.answers }

/-- Another cell, where the cells that count as open are. -/
theorem setCell (h : Counted i owed opened v s) (half : Half) (c : Cell)
    (hpending : Pending opened' v.history (Connection.setCell s c half)) :
    Counted i owed opened' (v.put (Connection.setCell s c half)) (Connection.setCell s c half) := by
  refine h.put ?_ ?_ ?_ ?_ ?_ ?_ hpending
  · cases half <;> rfl
  · cases half <;> rfl
  · exact Slot.attached_setCell ..
  · intro other
    cases half <;> cases other <;> rfl
  · rw [Slot.state_setCell, Slot.fd_setCell]
    exact h.unbound
  · rw [Slot.state_setCell]
    exact id

/-- A slot with a socket goes on to another state with one. -/
theorem advance (h : Counted i owed opened v s) (next : SlotState) (hnext : next ≠ .disconnected)
    (hserved : next ≠ .accepting) (n : Nat) :
    Counted i owed opened (v.put { s with state := next, receivedLength := n })
      { s with state := next, receivedLength := n } :=
  h.put rfl rfl rfl (fun _ => rfl) (fun hs => absurd hs hnext) (fun hs => absurd hs hserved)
    ⟨h.uncompleted, h.resolved⟩

/-- A connection is given up. -/
theorem leave (h : Counted i owed opened v s) (n : Nat) :
    Counted i owed opened (v.put { s with state := .disconnecting, receivedLength := n })
      { s with state := .disconnecting, receivedLength := n } := h.advance .disconnecting nofun nofun n

/-- The count of the bytes that were received does not matter. -/
theorem count (h : Counted i owed opened v s) (n : Nat) :
    Counted i owed opened (v.put { s with receivedLength := n }) { s with receivedLength := n } :=
  h.put rfl rfl rfl (fun _ => rfl) h.unbound id ⟨h.uncompleted, h.resolved⟩

/-- The slot lets go of its socket. -/
theorem unbind (h : Counted i owed opened v s) :
    Counted i owed opened (v.put s.unbound) s.unbound :=
  h.put rfl rfl rfl (fun _ => rfl) (fun _ => rfl) nofun ⟨h.uncompleted, h.resolved⟩

/-- An event with which no operation begins. -/
theorem log (h : Counted i owed opened v s) {e : Event}
    (he : ∀ half, begun half (e :: v.history) = begun half v.history) : Counted i owed opened (v.log e) s :=
  { h with
    toPending := ⟨h.uncompleted, fun half ho hbegun => h.resolved half ho ((he half).symm.trans hbegun)⟩ }

theorem wake (h : Counted i owed opened v s) (cell : CellName) (waker : Option Waker) :
    Counted i owed opened (v.wake cell waker) s := by
  cases waker with
  | none => exact h
  | some w => exact h.log fun _ => rfl

theorem cut (h : Counted i owed opened v s) (fd : Int) : Counted i owed opened (v.cut i fd) s := by
  unfold View.cut
  split
  · exact h.log fun _ => rfl
  · exact h

/-- The kernel took an operation. -/
theorem queued (h : Counted i owed opened v s) {op : Op} {more : List Completion}
    (hmore : more = [] ∨ more = [⟨op.ctx, 0, 0⟩]) :
    Counted i owed opened { v.log (.queued op) with answers := v.answers ++ more } s := by
  refine { h.log (e := .queued op) fun _ => rfl with answers := fun c hc => ?_ }
  rcases List.mem_append.1 hc with hc | hc
  · exact h.answers c hc
  · rcases hmore with rfl | rfl
    · cases hc
    · obtain rfl := List.mem_singleton.1 hc
      exact zero_ne_minValue

/-! ## Handles and sockets -/

/-- A slot that has a place among the free ones has no socket, no handle and no lease. -/
theorem free_of_places (h : Counted i owed opened v s) (hplaces : 0 < v.places) :
    s.leases = 0 ∧ owed = 0 ∧ v.handles = 0 ∧ v.places = 1 := by
  have hleases := h.leases
  have hzero : s.leases = 0 := Decidable.byContradiction fun hne => by
    rw [h.places, if_neg hne] at hplaces
    omega
  rw [hzero, UInt8.toNat_zero] at hleases
  refine ⟨hzero, by omega, by omega, ?_⟩
  rw [h.places, if_pos hzero]

/-- A slot that was taken out of the free ones gets a socket. -/
theorem withSocket (h : Counted i owed opened v s) (hplaces : 0 < v.places) (hopened : ∀ half, opened half = false)
    (fd : Int) (peer : Option Net.SocketAddress) :
    Tallied i ({ v with places := v.places - 1 }.put (s.withSocket fd peer)) (s.withSocket fd peer) := by
  obtain ⟨-, -, hhandles, hone⟩ := h.free_of_places hplaces
  exact
    { h with
      here := rfl
      leases := by
        show 1 = 1 + v.handles
        omega
      attached := by
        show false = true ↔ 0 < v.handles
        rw [hhandles]
        decide
      places := by
        show v.places - 1 = if (1 : UInt8) = 0 then 1 else 0
        rw [hone]
        rfl
      unbound := nofun
      unserved := fun _ => hhandles
      uncompleted := fun half ho => by cases half <;> cases ho
      resolved := fun half _ => h.resolved half (hopened half)
      within := h.within }

/-- A connection gets its handle, and a lease for it. -/
theorem attach (h : Counted i 1 opened v s) (hnone : v.handles = 0) (hserved : s.state ≠ .accepting) :
    Counted i 1 opened { v with slot? := some s.attach, handles := v.handles + 1 } s.attach := by
  have hone : s.leases = 1 := by
    rw [← UInt8.toNat_inj, h.leases, hnone]
    rfl
  exact
    { h with
      here := rfl
      leases := by
        show (s.leases + 1).toNat = 1 + (v.handles + 1)
        rw [hone, hnone]
        rfl
      attached := ⟨fun _ => Nat.succ_pos _, fun _ => rfl⟩
      single := by
        show v.handles + 1 ≤ 1
        omega
      places := by
        show v.places = if s.leases + 1 = 0 then 1 else 0
        rw [h.places, hone]
        rfl
      unserved := fun hs => absurd hs hserved
      toPending := ⟨h.uncompleted, h.resolved⟩
      within := h.within }

/-- The handle is gone, and its lease is to be given back. -/
theorem detach (h : Counted i owed opened v s) (hheld : 0 < v.handles) :
    Counted i (owed + 1) opened { v with handles := v.handles - 1, slot? := some s.detach } s.detach := by
  have hsingle : v.handles = 1 := Nat.le_antisymm h.single hheld
  exact
    { h with
      here := rfl
      leases := by
        have hleases := h.leases
        show s.leases.toNat = owed + 1 + (v.handles - 1)
        omega
      attached := by
        show false = true ↔ 0 < v.handles - 1
        rw [hsingle]
        decide
      single := by
        show v.handles - 1 ≤ 1
        omega
      unserved := fun hs => by
        show v.handles - 1 = 0
        omega
      within := h.within
      toPending := ⟨h.uncompleted, h.resolved⟩ }

/-! ## Giving back a lease -/

/-- A lease that is owed is given back. Without one left, the slot has a place among the free ones. -/
theorem release [hR : R.Sparse] (h : Counted i (owed + 1) opened v s) :
    Leads R i (Run.release i : Run α Unit) v fun _ v' => ∃ s', Counted i owed opened v' s' ∧ s'.state = s.state ∧
      v'.commands = v.commands := by
  have hafter : ∀ (leases : UInt8) (places : Nat), leases.toNat = owed + v.handles →
      (places = if leases = 0 then 1 else 0) →
      Counted i owed opened { v.put { s with leases } with places } { s with leases } := fun leases places hl hp =>
    { h with
      here := rfl
      leases := hl
      places := hp
      within := h.within
      toPending := ⟨h.uncompleted, h.resolved⟩ }
  have hpos : s.leases ≠ 0 := fun hzero => by
    have hleases := h.leases
    rw [hzero, UInt8.toNat_zero] at hleases
    omega
  have hsub : (s.leases - 1).toNat = owed + v.handles := by
    have hleases := h.leases
    have hle : (1 : UInt8) ≤ s.leases := by
      rw [UInt8.le_iff_toNat_le, UInt8.toNat_one]
      omega
    rw [UInt8.toNat_sub_of_le _ _ hle, UInt8.toNat_one]
    omega
  refine Leads.release h.here (fun hzero => absurd hzero hpos) (fun _ hone => ?_) (fun hone => ?_) fun hone => .inl ?_
  · -- another lease is left
    have hleft : s.leases - 1 ≠ 0 := fun hzero => hone (by rw [← UInt8.sub_add_cancel s.leases 1, hzero]; rfl)
    refine ⟨_, hafter _ v.places hsub ?_, rfl, rfl⟩
    rw [h.places, if_neg hpos, if_neg hleft]
  · -- it was the last one
    rw [hone] at hsub
    refine ⟨_, hafter 0 _ hsub ?_, rfl, rfl⟩
    rw [h.places, if_neg hpos]
    rfl
  · exact ⟨by rw [h.here]; rfl, by rw [h.places, if_neg hpos], fun j v' hv' => (hR.few j v' hv').places⟩

/-! ## Closing a socket -/

/-- A slot that is disconnecting is closed past the queue. -/
theorem closeSlot [R.Sparse] (h : Counted i 1 opened v s) (hstate : s.state = .disconnecting) :
    Leads R i (Run.closeSlot i : Run α Unit) v fun _ v' => ∃ s', Counted i 0 opened v' s' ∧ s'.state = .disconnected ∧
      v'.commands = v.commands := by
  refine Leads.closeSlot h.here (fun _ => ?_) (absurd hstate)
  exact ((h.unbind.cut s.fd).release).mono fun _ v' ⟨s', hafter, hover, hsame⟩ =>
    ⟨s', hafter, hover, hsame.trans (View.commands_cut ..)⟩

/-- The close of a slot is queued. Where the kernel does not take it, a slot that is disconnecting is closed at once. -/
theorem issueClose [R.Sparse] (h : Counted i s.state.leases opened v s) :
    Leads R i (Run.issueClose i : Run α Unit) v fun _ v' => ∃ s', Counted i s'.state.leases opened v' s' ∧
      (s'.state = s.state ∨ s.state = .disconnecting ∧ s'.state = .disconnected) ∧ v'.commands = v.commands := by
  refine Leads.bind (Leads.slot?_some h.here ?_)
  dsimp only
  rw [h.index]
  refine Leads.bind (Leads.queue h.slot_ofSlot (fun more hmore => ?_) fun e => ?_)
  · exact Leads.pure ⟨s, h.queued hmore, .inl rfl, rfl⟩
  · refine Leads.bind (Leads.say ?_)
    have hlog := h.log (e := .refused (.close (.ofSlot i) s.fd) e) fun _ => rfl
    by_cases hstate : s.state = .disconnecting
    · rw [hstate] at hlog
      refine (hlog.closeSlot hstate).mono fun _ v' ⟨s', hafter, hover, hsame⟩ => ⟨s', ?_, .inr ⟨hstate, hover⟩, hsame⟩
      rw [hover]
      exact hafter
    · exact Leads.closeSlot hlog.here (fun hd => absurd hd hstate) fun _ => ⟨s, hlog, .inl rfl, rfl⟩

/-- A connection that is given up is closed. -/
theorem close [R.Sparse] (h : Counted i 1 opened v s) (hstate : s.state = .disconnecting) :
    Leads R i (Run.issueClose i : Run α Unit) v fun _ v' => ∃ s', Counted i s'.state.leases opened v' s' ∧
      s'.state.isOver = true ∧ v'.commands = v.commands := by
  have hone : Counted i s.state.leases opened v s := by rw [hstate]; exact h
  refine hone.issueClose.mono fun _ v' ⟨s', hafter, hover, hsame⟩ => ⟨s', hafter, ?_, hsame⟩
  rcases hover with hover | ⟨-, hover⟩
  · rw [hover, hstate]
    rfl
  · rw [hover]
    rfl

/-- The open cell is completed. -/
theorem complete (h : Counted i owed opened v s) (hopened : ∀ other, opened other = decide (other = half))
    (o : Outcome) :
    Leads R i (Run.completeCell ⟨i, half⟩ (Slot.completeHalf half o) : Run α Unit) v fun _ v' => ∃ s',
      Counted i owed (fun _ => false) v' s' ∧ s'.state = s.state ∧ v'.commands = v.commands := by
  obtain ⟨waker, c, hc, hdone⟩ := Cell.complete_ok (h.uncompleted half ((hopened half).trans (decide_eq_true rfl))) o
  have hcomplete : Slot.completeHalf half o s = .ok (waker, Connection.setCell s c half) := by
    rw [Slot.completeHalf, hc]
    rfl
  refine Leads.completeCell rfl h.here (fun fault hfault => ?_) fun waker' s' hs' => ?_
  · rw [hcomplete] at hfault
    cases hfault
  · rw [hcomplete] at hs'
    cases hs'
    have hpending : Pending (fun _ => false) v.history (Connection.setCell s c half) := by
      refine ⟨fun _ hf => absurd hf Bool.false_ne_true, fun other _ hbegun => ?_⟩
      by_cases hother : other = half
      · rw [hother, Slot.cell_setCell_self]
        exact hdone
      · rw [Slot.cell_setCell_of_ne s c hother]
        exact h.resolved other ((hopened other).trans (decide_eq_false hother)) hbegun
    have hafter := h.setCell half c hpending
    exact ⟨_, hafter.wake ⟨i, half⟩ waker, Slot.state_setCell .., View.commands_wake ..⟩

/-- Without an open cell, a slot that is not at work is tallied. -/
theorem settle (h : Counted i s.state.leases opened v s) (hopened : ∀ half, opened half = false)
    (hnone : ∀ half, s.state.works half = false) : Tallied i v s := by
  obtain rfl : opened = s.state.works := funext fun half => (hopened half).trans (hnone half).symm
  exact h

/-- A slot that stays in its state, or is closed, has the cells open that it had. -/
theorem reopen {v' : View} (h : Counted i s'.state.leases s.state.works v' s')
    (hstate : s'.state = s.state ∨ s.state = .disconnecting ∧ s'.state = .disconnected) : Tallied i v' s' := by
  rcases hstate with hsame | ⟨hclosing, hover⟩
  · rw [← hsame] at h
    exact h
  · refine h.settle (SlotState.works_of_isOver ?_) (SlotState.works_of_isOver ?_)
    · rw [hclosing]
      rfl
    · rw [hover]
      rfl

theorem free (h : Counted i 0 opened v s) (hopened : ∀ half, opened half = false) (hover : s.state = .disconnected) :
    Tallied i v s := by
  have hleases : Counted i s.state.leases opened v s := by
    rw [hover]
    exact h
  exact hleases.settle hopened (SlotState.works_of_isOver (by rw [hover]; rfl))

/-- An operation has ended badly: the socket is closed, and whoever waits is told. -/
theorem failed [R.Sparse] (h : Counted i 1 opened v s) (hstate : s.state = .disconnecting)
    (hopened : ∀ other, opened other = decide (other = half)) (o : Outcome) :
    Leads R i (do
      Run.issueClose i
      Run.completeCell ⟨i, half⟩ (Slot.completeHalf half o) : Run α Unit) v fun _ v' => Kept i v v' := by
  refine Leads.bind ((h.close hstate).mono fun _ v' ⟨s', hafter, hover, hsame⟩ => ?_)
  refine (hafter.complete hopened o).mono fun _ v'' ⟨s'', hafter', hstate', hsame'⟩ => ⟨s'', ?_, hsame'.trans hsame⟩
  rw [← hstate'] at hafter' hover
  exact hafter'.settle (fun _ => rfl) (SlotState.works_of_isOver hover)

/-- An idle connection is closed. Any other is left alone. -/
theorem disconnect [R.Sparse] (h : Counted i s.state.leases opened v s) :
    Leads R i (Run.disconnect i : Run α Unit) v fun _ v' => ∃ s', Counted i s'.state.leases opened v' s' ∧
      (s.state.isIdle = true → s'.state.isOver = true) ∧ (s.state.isIdle = false → s'.state = s.state) ∧
      v'.commands = v.commands := by
  cases hidle : s.state.isIdle with
  | false =>
    refine Leads.bind (Leads.advance_error h.here (fun hmem => ?_) (Leads.pure ⟨s, h, nofun, fun _ => rfl, rfl⟩))
    rw [SlotState.isIdle_of_mem hmem] at hidle
    cases hidle
  | true =>
    refine Leads.bind (Leads.advance_ok h.here (SlotState.mem_of_isIdle hidle) ?_)
    refine (((h.one (SlotState.ne_disconnected_of_isIdle hidle)).leave s.receivedLength).close rfl).mono
      fun _ v' ⟨s', hafter, hover, hsame⟩ => ⟨s', hafter, fun _ => hover, nofun, hsame⟩

/-- An operation has ended well: a connection without a handle is closed, and whoever waits is told. -/
theorem delivered [R.Sparse] (h : Counted i 1 opened v s) (hidle : s.state.isIdle = true)
    (hopened : ∀ other, opened other = decide (other = half)) (o : Outcome) :
    Leads R i (do
      if !((← Run.slot? i).any (·.attached)) then Run.disconnect i
      Run.completeCell ⟨i, half⟩ (Slot.completeHalf half o) : Run α Unit) v fun _ v' => Kept i v v' := by
  have hone : Counted i s.state.leases opened v s := by
    rw [SlotState.leases_of_ne (SlotState.ne_disconnected_of_isIdle hidle)]
    exact h
  -- what follows once the connection is closed, or is not
  have hrest : ∀ v' s', Counted i s'.state.leases opened v' s' → (∀ half, s'.state.works half = false) →
      v'.commands = v.commands → Leads R i (Run.completeCell ⟨i, half⟩ (Slot.completeHalf half o) : Run α Unit) v'
        fun _ v'' => Kept i v v'' := by
    intro v' s' hafter hnone hsame
    refine (hafter.complete hopened o).mono fun _ v'' ⟨s'', hafter', hstate, hsame'⟩ => ⟨s'', ?_, hsame'.trans hsame⟩
    rw [← hstate] at hafter' hnone
    exact hafter'.settle (fun _ => rfl) hnone
  refine Leads.bind (Leads.slot?_some h.here ?_)
  show Leads _ i (if (!s.attached) = true then _ else _ : Run α Unit) v _
  cases s.attached with
  | false =>
    refine Leads.bind (hone.disconnect.mono fun _ v' ⟨s', hafter, hover, _, hsame⟩ => ?_)
    exact hrest v' s' hafter (SlotState.works_of_isOver (hover hidle)) hsame
  | true => exact hrest v s hone (SlotState.works_of_isIdle hidle) rfl

end Counted

namespace Tallied

variable {R : Rely} [R.Sparse] {i : Nat} {half : Half} {v : View} {s : Slot}

theorem of_working (h : Tallied i v s) (half : Half) (hstate : s.state = half.working) :
    Counted i 1 half.working.works v s := by
  rw [← hstate]
  exact h.one (by rw [hstate]; exact half.working_ne_disconnected)

/-! ## Commands -/

/-- The operation of a half is queued, whatever state the slot is in by now. -/
theorem issueHalf (h : Tallied i v s) (half : Half) :
    Leads R i (Run.issueHalf half i : Run α Unit) v fun _ v' => Kept i v v' := by
  refine Leads.bind (Leads.slot?_some h.here (Leads.bind (Leads.placeOf ?_ (.inl (h.within half)))))
  refine Leads.bind (Leads.queue (by rw [Slot.ctx_opAt]; exact h.slot_ofSlot) (fun more hmore => ?_) fun e => ?_)
  · exact Leads.pure ⟨s, h.queued hmore, rfl⟩
  · have hlog := h.log (e := .refused (s.halfOp half i) e) fun _ => rfl
    refine Leads.bind (Leads.bump (Leads.bind (Leads.stepSlot_some hlog.here ?_)))
    by_cases hstate : s.state = half.working
    · obtain ⟨n, habort⟩ := Slot.abortHalf_working hstate
      rw [habort]
      have hleft := (of_working hlog half hstate).leave n
      exact hleft.failed rfl half.works_working (.error e)
    · obtain ⟨n, habort⟩ := Slot.abortHalf_not_working hstate
      rw [habort]
      exact Leads.pure ⟨{ s with receivedLength := n }, hlog.count n, rfl⟩

/-! ## Completions -/

/-- A receive has ended, or so it seems. -/
theorem onReceive {result : Int32} (h : Tallied i v s) (hstate : s.state = .receiving)
    (hresult : result ≠ Int32.minValue) :
    Leads R i (Run.onReceive i result : Run α Unit) v fun _ v' => Kept i v v' := by
  have hworking := h.of_working .receive hstate
  unfold Run.onReceive
  by_cases hbad : result ≤ 0
  · have hleft := hworking.leave 0
    rw [if_pos hbad]
    refine Leads.bind (Leads.stepSlot_some h.here ?_)
    rw [Slot.abortReceive_ok hstate]
    dsimp only
    split
    · refine Leads.bind (Leads.errnoOf ?_ (.inl hresult))
      exact Leads.bind (Leads.say (Leads.bind (Leads.bump (hleft.failed rfl (Half.works_working .receive) _))))
    · exact Leads.bind (Leads.bump (hleft.failed rfl (Half.works_working .receive) _))
  · have hleft := hworking.advance .received nofun nofun result.toInt.toNat
    rw [if_neg hbad]
    refine Leads.bind (Leads.stepSlot_some h.here ?_)
    rw [Slot.finishReceive_ok hstate]
    exact Leads.bind (Leads.bump (Leads.bind (Leads.bump (hleft.delivered rfl (Half.works_working .receive) _))))

/-- A send has ended, or so it seems. -/
theorem onSend {result : Int32} (h : Tallied i v s) (hstate : s.state = .sending) (hresult : result ≠ Int32.minValue) :
    Leads R i (Run.onSend i result : Run α Unit) v fun _ v' => Kept i v v' := by
  have hworking := h.of_working .send hstate
  unfold Run.onSend
  by_cases hbad : result < 0
  · have hleft := hworking.leave s.receivedLength
    rw [if_pos hbad]
    refine Leads.bind (Leads.stepSlot_some h.here ?_)
    rw [Slot.abortSend_ok hstate]
    refine Leads.bind (Leads.errnoOf ?_ (.inl hresult))
    exact Leads.bind (Leads.say (Leads.bind (Leads.bump (hleft.failed rfl (Half.works_working .send) _))))
  · have hleft := hworking.advance .sent nofun nofun s.receivedLength
    rw [if_neg hbad]
    refine Leads.bind (Leads.stepSlot_some h.here ?_)
    rw [Slot.finishSend_ok hstate]
    exact Leads.bind (Leads.bump (Leads.bind (Leads.bump (hleft.delivered rfl (Half.works_working .send) _))))

/-- A close has ended, or so it seems. -/
theorem onClose {result : Int32} (h : Tallied i v s) (hstate : s.state = .disconnecting)
    (hresult : result ≠ Int32.minValue) :
    Leads R i (Run.onClose i result : Run α Unit) v fun _ v' => Kept i v v' := by
  have hsettle : Leads R i (Run.settleClose i : Run α Unit) v fun _ v' => Kept i v v' := by
    refine Leads.bind (Leads.stepSlot_some h.here ?_)
    rw [Slot.finishDisconnect_ok hstate]
    refine Leads.bind (Leads.bump (Leads.bind (Leads.say ?_)))
    refine (h.one (by rw [hstate]; decide)).unbind.release.mono fun _ v' hdone => ?_
    obtain ⟨s', hafter, hover, hsame⟩ := hdone
    exact ⟨s', hafter.free (SlotState.works_of_isOver (by rw [hstate]; rfl)) hover, hsame⟩
  rw [Run.onClose_eq]
  split
  · exact Leads.bind (Leads.errnoOf (Leads.bind (Leads.say hsettle)) (.inl hresult))
  · exact hsettle

/-- A completion is taken to its slot, whatever it is of. -/
theorem route {c : Completion} {rest : List Completion} (h : Tallied i v s) (hc : v.answers = c :: rest)
    (hslot : c.ctx.slot = i) :
    Leads R i (Run.route c : Run α Unit) { v with answers := rest } fun _ v' => Kept i v v' := by
  have hresult := h.answers c (hc ▸ List.mem_cons_self ..)
  have hlog : Tallied i ({ v with answers := rest }.log (.answered c)) s :=
    { h.log (e := .answered c) fun _ => rfl with
      answers := fun c' hc' => h.answers c' (hc ▸ List.mem_cons_of_mem _ hc') }
  subst hslot
  refine Leads.bind (Leads.note (fun _ => rfl) (Leads.bind (Leads.slot?_some hlog.here ?_)))
  dsimp only
  cases hstate : s.state with
  | receiving => exact hlog.onReceive hstate hresult
  | sending => exact hlog.onSend hstate hresult
  | disconnecting => exact hlog.onClose hstate hresult
  | _ => exact Leads.bind (Leads.say (Leads.bump ⟨s, hlog, rfl⟩))

/-! ## The end of a connection -/

/-- A connection is drained. -/
theorem drainSlot (h : Tallied i v s) :
    Leads R i (Run.drainSlot i : Run α Unit) v fun _ v' => ∃ s', Tallied i v' s' ∧
      (s'.state = s.state ∨ s.state.isIdle = true) ∧ v'.commands = v.commands := by
  have hidle : s.state.isIdle = true → Leads R i (Run.disconnect i : Run α Unit) v fun _ v' => ∃ s', Tallied i v' s' ∧
      (s'.state = s.state ∨ s.state.isIdle = true) ∧ v'.commands = v.commands := fun hidle =>
    h.disconnect.mono fun _ v' ⟨s', hafter, hover, _, hsame⟩ =>
      ⟨s', hafter.settle (SlotState.works_of_isIdle hidle) (SlotState.works_of_isOver (hover hidle)), .inr hidle, hsame⟩
  have hwork : Leads R i (do
      Run.record (.hungUp i s.fd)
      Run.modifyKernel fun k => { k with sockets := k.sockets.hangUp s.fd } : Run α Unit) v fun _ v' => ∃ s',
        Tallied i v' s' ∧ (s'.state = s.state ∨ s.state.isIdle = true) ∧ v'.commands = v.commands :=
    Leads.bind (Leads.note (fun _ => rfl) (Leads.modifyKernel (fun _ => rfl) ⟨s, h.log fun _ => rfl, .inl rfl, rfl⟩))
  refine Leads.bind (Leads.slot?_some h.here ?_)
  dsimp only
  cases hstate : s.state with
  | accepted | received | sent =>
    rw [hstate] at hidle
    exact hidle rfl
  | receiving | sending =>
    rw [hstate] at hwork
    exact hwork
  | _ => exact Leads.pure ⟨s, h, .inl hstate, rfl⟩

/-- The operation of a half is failed, unless the slot is in another state by now. -/
theorem failHalf (h : Tallied i v s) : Leads R i (Run.failHalf half i : Run α Unit) v fun _ v' => Kept i v v' := by
  refine Leads.bind (Leads.stepSlot_some h.here ?_)
  by_cases hstate : s.state = half.working
  · obtain ⟨n, habort⟩ := Slot.abortHalf_working hstate
    rw [habort]
    have hleft := (h.of_working half hstate).leave n
    refine Leads.bind ((hleft.closeSlot rfl).mono fun _ v' ⟨s', hafter, hover, hsame⟩ => ?_)
    refine (hafter.complete half.works_working _).mono fun _ v'' ⟨s'', hafter', hstate', hsame'⟩ => ?_
    exact ⟨s'', hafter'.free (fun _ => rfl) (hstate'.trans hover), hsame'.trans hsame⟩
  · obtain ⟨n, habort⟩ := Slot.abortHalf_not_working hstate
    rw [habort]
    exact Leads.pure ⟨{ s with receivedLength := n }, h.count n, rfl⟩

/-- A new socket that nobody takes over is closed. -/
theorem failAccept (h : Tallied i v s) (hstate : s.state = .accepting) :
    Leads R i (Run.failCommand (.accept i) : Run α Unit) v fun _ v' => ∃ s', Tallied i v' s' ∧
      s'.state = .disconnected ∧ v'.commands = v.commands := by
  refine Leads.bind (Leads.say (Leads.bind (Leads.advance_ok h.here (List.mem_singleton.2 hstate) ?_)))
  have hleft := (h.one (by rw [hstate]; exact nofun)).leave s.receivedLength
  have hopened : ∀ half, s.state.works half = false := by
    rw [hstate]
    rintro ⟨⟩ <;> rfl
  exact (hleft.closeSlot rfl).mono fun _ v' ⟨s', hafter, hover, hsame⟩ => ⟨s', hafter.free hopened hover, hover, hsame⟩

/-- A command is failed, whatever state the slot is in by now. -/
theorem failCommand {c : Command} (h : Tallied i v s) (hc : c.slot = i) :
    Leads R i (Run.failCommand c : Run α Unit) v fun _ v' => Kept i v v' := by
  subst hc
  cases c with
  | accept i =>
    by_cases hstate : s.state = .accepting
    · exact (h.failAccept hstate).mono fun _ v' ⟨s', hafter, _, hsame⟩ => ⟨s', hafter, hsame⟩
    · exact Leads.bind (Leads.say (Leads.bind (Leads.advance_error h.here (fun hmem =>
        hstate (List.mem_singleton.1 hmem)) (Leads.pure ⟨s, h, rfl⟩))))
  | receive i =>
    rw [show Command.receive i = Half.command i .receive from rfl, Run.failCommand_half]
    exact Leads.bind (Leads.say h.failHalf)
  | send i =>
    rw [show Command.send i = Half.command i .send from rfl, Run.failCommand_half]
    exact Leads.bind (Leads.say h.failHalf)
  | disconnect i =>
    refine Leads.bind (Leads.say ?_)
    by_cases hstate : s.state = .disconnecting
    · have hone : Counted i 1 s.state.works v s := by
        have hleases : s.state.leases = 1 := by rw [hstate]; rfl
        rw [← hleases]
        exact h
      exact (hone.closeSlot hstate).mono fun _ v' ⟨s', hafter, hover, hsame⟩ =>
        ⟨s', hafter.free (SlotState.works_of_isOver (by rw [hstate]; rfl)) hover, hsame⟩
    · exact Leads.closeSlot h.here (fun hd => absurd hd hstate) fun _ => ⟨s, h, rfl⟩

/-- A slot is forced free, whatever state it is in. -/
theorem forceSlot (h : Tallied i v s) :
    Leads R i (Run.forceSlot i : Run α Bool) v fun _ v' => ∃ s', Tallied i v' s' ∧ s'.state = .disconnected ∧
      v'.commands = v.commands := by
  have hrelease : ∀ {v' : View} {s' : Slot}, Counted i 1 (fun _ => false) v' s' → s'.state = .disconnected →
      v'.commands = v.commands → Leads R i (Run.release i : Run α Unit) v' fun _ v'' =>
        ∃ s'', Tallied i v'' s'' ∧ s''.state = .disconnected ∧ v''.commands = v.commands := by
    intro v' s' hone hover hsame
    refine hone.release.mono fun _ v'' hdone => ?_
    obtain ⟨s'', hafter, hstate, hsame'⟩ := hdone
    have hover' := hstate.trans hover
    exact ⟨s'', hafter.free (fun _ => rfl) hover', hover', hsame'.trans hsame⟩
  -- what follows once whoever waited was told
  have hsettle : ∀ {v' : View} {s' : Slot}, Counted i 1 (fun _ => false) v' s' → s'.state = .disconnected →
      v'.commands = v.commands → Leads R i (Run.settleForce i s : Run α Bool) v' fun _ v'' =>
        ∃ s'', Tallied i v'' s'' ∧ s''.state = .disconnected ∧ v''.commands = v.commands := by
    intro v' s' hone hover hsame
    refine Leads.settleForce (fun _ => ?_) fun _ => ?_
    · rw [h.index]
      exact hrelease (hone.cut s.fd) hover ((View.commands_cut ..).trans hsame)
    · rw [h.index]
      exact hrelease hone hover hsame
  refine Leads.forceSlot h.here (fun hover => ⟨s, h, hover, rfl⟩) (fun half hstate => ?_) fun hlive hnone => ?_
  · have hunbound := (h.one (by rw [hstate]; exact half.working_ne_disconnected)).unbind
    refine (hunbound.complete (by rw [hstate]; exact half.works_working) _).mono fun _ v' hdone => ?_
    obtain ⟨s', hone, hover, hsame⟩ := hdone
    exact hsettle hone hover hsame
  · have hunbound := (h.one hlive).unbind
    rw [show s.state.works = fun _ => false from funext hnone] at hunbound
    exact hsettle hunbound rfl rfl

end Tallied

end SlotServer
