import SlotServer.Proofs.HonestRuns

/-!
# What receives leave to be read

A slot keeps in mind how many bytes its connection may read. The steps that end a receive write this down, and so does
the binding of a socket, but a slot that is forced free keeps it as it is. What the slot has in mind is told by the
record all the same.

- `Receipt`, `receipt`: what the record tells of a slot's receives;
- `Hears`: the slot has in mind what the record tells, and a receive is under way or is not;
- `Hears.route`, `Hears.execute`, `Hears.deed` and so on: what every program of a slot keeps of that;
- `heard`: the regime of such slots, beside that of `honest` (`HonestRun.heard`).
-/

namespace SlotServer

variable {α β : Type}

/-! ## The record -/

/-- How many bytes an operation has delivered. -/
def delivered : Outcome → Nat
  | .ok n => n
  | .error _ => 0

/-- What is told of a slot's receives. -/
structure Receipt where
  /-- How many bytes were left to be read when the last one was over. -/
  count : Nat
  /-- One is under way. -/
  pending : Bool

namespace Receipt

/-- A receive that is over without an answer has left nothing to be read. -/
def lost (r : Receipt) : Receipt := if r.pending then ⟨0, false⟩ else r

/-- What is told after an event, where `cut` is whether a receive is outstanding. -/
def next (r : Receipt) (cut : Bool) : Event → Receipt
  | .bound .. => ⟨0, false⟩
  | .began cell => if cell.half = .receive then { r with pending := true } else r
  | .answered c => if r.pending then ⟨delivered c.outcome, false⟩ else r
  | .queued (.close ..) | .refused .. | .closed .. => r.lost
  -- the slot is forced free, and nobody writes down that the receive is over
  | .released => if cut then { r with pending := false } else r.lost
  | _ => r

end Receipt

/-- A receive is outstanding. -/
def receiveOut (h : List Event) : Bool := (outstanding h).any (·.half? = some .receive)

/-- What the record tells of a slot's receives. -/
def receipt : List Event → Receipt
  | [] => ⟨0, false⟩
  | e :: h => (receipt h).next (receiveOut h) e

/-- While no receive is under way, only a new one and a new socket change what is told. -/
theorem Receipt.next_of_not_pending {r : Receipt} (hpending : r.pending = false) (cut : Bool) {e : Event}
    (hbound : e.isBound = false) (hbegan : ∀ cell, e = .began cell → cell.half ≠ .receive) : r.next cut e = r := by
  have hlost : r.lost = r := by rw [lost, hpending]; rfl
  cases e with
  | bound => cases hbound
  | began cell => exact if_neg (hbegan cell rfl)
  | answered c => exact if_neg (by rw [hpending]; exact Bool.false_ne_true)
  | queued op => cases op <;> first | rfl | exact hlost
  | refused | closed => exact hlost
  | released =>
    show (if cut then { r with pending := false } else r.lost) = r
    rw [← hpending, hlost, ite_self]
  | _ => rfl

/-! ## Slots -/

/-- The slot has in mind what the record tells of its receives, and one is under way or is not. -/
structure Hears (i : Nat) (pending : Bool) (v : View) (s : Slot) : Prop where
  here : v.slot? = some s
  index : s.index = low32 i
  receipt : receipt v.history = ⟨s.receivedLength, pending⟩
  works : s.state.works .receive = pending

/-- There is such a slot. -/
def Heard (i : Nat) (pending : Bool) (v : View) : Prop := ∃ s, Hears i pending v s

/-- The slot's number is the one that its contexts name. -/
theorem index_of_small {i : Nat} {s : Slot} (hi : (Context.ofSlot i).slot = i) (hindex : s.index = low32 i) :
    s.index = i := by
  rw [Context.slot_ofSlot] at hi
  exact hindex.trans hi

namespace Hears

variable {i : Nat} {pending : Bool} {v : View} {s s' : Slot}

/-- What a slot has in mind of its receives does not hang on the rest of it. -/
theorem put (h : Hears i pending v s) (s' : Slot) (hindex : s'.index = s.index)
    (hlength : s'.receivedLength = s.receivedLength)
    (hworks : s'.state.works .receive = s.state.works .receive) : Hears i pending (v.put s') s' :=
  ⟨rfl, hindex.trans h.index, by rw [hlength]; exact h.receipt, hworks.trans h.works⟩

/-- An event that tells nothing of receives. -/
theorem log (h : Hears i pending v s) {e : Event} (he : ∀ (r : Receipt) cut, r.next cut e = r) :
    Hears i pending (v.log e) s :=
  ⟨h.here, h.index, (he _ _).trans h.receipt, h.works⟩

/-- An event while no receive is under way. -/
theorem aside (h : Hears i false v s) {e : Event} (hbound : e.isBound = false)
    (hbegan : ∀ cell, e = .began cell → cell.half ≠ .receive) : Hears i false (v.log e) s :=
  ⟨h.here, h.index, (Receipt.next_of_not_pending (congrArg Receipt.pending h.receipt) _ hbound hbegan).trans h.receipt,
    h.works⟩

theorem cut (h : Hears i false v s) (fd : Int) : Hears i false (v.cut i fd) s := by
  unfold View.cut
  split
  · exact h.aside rfl nofun
  · exact h

theorem wake (h : Hears i pending v s) (cell : CellName) (waker : Option Waker) :
    Hears i pending (v.wake cell waker) s := by
  cases waker with
  | none => exact h
  | some w => exact h.log fun _ _ => rfl

theorem command (h : Hears i pending v s) (c : Command) : Hears i pending (v.command c) s := { h with }

theorem setCell (h : Hears i pending v s) (c : Cell) (half : Half) :
    Hears i pending (v.put (Connection.setCell s c half)) (Connection.setCell s c half) := by
  cases half <;> exact h.put _ rfl rfl rfl

/-! ## The calls of a worker -/

/-- A step to a state that no receive goes to, from states where none is under way. -/
theorem advance (h : Hears i pending v s) {allowed : List SlotState} {next : SlotState}
    {Q : Except Error Unit → View → Prop}
    (hallowed : ∀ state ∈ allowed, state.works .receive = next.works .receive)
    (hok : ∀ s', s'.state = next → Hears i pending (v.put s') s' → Q (.ok ()) (v.put s'))
    (herr : ∀ e, Q (.error e) v) :
    Leads .any i (Run.stepSlot i (Slot.advance allowed next) : Run α (Except Error Unit)) v Q := by
  by_cases hmem : s.state ∈ allowed
  · exact Leads.advance_ok h.here hmem (hok _ rfl (h.put _ rfl rfl (hallowed _ hmem).symm))
  · exact Leads.advance_error h.here hmem (herr _)

theorem complete (h : Hears i pending v s) (half : Half) (o : Outcome) :
    Leads .any i (Run.completeCell ⟨i, half⟩ (Slot.completeHalf half o) : Run α Unit) v fun _ v' =>
      Heard i pending v' := by
  refine Leads.completeCell rfl h.here (fun _ _ => trivial) fun waker s' hdone => ?_
  obtain ⟨c, -, -, rfl⟩ := Slot.completeHalf_ok hdone
  exact ⟨_, (h.setCell c half).wake ⟨i, half⟩ waker⟩

theorem release (h : Hears i pending v s) :
    Leads .any i (Run.release i : Run α Unit) v fun _ v' => Heard i pending v' := by
  have hless : ∀ (leases : UInt8) (places : Nat), Heard i pending { v.put { s with leases } with places } :=
    fun leases places => ⟨{ s with leases }, { h.put { s with leases } rfl rfl rfl with }⟩
  exact Leads.release h.here (fun _ => trivial) (fun _ _ => hless _ _) (fun _ => hless _ _) fun _ => .inr (hless _ _)

theorem closeSlot (h : Hears i false v s) :
    Leads .any i (Run.closeSlot i : Run α Unit) v fun _ v' => Heard i false v' := by
  refine Leads.closeSlot h.here (fun hstate => ?_) fun _ => ⟨s, h⟩
  have hunbound : Hears i false (v.put s.unbound) s.unbound := h.put _ rfl rfl (by rw [hstate]; rfl)
  exact (hunbound.cut s.fd).release

/-- A close is queued, or made at once where the kernel does not take it. -/
theorem issueClose (h : Hears i false v s) (hi : (Context.ofSlot i).slot = i) :
    Leads .any i (Run.issueClose i : Run α Unit) v fun _ v' => Heard i false v' := by
  refine Leads.bind (Leads.slot?_some h.here ?_)
  show Leads _ i (Run.queue (.close (.ofSlot s.index) s.fd) >>= _) v _
  rw [index_of_small hi h.index]
  refine Leads.bind (Leads.queue hi (fun _ _ => Leads.pure ⟨s, ?_⟩) fun e => Leads.bind (Leads.say ?_))
  · exact { h.aside (e := .queued _) rfl nofun with }
  · exact (h.aside (e := .refused _ _) rfl nofun).closeSlot

theorem disconnect (h : Hears i false v s) (hi : (Context.ofSlot i).slot = i) :
    Leads .any i (Run.disconnect i : Run α Unit) v fun _ v' => Heard i false v' := by
  refine Leads.bind (h.advance (by decide) (fun s' _ h' => ?_) fun _ => ?_)
  · exact h'.issueClose hi
  · exact Leads.pure ⟨s, h⟩

theorem abandon (h : Hears i false v s) (hi : (Context.ofSlot i).slot = i) :
    Leads .any i (Run.abandon i : Run α Unit) v fun _ v' => Heard i false v' := by
  refine Leads.bind (h.advance (by decide) (fun s' _ h' => ?_) fun _ => ?_)
  · exact h'.issueClose hi
  · exact Leads.pure ⟨s, h⟩

/-! ## Operations that end -/

section Ending

variable {half : Half} {c : Completion} {o : Outcome}

/-- The slot after a receive was answered. -/
theorem answered (h : Hears i true v s) (hindex : s'.index = s.index)
    (hlength : s'.receivedLength = delivered c.outcome)
    (hworks : s'.state.works .receive = false) : Hears i false ((v.log (.answered c)).put s') s' where
  here := rfl
  index := hindex.trans h.index
  receipt := by
    show (SlotServer.receipt v.history).next _ (.answered c) = _
    rw [h.receipt, hlength]
    rfl
  works := hworks

/-- The slot after what was under way is over without an answer. -/
theorem lost (h : Hears i pending v s) {e : Event} (he : ∀ (r : Receipt) cut, r.next cut e = r.lost) (s' : Slot)
    (hindex : s'.index = s.index) (hlength : s'.receivedLength = if pending then 0 else s.receivedLength)
    (hworks : s'.state.works .receive = false) : Hears i false ((v.log e).put s') s' where
  here := rfl
  index := hindex.trans h.index
  receipt := by
    show (SlotServer.receipt v.history).next _ e = _
    rw [he, h.receipt, hlength]
    cases pending <;> rfl
  works := hworks

/-- The socket of an operation that ended badly is closed, and whoever waits is told. -/
theorem failed (h : Hears i false v s) (hi : (Context.ofSlot i).slot = i) (half : Half) (o : Outcome) :
    Leads .any i (do
      Run.issueClose i
      Run.completeCell ⟨i, half⟩ (Slot.completeHalf half o) : Run α Unit) v fun _ v' => Heard i false v' :=
  Leads.bind ((h.issueClose hi).mono fun _ _ ⟨_, h'⟩ => h'.complete half o)

/-- A connection without a handle is closed after its operation, and whoever waits is told. -/
theorem settled (h : Hears i false v s) (hi : (Context.ofSlot i).slot = i) (half : Half) (o : Outcome) :
    Leads .any i (do
      if !((← Run.slot? i).any (·.attached)) then Run.disconnect i
      Run.completeCell ⟨i, half⟩ (Slot.completeHalf half o) : Run α Unit) v fun _ v' => Heard i false v' := by
  refine Leads.bind (Leads.slot?_some h.here ?_)
  show Leads _ i (if (!s.attached) = true then _ else _ : Run α Unit) v _
  split
  · exact Leads.bind ((h.disconnect hi).mono fun _ _ ⟨_, h'⟩ => h'.complete half o)
  · exact h.complete half o

theorem onReceive (h : Hears i true v s) (hi : (Context.ofSlot i).slot = i) :
    Leads .any i (Run.onReceive i c.result : Run α Unit) (v.log (.answered c)) fun _ v' => Heard i false v' := by
  have hstate : s.state = Half.receive.working := Half.works_iff.1 h.works
  unfold Run.onReceive
  by_cases hresult : c.result ≤ 0
  · have hnone : delivered c.outcome = 0 := by
      unfold Completion.outcome
      split
      · rfl
      · rename_i hneg
        rw [Int32.le_antisymm hresult (Int32.not_lt.1 hneg)]
        rfl
    have hended : Hears i false ((v.log (.answered c)).put { s with state := .disconnecting, receivedLength := 0 })
        { s with state := .disconnecting, receivedLength := 0 } := h.answered rfl hnone.symm rfl
    rw [if_pos hresult]
    refine Leads.bind (Leads.stepSlot_some (s := s) h.here ?_)
    rw [Slot.abortReceive_ok hstate]
    dsimp only
    split
    · refine Leads.bind (Leads.errnoOf ?_ (.inr trivial))
      exact Leads.bind (Leads.say (Leads.bind (Leads.bump (hended.failed hi .receive _))))
    · exact Leads.bind (Leads.bump (hended.failed hi .receive _))
  · have hcount : delivered c.outcome = c.result.toInt.toNat := by
      rw [Completion.outcome, if_neg fun hneg => hresult (Int32.le_of_lt hneg)]
      rfl
    have hended : Hears i false
        ((v.log (.answered c)).put { s with state := .received, receivedLength := c.result.toInt.toNat })
        { s with state := .received, receivedLength := c.result.toInt.toNat } := h.answered rfl hcount.symm rfl
    rw [if_neg hresult]
    refine Leads.bind (Leads.stepSlot_some (s := s) h.here ?_)
    rw [Slot.finishReceive_ok hstate]
    exact Leads.bind (Leads.bump (Leads.bind (Leads.bump (hended.settled hi .receive _))))

/-- Counting a violation of protocol leaves every view as it is. -/
theorem still_violation (e : Error) : Still (Run.violation i e : Run α Unit) := .bind .say fun _ => .bump

theorem onSend (h : Hears i false v s) (hi : (Context.ofSlot i).slot = i) (result : Int32) :
    Leads .any i (Run.onSend i result : Run α Unit) v fun _ v' => Heard i false v' := by
  have hviolation : ∀ e, Leads .any i (Run.violation i e : Run α Unit) v fun _ v' => Heard i false v' :=
    fun e => Leads.still (still_violation e) fun _ => ⟨s, h⟩
  unfold Run.onSend
  split
  · refine Leads.bind (h.advance (by decide) (fun s' _ h' => ?_) hviolation)
    refine Leads.bind (Leads.errnoOf ?_ (.inr trivial))
    exact Leads.bind (Leads.say (Leads.bind (Leads.bump (h'.failed hi .send _))))
  · refine Leads.bind (h.advance (by decide) (fun s' _ h' => ?_) hviolation)
    exact Leads.bind (Leads.bump (Leads.bind (Leads.bump (h'.settled hi .send _))))

theorem onClose (h : Hears i false v s) (result : Int32) :
    Leads .any i (Run.onClose i result : Run α Unit) v fun _ v' => Heard i false v' := by
  have hsettle : Leads .any i (Run.settleClose i : Run α Unit) v fun _ v' => Heard i false v' := by
    refine Leads.bind (Leads.stepSlot_some h.here ?_)
    by_cases hstate : s.state = .disconnecting
    · rw [Slot.finishDisconnect_ok hstate]
      have hunbound : Hears i false (v.put s.unbound) s.unbound := h.put _ rfl rfl (by rw [hstate]; rfl)
      exact Leads.bind (Leads.bump (Leads.bind (Leads.say hunbound.release)))
    · rw [Slot.finishDisconnect, Slot.transition_of_not_mem (by simpa using hstate), View.put_self h.here]
      exact Leads.still (still_violation _) fun _ => ⟨s, h⟩
  rw [Run.onClose_eq]
  split
  · exact Leads.bind (Leads.errnoOf (Leads.bind (Leads.say hsettle)) (.inr trivial))
  · exact hsettle

/-- A completion is taken to its slot. -/
theorem route (h : Hears i pending v s) (hi : (Context.ofSlot i).slot = i) (hslot : c.ctx.slot = i) :
    Leads .any i (Run.route c : Run α Unit) v fun _ v' => Heard i false v' := by
  subst hslot
  refine Leads.bind (Leads.note (fun _ => rfl) (Leads.bind (Leads.slot?_some (s := s) h.here ?_)))
  dsimp only
  have hworks := h.works
  cases hstate : s.state with
  | receiving =>
    rw [hstate] at hworks
    obtain rfl : true = pending := hworks
    exact h.onReceive hi
  | sending =>
    rw [hstate] at hworks
    obtain rfl : false = pending := hworks
    have hlog : Hears c.ctx.slot false (v.log (.answered c)) s := h.aside rfl nofun
    exact hlog.onSend hi _
  | disconnecting =>
    rw [hstate] at hworks
    obtain rfl : false = pending := hworks
    have hlog : Hears c.ctx.slot false (v.log (.answered c)) s := h.aside rfl nofun
    exact hlog.onClose _
  | _ =>
    rw [hstate] at hworks
    obtain rfl : false = pending := hworks
    exact Leads.bind (Leads.say (Leads.bump ⟨s, h.aside rfl nofun⟩))

end Ending

/-! ## Commands -/

/-- A receive is under way where the half is that of receives. -/
theorem pending_eq (h : Hears i pending v s) {half : Half} (hstate : s.state = half.working) :
    pending = decide (half = .receive) := by
  rw [← h.works, hstate, Half.works_working]
  cases half <;> rfl

/-- The operation of a half has failed. -/
theorem aborted (h : Hears i pending v s) {half : Half} (hstate : s.state = half.working) :
    ∃ n, s.abortHalf half = (.ok (), { s with state := .disconnecting, receivedLength := n }) ∧
      n = if pending then 0 else s.receivedLength := by
  rw [h.pending_eq hstate]
  cases half with
  | receive => exact ⟨0, Slot.abortReceive_ok hstate 0, rfl⟩
  | send => exact ⟨s.receivedLength, Slot.abortSend_ok hstate, rfl⟩

/-- The operation of a half is queued. -/
theorem issueHalf (h : Hears i pending v s) (hi : (Context.ofSlot i).slot = i) {half : Half}
    (hstate : s.state = half.working) :
    Leads .any i (Run.issueHalf half i : Run α Unit) v fun _ v' => ∃ pending, Heard i pending v' := by
  obtain ⟨n, habort, hn⟩ := h.aborted hstate
  refine Leads.bind (Leads.slot?_some h.here ?_)
  refine Leads.bind (Leads.placeOf ?_ (.inr ⟨trivial, trivial⟩))
  refine Leads.bind (Leads.queue (by rw [Slot.ctx_opAt]; exact hi) (fun _ _ => Leads.pure ⟨pending, s, ?_⟩) fun e => ?_)
  · exact { h.log (e := .queued _) fun _ _ => by cases half <;> rfl with }
  · refine Leads.bind (Leads.bump (Leads.bind (Leads.stepSlot_some (s := s) h.here ?_)))
    rw [habort]
    have hlost := h.lost (fun _ _ => rfl : ∀ (r : Receipt) cut, r.next cut (.refused (s.halfOp half i) e) = r.lost)
      { s with state := .disconnecting, receivedLength := n } rfl hn rfl
    exact (hlost.failed hi half _).mono fun _ _ h' => ⟨false, h'⟩

/-- The operation of a half is failed after the loop's end, and the socket is closed at once. -/
theorem failHalf (h : Hears i pending v s) {half : Half} (hstate : s.state = half.working) (hfd : 0 ≤ s.fd) :
    Leads .any i (Run.failHalf half i : Run α Unit) v fun _ v' => Heard i false v' := by
  obtain ⟨n, habort, hn⟩ := h.aborted hstate
  refine Leads.bind (Leads.stepSlot_some h.here ?_)
  rw [habort]
  refine Leads.bind (Leads.closeSlot (s := { s with state := .disconnecting, receivedLength := n }) rfl (fun _ => ?_)
    fun hne => absurd rfl hne)
  rw [View.cut, if_pos hfd]
  have hlost := h.lost (fun _ _ => rfl : ∀ (r : Receipt) cut, r.next cut (.closed (some i) s.fd) = r.lost)
    { s.unbound with receivedLength := n } rfl hn rfl
  refine hlost.release.mono ?_
  rintro _ v' ⟨s', h'⟩
  exact h'.complete half _

/-! ## Handles and acceptors -/

/-- An operation begins. -/
theorem begin (h : Hears i false v s) (half : Half) (length : Nat) :
    Hears i (decide (half = .receive)) (v.begin i half (s.begin length half)) (s.begin length half) where
  here := rfl
  index := (s.index_begin length half).trans h.index
  receipt := by
    show (SlotServer.receipt v.history).next _ (.began ⟨i, half⟩) = _
    rw [h.receipt]
    cases half <;> rfl
  works := by
    rw [Slot.state_begin, Half.works_working]
    cases half <;> rfl

/-- Where an operation may begin, no receive is under way. -/
theorem not_pending (h : Hears i pending v s) (hidle : s.state.isIdle = true) : pending = false := by
  rw [← h.works]
  exact SlotState.works_of_isIdle hidle .receive

theorem poll (h : Hears i pending v s) (half : Half) (waker : Waker) :
    Leads .any i (Deed.run i (.poll half waker) : Run α Unit) v fun _ v' => Heard i pending v' := by
  refine Leads.bind (Leads.bind (Leads.slot?_some h.here ?_))
  dsimp only
  have hcell := h.setCell ((Connection.cell s half).poll waker).2 half
  cases hpoll : (Connection.cell s half).poll waker with
  | mk answer c =>
    rw [hpoll] at hcell
    refine Leads.bind (Leads.setSlot (by rw [h.here]; rfl) ?_)
    cases answer with
    | pending => exact Leads.bind (Leads.note (fun _ => rfl) (Leads.pure (Leads.pure ⟨_, hcell.log fun _ _ => rfl⟩)))
    | ready o => exact Leads.pure (Leads.pure ⟨_, hcell⟩)

/-- A handle goes away, and an idle connection with it. -/
theorem drop (h : Hears i pending v s) (hlive : s.state.isIdle = true → v.exited = false) :
    Leads .any i (Deed.run i .drop : Run α Unit) v fun _ v' => Heard i pending v' := by
  refine Leads.bind (Leads.letGo (Leads.bind (Leads.slot?_some (s := s) h.here (Leads.bind (Leads.modifySlot ?_)))))
  rw [show ({ v with handles := v.handles - 1 } : View).slot? = some s from h.here]
  have hdetached : Hears i pending (({ v with handles := v.handles - 1 } : View).put s.detach) s.detach :=
    { h.put s.detach rfl rfl rfl with }
  refine Leads.bind (Leads.stepSlot_some (s := s.detach) rfl ?_)
  by_cases hmem : s.state ∈ [SlotState.accepted, .received, .sent]
  · have hidle := SlotState.isIdle_of_mem hmem
    obtain rfl := h.not_pending hidle
    rw [Slot.startDisconnect, Slot.advance_of_mem (s := s.detach) hmem]
    refine Leads.bind (Leads.submit rfl (hlive hidle) (.inr trivial) ?_)
    have hleft := hdetached.put { s.detach with state := .disconnecting } rfl rfl
      (SlotState.works_of_isIdle hidle .receive).symm
    exact (hleft.command (.disconnect i)).release
  · rw [Slot.startDisconnect, Slot.advance_of_not_mem (s := s.detach) hmem]
    exact hdetached.release

/-- Every call of a handle. -/
theorem deed (h : Hears i pending v s) (hlive : s.state.isIdle = true → v.exited = false) (d : Deed) :
    Leads .any i (d.run i : Run α Unit) v fun _ v' => ∃ pending, Heard i pending v' := by
  have hbegins : ∀ (half : Half) (length : Nat), s.state ∈ Slot.startsFrom half → v.exited = false ∧
      ∃ pending, Heard i pending (v.begin i half (s.begin length half)) := by
    intro half length hstart
    have hidle := Slot.isIdle_of_startsFrom hstart
    obtain rfl := h.not_pending hidle
    exact ⟨hlive hidle, _, _, h.begin half length⟩
  have hsame : ∃ pending, Heard i pending v := ⟨pending, s, h⟩
  cases d with
  | receive =>
    refine Leads.bind (Leads.receive h.here (fun hstart => ?_) fun _ => Leads.pure hsame)
    obtain ⟨hexited, hafter⟩ := hbegins .receive 0 hstart
    exact ⟨hexited, .inr trivial, Leads.pure hafter⟩
  | send length =>
    refine Leads.bind (Leads.send h.here (fun _ hstart => ?_) fun _ _ => Leads.pure hsame)
    obtain ⟨hexited, hafter⟩ := hbegins .send length hstart
    exact ⟨hexited, .inr trivial, Leads.pure hafter⟩
  | poll half waker => exact (h.poll half waker).mono fun _ _ h' => ⟨pending, h'⟩
  | readReceived => exact Leads.bind (Leads.received h.here (fun _ => Leads.pure hsame) (.inr ⟨trivial, trivial⟩))
  | readSend => exact Leads.bind (Leads.sendBuffer h.here (fun _ => Leads.pure hsame) (.inr ⟨trivial, trivial⟩))
  | fill data => exact Leads.bind (Leads.fill h.here (fun _ => Leads.pure hsame) (.inr ⟨trivial, trivial⟩))
  | drop => exact (h.drop hlive).mono fun _ _ h' => ⟨pending, h'⟩

/-- A socket that nobody takes over is closed at once. -/
theorem failAccept (h : Hears i false v s) :
    Leads .any i (Run.failCommand (.accept i) : Run α Unit) v fun _ v' => Heard i false v' := by
  refine Leads.bind (Leads.say (Leads.bind (h.advance (by decide) (fun s' _ h' => ?_) fun _ => ?_)))
  · exact h'.closeSlot
  · exact Leads.pure ⟨s, h⟩

/-- A socket is bound to a slot that was taken out of the free ones. -/
theorem startAccept (h : Hears i pending v s) {R : Rely} (hfaults : ∀ fault, R.faults fault)
    (hquiet : v.exited = true → v.commands = [] ∧ ∀ j v', R.others j v' → v'.commands = []) (fd : Int)
    (peer : Option Net.SocketAddress) :
    Leads R i (Run.startAccept i fd peer : Run α (Except Error Unit)) v fun _ v' => ∃ pending, Heard i pending v' := by
  refine Leads.bind (Leads.slot?_some h.here (Leads.bind (Leads.stepSlot_some h.here ?_)))
  by_cases hstate : s.state = .disconnected
  · rw [Slot.startAccept_ok hstate]
    have hbound : Hears i false ((v.put (s.withSocket fd peer)).log (.bound i fd)) (s.withSocket fd peer) :=
      ⟨rfl, h.index, rfl, rfl⟩
    refine Leads.bind (Leads.note (fun _ => rfl) (Leads.bind ?_))
    cases hexited : v.exited with
    | false =>
      exact Leads.submit rfl hexited (.inr (hfaults _)) (Leads.pure ⟨false, s.withSocket fd peer, { hbound with }⟩)
    | true =>
      obtain ⟨hcommands, hothers⟩ := hquiet hexited
      refine Leads.submit_exited rfl hexited hothers hcommands ?_
      exact (hbound.failAccept.of_any hfaults).mono fun _ _ h' => Leads.pure ⟨false, h'⟩
  · rw [Slot.startAccept_error hstate, View.put_self h.here]
    have hplaces : ∀ places, ∃ pending, Heard i pending { v with places } := fun _ => ⟨pending, s, { h with }⟩
    refine Leads.bind (Leads.bind (Leads.pushFree ?_ (.inr ?_)))
    · exact Leads.pure (Leads.pure (hplaces _))
    · exact Leads.pure (Leads.pure (hplaces _))

/-- A connection is drained. -/
theorem drainSlot (h : Hears i pending v s) (hi : s.state.isIdle = true → (Context.ofSlot i).slot = i) :
    Leads .any i (Run.drainSlot i : Run α Unit) v fun _ v' => ∃ pending, Heard i pending v' := by
  have hidle : s.state.isIdle = true → Leads .any i (Run.disconnect i : Run α Unit) v
      fun _ v' => ∃ pending, Heard i pending v' := by
    intro hidle
    obtain rfl := h.not_pending hidle
    exact (h.disconnect (hi hidle)).mono fun _ _ h' => ⟨false, h'⟩
  refine Leads.bind (Leads.slot?_some h.here ?_)
  dsimp only
  cases hstate : s.state with
  | accepted | received | sent => exact hidle (by rw [hstate]; rfl)
  | receiving | sending =>
    exact Leads.bind (Leads.note (fun _ => rfl) (Leads.modifyKernel (fun _ => rfl) ⟨pending, s, h.log fun _ _ => rfl⟩))
  | _ => exact Leads.pure ⟨pending, s, h⟩

/-! ## The dispatch loop -/

variable {serve : Run.Serve α}

/-- What becomes of the connection is up to its handler. -/
theorem takeOver (hserve : Modest serve) (h : Hears i false v s) (hexited : v.exited = false)
    (peer : Option Net.SocketAddress) :
    Leads .any i (Run.takeOver serve i peer : Run α Unit) v fun _ v' => ∃ pending, Heard i pending v' := by
  refine Leads.bind (h.advance (by decide) (fun s' _ h' => ?_) fun e => ?_)
  · refine Leads.bind (Leads.bump (Leads.bind (Leads.say (Leads.bind (Leads.bind (Leads.modifySlot ?_))))))
    refine Leads.takeHold (Leads.bind (Leads.note (fun _ => rfl) (Leads.bind ?_)))
    have hattached : Hears i false (View.log { v with slot? := some s'.attach, handles := v.handles + 1 } (.served i))
        s'.attach := { (h'.put s'.attach rfl rfl rfl).log (e := .served i) fun _ _ => rfl with }
    have hkeeps : ∀ (d : Deed) (v' : View), (∃ pending, Heard i pending v') ∧ v'.exited = false → 0 < v'.handles →
        Leads .any i (d.run i : Run α Unit) v' fun _ v'' => (∃ pending, Heard i pending v'') ∧ v''.exited = false := by
      rintro d v' ⟨⟨_, _, h'⟩, hexited'⟩ -
      exact (h'.deed (fun _ => hexited') d).fixed.mono fun _ _ hdone => ⟨hdone.1, hdone.2.1.trans hexited'⟩
    refine Leads.serve hserve hkeeps ⟨⟨false, _, hattached⟩, hexited⟩ (Nat.succ_pos _) fun answer v' hdone => ?_
    cases answer with
    | ok _ => exact Leads.pure hdone.1
    | error e => exact Leads.bind (Leads.say (Leads.bump hdone.1))
  · exact Leads.still (still_violation e) fun _ => ⟨false, s, h⟩

theorem onAccept (hserve : Modest serve) (h : Hears i false v s) (hi : (Context.ofSlot i).slot = i)
    (hexited : v.exited = false) :
    Leads .any i (Run.onAccept serve i : Run α Unit) v fun _ v' => ∃ pending, Heard i pending v' := by
  -- a socket that is given up
  have habandon : ∀ v', Hears i false v' s → Leads .any i (do
      Run.abandon i
      return () : Run α Unit) v' fun _ v'' => ∃ pending, Heard i pending v'' := fun _ h' =>
    Leads.bind ((h'.abandon hi).mono fun _ _ hdone => Leads.pure ⟨false, hdone⟩)
  refine Leads.bind (Leads.slot?_some h.here (Leads.bind (Leads.worker fun w _ _ => ?_)))
  dsimp only
  split
  · exact habandon v h
  split
  · have hlog : Hears i false (v.log (.hastened i s.fd)) s := h.log fun _ _ => rfl
    refine Leads.bind (Leads.setNoDelay fun answer => ?_)
    cases answer with
    | error e => exact Leads.bind (Leads.say (Leads.bind (Leads.bump (habandon _ hlog))))
    | ok _ => exact hlog.takeOver hserve hexited s.peer
  · exact h.takeOver hserve hexited s.peer

end Hears

/-- The one command that is due for a slot is that of its state. -/
theorem Stage.of_command {i : Nat} {s : Slot} {p : Phase} {c : Command} (h : Stage i s p [c]) :
    c = .accept i ∧ s.state = .accepting ∨ (∃ half : Half, c = half.command i ∧ s.state = half.working) ∨
      c = .disconnect i ∧ s.state = .disconnecting := by
  have hhalf : ∀ half : Half, s.state = half.working → Underway i s half p [c] → c = half.command i := by
    rintro half - (⟨-, hdue⟩ | ⟨-, hdue⟩)
    · exact List.head_eq_of_cons_eq hdue
    · cases hdue
  rw [Stage] at h
  cases hstate : s.state with
  | accepting =>
    rw [hstate] at h
    exact .inl ⟨List.head_eq_of_cons_eq h.2, rfl⟩
  | receiving =>
    rw [hstate] at h
    exact .inr (.inl ⟨.receive, hhalf .receive hstate h, rfl⟩)
  | sending =>
    rw [hstate] at h
    exact .inr (.inl ⟨.send, hhalf .send hstate h, rfl⟩)
  | disconnecting =>
    rw [hstate] at h
    rcases h with ⟨-, hdue⟩ | ⟨-, hdue⟩
    · exact .inr (.inr ⟨List.head_eq_of_cons_eq hdue, rfl⟩)
    · cases hdue
  | disconnected =>
    rw [hstate] at h
    cases h.2.1
  | _ =>
    rw [hstate] at h
    cases h.2

namespace Hears

variable {i : Nat} {pending : Bool} {v : View} {s : Slot} {serve : Run.Serve α} {c : Command}

/-- A command that was taken out of the inbox is carried out. -/
theorem execute (hserve : Modest serve) (h : Hears i pending v s) (hsound : Sound i s.state.works [c] v s)
    (hexited : v.exited = false) :
    Leads .any i (Run.execute serve c : Run α Unit) v fun _ v' => ∃ pending, Heard i pending v' := by
  obtain ⟨p, -, hstage⟩ := hsound.stage
  rcases hstage.of_command with ⟨rfl, hstate⟩ | ⟨half, rfl, hstate⟩ | ⟨rfl, hstate⟩
  · obtain rfl : false = pending := by rw [← h.works, hstate]; rfl
    exact h.onAccept hserve (hsound.slot_ofSlot (by rw [hstate]; decide)) hexited
  · rw [Run.execute_half]
    exact h.issueHalf (hsound.slot_ofSlot (by rw [hstate]; exact half.working_ne_disconnected)) hstate
  · obtain rfl : false = pending := by rw [← h.works, hstate]; rfl
    exact (h.issueClose (hsound.slot_ofSlot (by rw [hstate]; decide))).mono fun _ _ h' => ⟨false, h'⟩

/-- A command that is due after the loop's end is failed. -/
theorem failCommand (h : Hears i pending v s) (hsound : Sound i s.state.works [c] v s) :
    Leads .any i (Run.failCommand c : Run α Unit) v fun _ v' => Heard i false v' := by
  obtain ⟨p, -, hstage⟩ := hsound.stage
  rcases hstage.of_command with ⟨rfl, hstate⟩ | ⟨half, rfl, hstate⟩ | ⟨rfl, hstate⟩
  · obtain rfl : false = pending := by rw [← h.works, hstate]; rfl
    exact h.failAccept
  · rw [Run.failCommand_half]
    exact Leads.bind (Leads.say (h.failHalf hstate (hsound.fd (by rw [hstate]; exact half.working_ne_disconnected))))
  · obtain rfl : false = pending := by rw [← h.works, hstate]; rfl
    exact Leads.bind (Leads.say h.closeSlot)

/-- A slot is forced free, once the kernel's side was let go. What it has in mind stays, and a receive is outstanding
where one is under way. -/
theorem forceSlot (h : Hears i pending v s) (hcalm : Calm i v s) (hcommands : v.commands = []) :
    Leads .any i (Run.forceSlot i : Run α Bool) (v.log .released) fun _ v' => Heard i false v' := by
  have hout : pending = true → receiveOut v.history = true := by
    rintro rfl
    have hstate : s.state = Half.receive.working := Half.works_iff.1 h.works
    obtain ⟨p, hp, hstage⟩ := hcalm.stage
    rcases (stage_working hstate).1 hstage with ⟨-, hdue⟩ | ⟨rfl, -⟩
    · rw [hcommands] at hdue
      cases hdue
    · rw [receiveOut, outstanding_of_phase hp]
      rfl
  have hreleased : SlotServer.receipt (.released :: v.history) = ⟨s.receivedLength, false⟩ := by
    show (SlotServer.receipt v.history).next _ .released = _
    rw [h.receipt]
    cases pending with
    | false => exact Receipt.next_of_not_pending rfl _ rfl nofun
    | true => exact if_pos (hout rfl)
  have hunbound : Hears i false ((v.log .released).put s.unbound) s.unbound := ⟨rfl, h.index, hreleased, rfl⟩
  have hsettle : s.state ≠ .disconnected → ∀ {v'}, Heard i false v' →
      Leads .any i (Run.settleForce i s : Run α Bool) v' fun _ v'' => Heard i false v'' := by
    rintro hlive v' ⟨s', h'⟩
    have hindex : s.index = i := hcalm.index_eq hlive
    refine Leads.settleForce (fun _ => ?_) fun _ => ?_
    · rw [hindex]
      exact (h'.cut s.fd).release
    · rw [hindex]
      exact h'.release
  refine Leads.forceSlot (v := v.log .released) h.here (fun hstate => ?_) (fun half hstate => ?_) fun hlive _ => ?_
  · exact ⟨s, h.here, h.index, hreleased, by rw [hstate]; rfl⟩
  · exact (hunbound.complete half _).mono fun _ _ h' =>
      hsettle (by rw [hstate]; exact half.working_ne_disconnected) h'
  · exact hsettle hlive ⟨_, hunbound⟩

end Hears

/-! ## All slots -/

/-- If there is such a slot, it has in mind what the record tells of its receives. -/
def Aware (i : Nat) (v : View) : Prop := v.slot?.isSome → ∃ pending, Heard i pending v

namespace Aware

variable {i : Nat} {v : View}

theorem hears (h : Aware i v) {s : Slot} (hs : v.slot? = some s) : ∃ pending, Hears i pending v s := by
  obtain ⟨pending, s', h'⟩ := h (by rw [hs]; rfl)
  obtain rfl := Option.some.inj (hs.symm.trans h'.here)
  exact ⟨pending, h'⟩

/-- The same slot with the same record. -/
theorem congr (h : Aware i v) {v' : View} (hslot : v'.slot? = v.slot?) (hhistory : v'.history = v.history) :
    Aware i v' := by
  intro hsome
  obtain ⟨pending, s, h'⟩ := h (hslot ▸ hsome)
  exact ⟨pending, s, hslot.trans h'.here, h'.index, by rw [hhistory]; exact h'.receipt, h'.works⟩

/-- What is known of a program, and that it keeps what a slot has in mind. -/
theorem beside {R S T : Rely} {x : Run α β} {Q : β → View → Prop} (hx : Leads R i x v Q)
    (hheard : ∀ s, v.slot? = some s → Leads S i x v fun _ v' => ∃ pending, Heard i pending v')
    (hothers : ∀ j v', T.others j v' → R.others j v' ∧ S.others j v')
    (hfaults : ∀ fault, R.faults fault → T.faults fault) : Leads T i x v fun b v' => Q b v' ∧ Aware i v' := by
  cases hs : v.slot? with
  | none =>
    have hrely : ∀ j v', T.others j v' → R.others j v' ∧ R.others j v' := fun j v' hv' =>
      ⟨(hothers j v' hv').1, (hothers j v' hv').1⟩
    refine (hx.and hx.present hrely hfaults).mono fun _ v' ⟨hq, _, hpresent⟩ => ⟨hq, fun hsome => ?_⟩
    rw [hpresent, hs] at hsome
    cases hsome
  | some s => exact (hx.and (hheard s hs) hothers hfaults).mono fun _ _ ⟨hq, hafter⟩ => ⟨hq, fun _ => hafter⟩

end Aware

/-- A slot at rest that is there is calm. -/
theorem Resting.calm {i : Nat} {v : View} {s : Slot} (h : Resting i v) (hs : v.slot? = some s) :
    Calm i v s ∧ (v.exited = true → s.state = .disconnected) := by
  rcases h with ⟨s', hcalm, hover⟩ | habsent
  · obtain rfl := Option.some.inj (hs.symm.trans hcalm.here)
    exact ⟨hcalm, hover⟩
  · rw [habsent.slot] at hs
    cases hs

/-- Every command that is carried out leaves every slot at rest, with what the record tells in mind. -/
theorem executeUpTo_aware {serve : Run.Serve α} (hserve : Modest serve) (n : Nat) {m : Machine α}
    (h : m.All (fun i v => Resting i v ∧ Aware i v) []) (hexited : m.worker.exited = false) :
    Holds (fun fault => fault ≠ .completedTwice) (Run.executeUpTo serve n : Run α Nat) m fun _ m' =>
      m'.All (fun i v => Resting i v ∧ Aware i v) [] := by
  induction n generalizing m with
  | zero => exact Holds.pure h
  | succ n ih =>
    refine Holds.bind (Holds.pop (fun _ => Holds.pure h) fun c inbox hinbox => Holds.bind ?_)
    obtain ⟨rest, hcommands, hslot, hframe⟩ := Machine.view_popped [] hinbox
    rcases (h c.slot).1 with ⟨s, hcalm, -⟩ | habsent
    case inr =>
      rw [habsent.commands] at hcommands
      cases hcommands
    obtain ⟨rfl, hsound⟩ := hcalm.popped hcommands
    obtain ⟨pending, hhears⟩ := (h c.slot).2.hears hcalm.here
    have hexecuted := (hsound.execute (R := ⟨fun _ _ => True, fun fault => fault ≠ .completedTwice⟩) hserve
      hcalm.unended rfl hexited).fixed
    have hboth : Leads ⟨fun _ _ => True, fun fault => fault ≠ .completedTwice⟩ c.slot
        (Run.execute serve c : Run α Unit) { m.view [] c.slot with commands := [] } _ :=
      Aware.beside (S := .any) hexecuted (fun s' hs' => by
        obtain rfl := Option.some.inj (hcalm.here.symm.trans hs')
        exact Hears.execute hserve { hhears with } hsound hexited) (fun _ _ _ => ⟨trivial, trivial⟩) fun _ => id
    refine Holds.lead [] (hslot ▸ hboth) (fun _ _ => trivial) fun _ m' ⟨⟨hrest, hsame, _⟩, haware⟩ hframe' => ?_
    refine Holds.bind ((ih (fun j => ?_) (hsame.trans hexited)).mono fun _ _ h' => Holds.pure h')
    by_cases hj : j = c.slot
    · rw [hj]
      exact ⟨hrest, haware⟩
    · rw [hframe' j hj, hframe j hj]
      exact h j

/-- Slots over an honest kernel, and what they have in mind of their receives. -/
def heard {serve : Run.Serve α} (hserve : Modest serve) : Regime serve where
  rest i v := Resting i v ∧ Aware i v
  busy i v := (Resting i v ∧ v.exited = false) ∧ Aware i v
  ebb i v := Ebbing i v ∧ Aware i v
  faults fault := fault ≠ .completedTwice
  startAccept {i v fd peer} h hplaces hfd := by
    let S : Rely := ⟨fun _ v' => v.exited = true → v'.commands = [], fun _ => True⟩
    refine Aware.beside (S := S) ((honest hserve).startAccept h.1 hplaces hfd) (fun s hs => ?_)
      (fun j v' hv' => ⟨⟨hv'.1.1, hv'.2⟩, fun he => hv'.1.1.commands_nil (hv'.2.trans he)⟩) fun _ => id
    have haware : Aware i { v with places := v.places - 1 } := h.2.congr rfl rfl
    obtain ⟨pending, hhears⟩ := haware.hears hs
    exact hhears.startAccept (R := S) (fun _ => trivial)
      (fun he => ⟨h.1.commands_nil he, fun _ _ hv' => hv' he⟩) fd peer
  deed {i v} d h hheld := by
    refine Aware.beside (S := .any) ((honest hserve).deed d h.1 hheld) (fun s hs => ?_)
      (fun _ _ hv' => ⟨⟨hv'.1.1, hv'.2⟩, trivial⟩) fun _ => id
    obtain ⟨pending, hhears⟩ := h.2.hears hs
    exact hhears.deed (fun hidle => Calm.exited_of_live (h.1.calm hs).2 (SlotState.ne_disconnected_of_isIdle hidle)) d
  drainSlot {i v} h hexited := by
    refine Aware.beside (S := .any) ((honest hserve).drainSlot h.1 hexited) (fun s hs => ?_)
      (fun _ _ hv' => ⟨⟨hv'.1.1, hv'.2⟩, trivial⟩) fun _ => id
    obtain ⟨pending, hhears⟩ := h.2.hears hs
    exact hhears.drainSlot fun hidle => (h.1.calm hs).1.slot_ofSlot (SlotState.ne_disconnected_of_isIdle hidle)
  work h hexited := ⟨⟨h.1, hexited⟩, h.2⟩
  route {i v c rest} h hexited hc hslot := by
    refine Aware.beside (S := .any) ((honest hserve).route h.1 hexited hc hslot) (fun s hs => ?_)
      (fun _ _ hv' => ⟨hv'.1, trivial⟩) fun _ => id
    have haware : Aware i { v with answers := rest } := h.2.congr rfl rfl
    obtain ⟨pending, hhears⟩ := haware.hears hs
    have hi : (Context.ofSlot i).slot = i := by
      rw [← hslot, Context.slot_ofSlot, Context.slot, Nat.mod_mod]
    exact (hhears.route hi hslot).mono fun _ _ h' => ⟨false, h'⟩
  drainInbox h hexited :=
    Holds.bind (Holds.worker (executeUpTo_aware hserve _ (fun j => ⟨(h j).1.1, (h j).2⟩) hexited))
  exit h hexited := ⟨(honest hserve).exit h.1 hexited, h.2.congr rfl rfl⟩
  failCommand {i v c rest} h hexited hc hslot := by
    refine (Aware.beside (S := .any) (T := ⟨fun i v => Ebbing i v ∧ Aware i v, fun fault => fault ≠ .completedTwice⟩)
      ((honest hserve).failCommand h.1 hexited hc hslot) (fun s hs => ?_) (fun _ _ hv' => ⟨hv'.1, trivial⟩)
      fun _ => id).mono fun _ _ ⟨⟨hebbing, hsame⟩, haware⟩ => ⟨⟨hebbing, haware⟩, hsame⟩
    rcases h.1 with ⟨s', hcalm⟩ | habsent
    · obtain ⟨rfl, hsound⟩ := hcalm.popped hc
      have haware : Aware i { v with commands := [] } := h.2.congr rfl rfl
      obtain ⟨pending, hhears⟩ := haware.hears hcalm.here
      exact (hhears.failCommand hsound).mono fun _ _ h' => ⟨false, h'⟩
    · rw [habsent.commands] at hc
      cases hc
  forceSlot {i v} h hexited hcommands hsome := by
    refine Aware.beside (S := .any) ((honest hserve).forceSlot h.1 hexited hcommands hsome) (fun s hs => ?_)
      (fun j v' hv' => ⟨hv'.imp And.left fun ⟨w, hw, hlog⟩ => ⟨w, hw.1, hlog⟩, trivial⟩) fun _ => id
    rcases h.1 with ⟨s', hcalm⟩ | habsent
    · obtain ⟨pending, hhears⟩ := h.2.hears hcalm.here
      exact (hhears.forceSlot hcalm hcommands).mono fun _ _ h' => ⟨false, h'⟩
    · rw [habsent.slot] at hsome
      cases hsome
  absent {i v} h hexited hcommands hnone := by
    refine ⟨(honest hserve).absent h.1 hexited hcommands hnone, fun hsome => ?_⟩
    rw [show (v.log .released).slot? = none from hnone] at hsome
    cases hsome

namespace Aware

variable {serve : Run.Serve α} {m m' : Machine α}

/-- In a worker that was just built there is nothing to be read. -/
theorem of_fresh (h : m.Fresh) : m.All Aware [] := by
  intro i hsome
  obtain ⟨s, hs⟩ := Option.isSome_iff_exists.1 hsome
  have hblank := (h.new.slots i s hs).eq
  refine ⟨false, s, hs, by rw [hblank], ?_, by rw [hblank]; rfl⟩
  rw [h.view, hblank]
  rfl

/-- Whatever a worker is made to do leaves every slot at rest, with what the record tells in mind. -/
theorem move (hserve : Modest serve) (h : m.All (fun i v => Resting i v ∧ Aware i v) []) {move : Move}
    (hallowed : move.Allowed m) :
    Holds (fun fault => fault ≠ .completedTwice) (move.run serve) m fun _ m' =>
      m'.All (fun i v => Resting i v ∧ Aware i v) [] := by
  cases move with
  | drain => exact (((heard hserve).beginDrain h hallowed).mono fun _ _ h' => h'.1).orLate nofun
  | take =>
    exact ((heard hserve).batch 1 (fun j => ⟨⟨(h j).1, hallowed⟩, (h j).2⟩) hallowed).mono fun _ _ h' j =>
      ⟨(h'.1 j).1.1, (h'.1 j).2⟩
  | command => exact Holds.bind ((executeUpTo_aware hserve 1 h hallowed).mono fun _ _ h' => Holds.pure h')
  | _ => exact ((heard hserve).move h rfl hallowed).orLate nofun

theorem step (hserve : Modest serve) (h : m.All (fun i v => Resting i v ∧ Aware i v) [])
    (hstep : HonestStep serve m m') : m'.All (fun i v => Resting i v ∧ Aware i v) [] := by
  have hrest := Resting.step hserve (fun i => (h i).1) hstep
  cases hstep with
  | move move hallowed hrun => exact (Aware.move hserve h hallowed).of_ok hrun
  | answer => exact fun i => ⟨hrest i, (h i).2.congr rfl rfl⟩
  | around => exact fun i => ⟨hrest i, (h i).2.congr rfl rfl⟩

end Aware

/-- Wherever a worker over an honest kernel comes to, every slot has in mind what the record tells of its receives. -/
theorem HonestRun.heard {serve : Run.Serve α} {m : Machine α} {i : Nat} {s : Slot} (hserve : Modest serve)
    (h : HonestRun serve m) (hs : m.worker.slots[i]? = some s) :
    receipt (m.history i) = ⟨s.receivedLength, s.state.works .receive⟩ := by
  have hall : m.All (fun i v => Resting i v ∧ Aware i v) [] :=
    Reached.keeps h (fun _ hfresh i => ⟨Resting.of_fresh hfresh i, Aware.of_fresh hfresh i⟩) fun _ _ =>
      Aware.step hserve
  obtain ⟨pending, hhears⟩ := (hall i).2.hears hs
  rw [hhears.works]
  exact hhears.receipt

end SlotServer
