import SlotServer.Proofs.Calls
import SlotServer.Proofs.Halves
import SlotServer.Proofs.Phases

/-!
# Slots under an honest kernel

While every completion answers one operation, the state of a slot, what is due for it, its two cells and what the record
tells of it stay together.

- `Stage`: what a slot's state says of the phase of its record and of the command that is due;
- `Told.Waits`, `Told.Tells`: a cell before and after its operation has ended;
- `Sound`: all of this at once, with the cells that are still open and the command that is due. Between two programs
  these are told by the slot's state and by the inbox (`Calm`); within a program one of them is in hand.
-/

namespace SlotServer

/-- An operation of a half is due to be queued, or is outstanding. -/
def Underway (i : Nat) (s : Slot) (half : Half) (p : Phase) (due : List Command) : Prop :=
  p = .due s.fd half ∧ due = [half.command i] ∨ p = .busy (s.halfOp half i) ∧ due = []

/-- What a slot's state says of the phase of its record and of the commands that are due. -/
def Stage (i : Nat) (s : Slot) (p : Phase) (due : List Command) : Prop :=
  match s.state with
  | .disconnected => p = .free ∧ due = [] ∧ s.fd = -1
  | .accepting => p = .idle s.fd none ∧ due = [.accept i]
  | .accepted => p = .idle s.fd none ∧ due = []
  | .received => p = .idle s.fd (some .receive) ∧ due = []
  | .sent => p = .idle s.fd (some .send) ∧ due = []
  | .receiving => Underway i s .receive p due
  | .sending => Underway i s .send p due
  | .disconnecting => p.rest? = some s.fd ∧ due = [.disconnect i] ∨ p = .closing (s.closeOp i) ∧ due = []

theorem stage_working {i : Nat} {s : Slot} {half : Half} {p : Phase} {due : List Command}
    (hstate : s.state = half.working) : Stage i s p due ↔ Underway i s half p due := by
  rw [Stage, hstate]
  cases half <;> rfl

theorem stage_rests {i : Nat} {s : Slot} {p : Phase} {due : List Command} (hidle : s.state.isIdle = true)
    (h : Stage i s p due) : p.rest? = some s.fd := by
  rw [Stage] at h
  cases hs : s.state <;> rw [hs] at h hidle <;> first | exact h.1 ▸ rfl | cases hidle

/-! ## Cells -/

namespace Told

/-- A cell before its operation has ended. -/
structure Waits (t : Told) (c : Cell) : Prop where
  phase : c.phase = if t.waiting.isSome then .waiting else .empty
  waker : c.waker = t.waiting
  woken : t.woken = []

/-- How the operation ended. Without an answer the loop's end has closed the connection. -/
def outcome (t : Told) : Outcome := t.ending.getD (.error .connectionClosed)

/-- A cell after its operation has ended. -/
structure Tells (t : Told) (exited : Bool) (c : Cell) : Prop where
  phase : c.phase = .completed
  result : c.result = some t.outcome
  woken : t.woken = t.waiting.toList
  closed : t.ending = none → exited = true

/-- The cell is completed, and who was waiting is to be woken. -/
theorem Waits.complete {t : Told} {c : Cell} (h : t.Waits c) (o : Outcome) :
    ∃ c', c.complete o = .ok (t.waiting, c') ∧ c'.phase = .completed ∧ c'.result = some o := by
  obtain ⟨hphase, hwaker, -⟩ := h
  cases hw : t.waiting with
  | none =>
    rw [hw] at hphase
    exact ⟨{ c with phase := .completed, result := some o }, by unfold Cell.complete; rw [hphase]; rfl, rfl, rfl⟩
  | some w =>
    rw [hw] at hphase hwaker
    exact ⟨{ phase := .completed, waker := none, result := some o },
      by unfold Cell.complete; rw [hphase, hwaker]; rfl, rfl, rfl⟩

/-- A poll leaves its waker. -/
theorem Waits.poll {t : Told} {c : Cell} (h : t.Waits c) (w : Waker) :
    ∃ c', c.poll w = (.pending, c') ∧ ({ t with waiting := some w } : Told).Waits c' := by
  obtain ⟨hphase, -, hwoken⟩ := h
  refine ⟨{ c with phase := .waiting, waker := some w }, ?_, rfl, rfl, hwoken⟩
  unfold Cell.poll Cell.pollWith Cell.beginPoll
  cases hw : t.waiting <;> rw [hw] at hphase <;> rw [hphase] <;> rfl

/-- A poll finds the outcome, and changes nothing. -/
theorem Tells.poll {t : Told} {exited : Bool} {c : Cell} (h : t.Tells exited c) (w : Waker) :
    c.poll w = (.ready t.outcome, c) := by
  rw [Cell.poll_of_isCompleted (by rw [Cell.isCompleted, h.phase]; rfl), Cell.published, h.result]
  rfl

end Told

/-- The cells of a slot, where those of the halves in `opened` are to be completed yet. -/
structure Telling (opened : Half → Bool) (exited : Bool) (h : List Event) (s : Slot) : Prop where
  waits : ∀ half, opened half = true → (told half h).Waits (Connection.cell s half)
  tells : ∀ half, opened half = false → (told half h).begun = true → (told half h).Tells exited (Connection.cell s half)

namespace Telling

variable {opened : Half → Bool} {exited : Bool} {h h' : List Event} {s s' : Slot}

/-- The cells do not hang on the rest of the slot, nor on what the record tells of other things. -/
theorem congr (ht : Telling opened exited h s) (hreceive : s'.receiveCell = s.receiveCell)
    (hsend : s'.sendCell = s.sendCell) (htold : ∀ half, told half h' = told half h) : Telling opened exited h' s' := by
  have hcell : ∀ half, Connection.cell s' half = Connection.cell s half := by rintro ⟨⟩ <;> assumption
  exact ⟨fun half ho => by rw [htold, hcell]; exact ht.waits half ho,
    fun half ho => by rw [htold, hcell]; exact ht.tells half ho⟩

/-- An operation of an open cell may end, before the cell is completed. -/
theorem ended {half : Half} {e : Event} (ht : Telling half.working.works exited h s)
    (hreceive : s'.receiveCell = s.receiveCell) (hsend : s'.sendCell = s.sendCell)
    (hother : ∀ other, other ≠ half → told other (e :: h) = told other h)
    (hwaiting : waiting half (e :: h) = waiting half h) (hwoken : woken half (e :: h) = woken half h) :
    Telling half.working.works exited (e :: h) s' := by
  have hcell : ∀ half, Connection.cell s' half = Connection.cell s half := by rintro ⟨⟩ <;> assumption
  refine ⟨fun other ho => ?_, fun other ho => ?_⟩
  · obtain rfl : other = half := by
      rw [Half.works_working] at ho
      exact of_decide_eq_true ho
    obtain ⟨hphase, hwaker, hnone⟩ := ht.waits other ho
    have hsame : (told other (e :: h)).waiting = (told other h).waiting := hwaiting
    rw [hcell]
    exact ⟨by rw [hphase, hsame], by rw [hwaker, hsame], hwoken.trans hnone⟩
  · have hne : other ≠ half := by
      rw [Half.works_working] at ho
      exact of_decide_eq_false ho
    rw [hother other hne, hcell]
    exact ht.tells other ho

theorem of_opened {opened' : Half → Bool} (ht : Telling opened exited h s) (ho : ∀ half, opened half = opened' half) :
    Telling opened' exited h s := funext ho ▸ ht

end Telling

/-! ## Completing a cell -/

section Completing

variable {α : Type} {i : Nat} {half : Half} {h : List Event}

theorem told_woke_self (w : Waker) :
    told half (.woke ⟨i, half⟩ w :: h) = { told half h with woken := w :: woken half h } := by
  simp [told, begun, ending, waiting, woken]

theorem told_woke_of_ne {other : Half} (w : Waker) (hne : other ≠ half) :
    told other (.woke ⟨i, half⟩ w :: h) = told other h := by
  simp [told, begun, ending, waiting, woken, hne.symm]

/-- The record after who was waiting was woken. -/
def wokenBy (cell : CellName) (h : List Event) : Option Waker → List Event
  | none => h
  | some w => .woke cell w :: h

theorem View.wake_put (v : View) (s : Slot) (cell : CellName) (waker : Option Waker) :
    (v.put s).wake cell waker = { v with slot? := some s, history := wokenBy cell v.history waker } := by
  cases waker <;> rfl

theorem told_wokenBy_of_ne {other : Half} (waker : Option Waker) (hne : other ≠ half) :
    told other (wokenBy ⟨i, half⟩ h waker) = told other h := by
  cases waker with
  | none => rfl
  | some w => exact told_woke_of_ne w hne

theorem phase_wokenBy (cell : CellName) (waker : Option Waker) : phase (wokenBy cell h waker) = phase h := by
  cases waker with
  | none => rfl
  | some w => exact Option.bind_fun_some (phase h)

theorem outstanding_wokenBy (cell : CellName) (waker : Option Waker) :
    outstanding (wokenBy cell h waker) = outstanding h := by
  cases waker <;> rfl

/-- Who was waiting is woken once, and the cell tells how the operation ended. -/
theorem tells_of_waits {c c' : Cell} {o : Outcome} {exited : Bool} (hw : (told half h).Waits c)
    (hphase : c'.phase = .completed) (hresult : c'.result = some o) (ho : (told half h).outcome = o)
    (hclosed : ending half h = none → exited = true) :
    (told half (wokenBy ⟨i, half⟩ h (waiting half h))).Tells exited c' := by
  have hnone : woken half h = [] := hw.woken
  cases hwaiting : waiting half h with
  | none => exact ⟨hphase, by rw [hresult, ← ho]; rfl, by simp [wokenBy, told, hnone, hwaiting], hclosed⟩
  | some w =>
    rw [wokenBy, told_woke_self]
    exact ⟨hphase, by rw [hresult, ← ho]; rfl, by simp [told, hnone, hwaiting], hclosed⟩

/-- The cell of a half is completed with the outcome of its operation. -/
theorem Leads.complete {R : Rely} {v : View} {s : Slot} {opened : Half → Bool} {o : Outcome} {Q : Unit → View → Prop}
    (hs : v.slot? = some s) (ht : Telling opened v.exited v.history s) (hopen : opened half = true)
    (ho : (told half v.history).outcome = o) (hclosed : ending half v.history = none → v.exited = true)
    (h : ∀ c, Telling (fun other => opened other && decide (other ≠ half)) v.exited
        (wokenBy ⟨i, half⟩ v.history (waiting half v.history)) (Connection.setCell s c half) →
      Q () ((v.put (Connection.setCell s c half)).wake ⟨i, half⟩ (waiting half v.history))) :
    Leads R i (Run.completeCell ⟨i, half⟩ (Slot.completeHalf half o) : Run α Unit) v Q := by
  have hwaits := ht.waits half hopen
  obtain ⟨c, hc, hphase, hresult⟩ := hwaits.complete o
  have hrun : s.completeHalf half o = .ok (waiting half v.history, Connection.setCell s c half) := by
    rw [Slot.completeHalf, hc]
    rfl
  refine Leads.completeCell rfl hs (fun fault hf => by rw [hrun] at hf; cases hf) fun waker s' hf => ?_
  rw [hrun] at hf
  cases hf
  refine h c ⟨fun other hother => ?_, fun other hother hbegun => ?_⟩
  · obtain ⟨hother, hne⟩ := Bool.and_eq_true_iff.1 hother
    have hne := of_decide_eq_true hne
    rw [told_wokenBy_of_ne _ hne, Slot.cell_setCell_of_ne s c hne]
    exact ht.waits other hother
  · by_cases hne : other = half
    · subst hne
      rw [Slot.cell_setCell_self]
      exact tells_of_waits hwaits hphase hresult ho hclosed
    · rw [told_wokenBy_of_ne _ hne] at hbegun ⊢
      rw [Slot.cell_setCell_of_ne s c hne]
      refine ht.tells other ?_ hbegun
      rw [decide_eq_true hne, Bool.and_true] at hother
      exact hother

end Completing

/-! ## The invariant -/

/-- What holds of a slot under an honest kernel, where the cells of the halves in `opened` are to be completed yet and
the commands in `due` are to be carried out yet. -/
structure Sound (i : Nat) (opened : Half → Bool) (due : List Command) (v : View) (s : Slot) : Prop where
  here : v.slot? = some s
  index : s.index = low32 i
  /-- A context names the slot truly, as long as there is something to name. -/
  small : s.state ≠ .disconnected ∨ 0 < v.places ∨ 0 < v.handles → i < 0x100000000
  fd : s.state ≠ .disconnected → 0 ≤ s.fd
  stage : ∃ p, phase v.history = some p ∧ Stage i s p due
  /-- What is ready answers what is outstanding. -/
  answered : v.exited = false → v.answers = [] ∨
    ∃ c op, v.answers = [c] ∧ outstanding v.history = [op] ∧ c.ctx = op.ctx
  telling : Telling opened v.exited v.history s
  /-- A connection that is attached has a handle. -/
  attached : s.attached = true → 0 < v.handles

/-- What holds of a slot between two programs. -/
structure Calm (i : Nat) (v : View) (s : Slot) : Prop extends Sound i s.state.works v.commands v s where
  /-- Nothing has ended that is still under way. -/
  unended : ∀ half, s.state.works half = true → ending half v.history = none
  /-- An idle connection is attached. -/
  idle : s.state.isIdle = true → s.attached = true

/-- A program may be at fault, but for completing a cell twice. -/
class Rely.Lenient (R : Rely) : Prop where
  faults : ∀ fault, fault ≠ .completedTwice → R.faults fault

theorem Rely.lenient (R : Rely) [R.Lenient] {fault : Fault} (h : fault ≠ .completedTwice) : R.faults fault :=
  Lenient.faults fault h

namespace Sound

variable {i : Nat} {opened : Half → Bool} {due due' : List Command} {v : View} {s s' : Slot}

theorem index_eq (h : Sound i opened due v s) (hstate : s.state ≠ .disconnected) : s.index = i := by
  rw [h.index, low32, Nat.mod_eq_of_lt (h.small (.inl hstate))]

theorem slot_ofSlot (h : Sound i opened due v s) (hstate : s.state ≠ .disconnected) :
    (Context.ofSlot i).slot = i := by
  rw [Context.slot_ofSlot, Nat.mod_eq_of_lt (h.small (.inl hstate))]

/-- Without an operation outstanding no completion is ready. -/
theorem answers_nil (h : Sound i opened due v s) (hexited : v.exited = false) {p : Phase}
    (hp : phase v.history = some p) (hops : p.ops = []) : v.answers = [] := by
  rcases h.answered hexited with hnil | ⟨c, op, -, hop, -⟩
  · exact hnil
  · rw [outstanding_of_phase hp, hops] at hop
    cases hop

/-- An event that neither ends an operation nor tells of one. -/
theorem log (h : Sound i opened due v s) {e : Event} {p p' : Phase} (hp : phase v.history = some p)
    (hnext : p.next e = some p') (hstage : Stage i s p' due')
    (htold : ∀ half, told half (e :: v.history) = told half v.history)
    (hout : outstanding (e :: v.history) = outstanding v.history) :
    Sound i opened due' (v.log e) s where
  here := h.here
  index := h.index
  small := h.small
  fd := h.fd
  stage := ⟨p', phaseFrom_cons hp hnext, hstage⟩
  answered := fun hexited => by
    rw [show (v.log e).history = e :: v.history from rfl, hout]
    exact h.answered hexited
  telling := h.telling.congr rfl rfl htold
  attached := h.attached

/-- A change of the slot that leaves its cells as they are. -/
theorem put (h : Sound i opened due v s) (hindex : s'.index = s.index) (hfd : s'.fd = s.fd)
    (hlive : s'.state ≠ .disconnected → s.state ≠ .disconnected)
    (hstage : ∀ p, phase v.history = some p → Stage i s p due → Stage i s' p due')
    (hreceive : s'.receiveCell = s.receiveCell) (hsend : s'.sendCell = s.sendCell)
    (hattached : s'.attached = s.attached) :
    Sound i opened due' (v.put s') s' where
  here := rfl
  index := hindex.trans h.index
  small := fun hs => h.small (hs.imp_left hlive)
  fd := fun hs => by rw [hfd]; exact h.fd (hlive hs)
  stage := by
    obtain ⟨p, hp, hst⟩ := h.stage
    exact ⟨p, hp, hstage p hp hst⟩
  answered := h.answered
  telling := h.telling.congr hreceive hsend fun _ => rfl
  attached := by rw [hattached]; exact h.attached

end Sound

/-! ## Closing -/

/-- How a slot's connection has been left for good. -/
structure Shut (i : Nat) (opened : Half → Bool) (v v' : View) (s' : Slot) : Prop where
  sound : Sound i opened v'.commands v' s'
  state : s'.state = .disconnected ∨ v.exited = false ∧ s'.state = .disconnecting
  endings : ∀ half, ending half v'.history = ending half v.history
  commands : v'.commands = v.commands
  exited : v'.exited = v.exited

namespace Sound

variable {α : Type} {R : Rely} {i : Nat} {opened : Half → Bool} {due : List Command} {v : View} {s : Slot}

/-- Where a close is due, nothing is outstanding. -/
theorem rests (h : Sound i opened [.disconnect i] v s) (hstate : s.state = .disconnecting) :
    ∃ p, phase v.history = some p ∧ p.rest? = some s.fd := by
  obtain ⟨p, hp, hstage⟩ := h.stage
  rw [Stage, hstate] at hstage
  rcases hstage with ⟨hrests, -⟩ | ⟨-, hdue⟩
  · exact ⟨p, hp, hrests⟩
  · cases hdue

/-- A slot that is closed at once. -/
theorem closeSlot [R.Lenient] (h : Sound i opened [.disconnect i] v s) (hstate : s.state = .disconnecting)
    (hcommands : v.commands = []) :
    Leads R i (Run.closeSlot i : Run α Unit) v fun _ v' => ∃ s', Shut i opened v v' s' ∧
      s'.state = .disconnected := by
  obtain ⟨p, hp, hrests⟩ := h.rests hstate
  have hlive : s.state ≠ .disconnected := by rw [hstate]; exact nofun
  have hnext : p.next (.closed (some i) s.fd) = some .free := if_pos (.inl hrests)
  have hshut : ∀ (leases : UInt8) (places : Nat),
      Shut i opened v { (v.put { s.unbound with leases }).log (.closed (some i) s.fd) with
        places } { s.unbound with leases } := fun leases places =>
    { sound :=
        { here := rfl
          index := h.index
          small := fun _ => h.small (.inl hlive)
          fd := fun hne => absurd rfl hne
          stage := ⟨.free, phaseFrom_cons hp hnext, rfl, hcommands, rfl⟩
          answered := h.answered
          telling := h.telling.congr rfl rfl fun _ => rfl
          attached := h.attached }
      state := .inl rfl
      endings := fun half => rfl
      commands := rfl
      exited := rfl }
  refine Leads.closeSlot h.here (fun _ => ?_) fun hne => absurd hstate hne
  rw [View.cut, if_pos (h.fd hlive)]
  refine Leads.release rfl (fun _ => R.lenient nofun) (fun _ _ => ⟨_, hshut _ _, rfl⟩) (fun _ => ⟨_, hshut _ _, rfl⟩)
    fun _ => .inr ⟨_, hshut _ _, rfl⟩

/-- A slot whose close is queued, or which is closed at once where the kernel does not take it. -/
theorem issueClose [R.Lenient] (h : Sound i opened [.disconnect i] v s) (hstate : s.state = .disconnecting)
    (hcommands : v.commands = []) (hexited : v.exited = false) :
    Leads R i (Run.issueClose i : Run α Unit) v fun _ v' => ∃ s', Shut i opened v v' s' := by
  obtain ⟨p, hp, hrests⟩ := h.rests hstate
  have hlive : s.state ≠ .disconnected := by rw [hstate]; exact nofun
  have hops : p.ops = [] := (Phase.of_rest? hrests).2
  refine Leads.bind (Leads.slot?_some h.here ?_)
  show Leads _ i (Run.queue (.close (.ofSlot s.index) s.fd) >>= _) v _
  rw [h.index_eq hlive]
  refine Leads.bind (Leads.queue (h.slot_ofSlot hlive) (fun more hmore => Leads.pure ⟨s, ?_⟩) fun e => ?_)
  · -- the kernel took the close
    have hnext : p.next (.queued (s.closeOp i)) = some (.closing (s.closeOp i)) := if_pos hrests
    have hout : outstanding (.queued (s.closeOp i) :: v.history) = [s.closeOp i] := by
      show outstanding v.history ++ [_] = _
      rw [outstanding_of_phase hp, hops, List.nil_append]
    exact
      { sound :=
          { here := h.here
            index := h.index
            small := h.small
            fd := h.fd
            stage := ⟨_, phaseFrom_cons hp hnext, by rw [Stage, hstate]; exact .inr ⟨rfl, hcommands⟩⟩
            answered := fun _ => by
              rw [h.answers_nil hexited hp hops, List.nil_append]
              exact hmore.imp_right fun hmore => ⟨_, _, hmore, hout, rfl⟩
            telling := h.telling.congr rfl rfl fun _ => rfl
            attached := h.attached }
        state := .inr ⟨hexited, hstate⟩
        endings := fun half => rfl
        commands := rfl
        exited := rfl }
  · -- the kernel did not take it
    have hnext : p.next (.refused (s.closeOp i) e) = some (.spent s.fd) := if_pos hrests
    have htold : ∀ half, told half (.refused (s.closeOp i) e :: v.history) = told half v.history := fun half => by
      simp [told, begun, ending, waiting, woken, Slot.closeOp, Op.half?]
    have hsound : Sound i opened [.disconnect i] (v.log (.refused (s.closeOp i) e)) s :=
      h.log hp hnext (by rw [Stage, hstate]; exact .inl ⟨rfl, rfl⟩) htold rfl
    refine Leads.bind (Leads.say ?_)
    refine (hsound.closeSlot hstate hcommands).mono fun _ v' => ?_
    rintro ⟨s', hshut, -⟩
    exact ⟨s', { hshut with endings := fun half => (hshut.endings half).trans (congrArg Told.ending (htold half)) }⟩

/-- Another cell for a half, where the record tells nothing new but of cells. -/
theorem setCell (h : Sound i opened due v s) {opened' : Half → Bool} {half : Half} {c : Cell} {h' : List Event}
    (hphase : phase h' = phase v.history) (hout : outstanding h' = outstanding v.history)
    (ht : Telling opened' v.exited h' (Connection.setCell s c half)) :
    Sound i opened' due { v with slot? := some (Connection.setCell s c half), history := h' }
      (Connection.setCell s c half) := by
  obtain ⟨p, hp, hstage⟩ := h.stage
  exact
    { here := rfl
      index := by rw [← h.index]; cases half <;> rfl
      small := by rw [Slot.state_setCell]; exact h.small
      fd := by rw [Slot.state_setCell, Slot.fd_setCell]; exact h.fd
      stage := ⟨p, hphase.trans hp, by cases half <;> exact hstage⟩
      answered := by rw [hout]; exact h.answered
      telling := ht
      attached := by rw [Slot.attached_setCell]; exact h.attached }

/-- The last open cell is completed with the outcome of its operation. -/
theorem settle {half : Half} {o : Outcome} (h : Sound i opened v.commands v s)
    (hopened : ∀ other, opened other = decide (other = half)) (hquiet : ∀ other, s.state.works other = false)
    (ho : (told half v.history).outcome = o) (hclosed : ending half v.history = none → v.exited = true)
    (hidle : s.state.isIdle = true → s.attached = true) :
    Leads R i (Run.completeCell ⟨i, half⟩ (Slot.completeHalf half o) : Run α Unit) v fun _ v' =>
      ∃ s', Calm i v' s' ∧ s'.state = s.state ∧ v'.exited = v.exited := by
  refine Leads.complete h.here h.telling (by rw [hopened]; exact decide_eq_true rfl) ho hclosed fun c ht => ?_
  have hworks : ∀ other, (opened other && decide (other ≠ half)) = (Connection.setCell s c half).state.works other := by
    intro other
    rw [Slot.state_setCell, hquiet, hopened]
    cases other <;> cases half <;> rfl
  have hsound := h.setCell (phase_wokenBy ..) (outstanding_wokenBy ..) (ht.of_opened hworks)
  rw [View.wake_put]
  exact ⟨Connection.setCell s c half,
    { hsound with
      unended := fun other hother => by rw [Slot.state_setCell, hquiet] at hother; cases hother
      idle := by rw [Slot.state_setCell, Slot.attached_setCell]; exact hidle }, Slot.state_setCell .., rfl⟩

end Sound

/-- What was left for good is at rest, once no cell is open. -/
theorem Shut.calm {i : Nat} {opened : Half → Bool} {v v' : View} {s' : Slot} (h : Shut i opened v v' s')
    (hopened : ∀ half, opened half = false) : Calm i v' s' := by
  have hover : s'.state.isOver = true := by obtain h | ⟨-, h⟩ := h.state <;> rw [h] <;> rfl
  have hworks := SlotState.works_of_isOver hover
  exact
    { h.sound with
      telling := h.sound.telling.of_opened fun half => by rw [hopened, hworks]
      unended := fun half hh => by rw [hworks] at hh; cases hh
      idle := fun hidle => by
        rw [SlotState.isOver_of_isIdle hidle] at hover
        cases hover }

end SlotServer
