import SlotServer.Proofs.Leases
import SlotServer.Proofs.LoopChanges

/-!
# Operations that nobody will carry out

The teardown meets slots in every state. A command that was left in the inbox is failed, and a slot that is not free
then is forced free; whichever of the two ends an operation completes its cell, with the error that the connection is
closed. Every other cell is left as it is.

- `wokenAt`: who was woken at a cell;
- `Fails`, `Failing`: what becomes of a half, and of a slot, while the worker is torn down;
- `failing`: what the teardown does with every slot, and `WildRun.fails`: what it comes to.
-/

namespace SlotServer

variable {α : Type}

/-- Who was woken at the cell of a half, the latest first. -/
def wokenAt (half : Half) : List Event → List Waker
  | [] => []
  | e :: h =>
    match e with
    | .woke cell w => if cell.half = half then w :: wokenAt half h else wokenAt half h
    | _ => wokenAt half h

/-- The event wakes nobody. -/
def Event.isSilent : Event → Bool
  | woke .. => false
  | _ => true

theorem wokenAt_cons {e : Event} (he : e.isSilent = true) (half : Half) (h : List Event) :
    wokenAt half (e :: h) = wokenAt half h := by
  cases e with
  | woke => cases he
  | _ => rfl

theorem wokenAt_append (half : Half) (since before : List Event) :
    wokenAt half (since ++ before) = wokenAt half since ++ wokenAt half before := by
  induction since with
  | nil => rfl
  | cons e since ih =>
    cases e with
    | woke cell w =>
      rw [List.cons_append, wokenAt, wokenAt, ih]
      split <;> rfl
    | _ => exact ih

/-- What has become of a half since the slot was `s₀`: its cell is as it was, or the operation that was under way was
ended by closing the connection. -/
def Fails (half : Half) (opened : Bool) (s₀ s : Slot) (since : List Event) : Prop :=
  opened = s₀.state.works half ∧ Connection.cell s half = Connection.cell s₀ half ∧ wokenAt half since = [] ∨
    opened = false ∧ s₀.state.works half = true ∧ ∃ waker,
      (Connection.cell s₀ half).complete (.error .connectionClosed) = .ok (waker, Connection.cell s half) ∧
        wokenAt half since = waker.toList

/-- The operation that was under way is ended. -/
theorem Fails.complete {half : Half} {s₀ s : Slot} {since since' : List Event} {waker : Option Waker} {c : Cell}
    (hc : (Connection.cell s half).complete (.error .connectionClosed) = .ok (waker, c))
    (h : ∀ other, Fails other (half.working.works other) s₀ s since)
    (hself : wokenAt half since' = waker.toList ++ wokenAt half since)
    (hother : ∀ other, other ≠ half → wokenAt other since' = wokenAt other since) (other : Half) :
    Fails other false s₀ (Connection.setCell s c half) since' := by
  have hfails := h other
  by_cases hne : other = half
  · subst hne
    rw [Half.works_self] at hfails
    rcases hfails with ⟨hopen, hcell, hnone⟩ | ⟨hopen, -⟩
    · rw [hnone, List.append_nil] at hself
      rw [hcell] at hc
      exact .inr ⟨rfl, hopen.symm, waker, by rw [Slot.cell_setCell_self]; exact hc, hself⟩
    · cases hopen
  · rw [Half.works_working, decide_eq_false hne] at hfails
    rw [Fails, Slot.cell_setCell_of_ne s c hne, hother other hne]
    exact hfails

/-- What has become of a slot since it was `s₀` and its record was `h₀`. The cells in `opened` are to be completed
yet. -/
structure Failing (i : Nat) (opened : Half → Bool) (s₀ : Slot) (h₀ : List Event) (v : View) (s : Slot) : Prop where
  here : v.slot? = some s
  index : s.index = i
  fails : ∃ since, v.history = since ++ h₀ ∧ ∀ half, Fails half (opened half) s₀ s since

namespace Failing

variable {i : Nat} {half : Half} {opened : Half → Bool} {s₀ s s' : Slot} {h₀ : List Event} {v : View}

/-- Another slot with the same cells. -/
theorem put (h : Failing i opened s₀ h₀ v s) (hindex : s'.index = s.index)
    (hcell : ∀ half, Connection.cell s' half = Connection.cell s half) : Failing i opened s₀ h₀ (v.put s') s' := by
  obtain ⟨since, hhistory, hfails⟩ := h.fails
  refine ⟨rfl, hindex.trans h.index, since, hhistory, fun half => ?_⟩
  have hhalf := hfails half
  rw [Fails, ← hcell half] at hhalf
  exact hhalf

/-- A step to another state, which does not count as the end of an operation yet. -/
theorem advance (h : Failing i opened s₀ h₀ v s) (next : SlotState) (n : Nat) :
    Failing i opened s₀ h₀ (v.put { s with state := next, receivedLength := n })
      { s with state := next, receivedLength := n } :=
  h.put rfl fun _ => rfl

theorem log (h : Failing i opened s₀ h₀ v s) {e : Event} (he : e.isSilent = true) :
    Failing i opened s₀ h₀ (v.log e) s := by
  obtain ⟨since, hhistory, hfails⟩ := h.fails
  refine ⟨h.here, h.index, e :: since, congrArg (e :: ·) hhistory, fun half => ?_⟩
  rw [Fails, wokenAt_cons he]
  exact hfails half

theorem cut (h : Failing i opened s₀ h₀ v s) (fd : Int) : Failing i opened s₀ h₀ (v.cut i fd) s := by
  unfold View.cut
  split
  · exact h.log rfl
  · exact h

theorem release (h : Failing i opened s₀ h₀ v s) :
    Leads .any i (Run.release i : Run α Unit) v fun _ v' =>
      ∃ s', Failing i opened s₀ h₀ v' s' ∧ s'.state = s.state := by
  have hleases : ∀ leases, Failing i opened s₀ h₀ (v.put { s with leases }) { s with leases } := fun leases =>
    h.put rfl fun _ => rfl
  have hplaced : Failing i opened s₀ h₀ { v.put { s with leases := 0 } with places := v.places + 1 }
      { s with leases := 0 } := ⟨rfl, h.index, (hleases 0).fails⟩
  exact Leads.release h.here (fun _ => trivial) (fun _ _ => ⟨_, hleases _, rfl⟩) (fun _ => ⟨_, hplaced, rfl⟩)
    fun _ => .inr ⟨_, hleases 0, rfl⟩

theorem closeSlot (h : Failing i opened s₀ h₀ v s) :
    Leads .any i (Run.closeSlot i : Run α Unit) v fun _ v' => ∃ s', Failing i opened s₀ h₀ v' s' ∧
      ∀ half, s'.state.works half = s.state.works half := by
  refine Leads.closeSlot h.here (fun hstate => ?_) fun _ => ⟨s, h, fun _ => rfl⟩
  have hunbound : Failing i opened s₀ h₀ (v.put s.unbound) s.unbound := h.put rfl fun _ => rfl
  refine (hunbound.cut s.fd).release.mono fun _ v' ⟨s', hafter, hover⟩ => ⟨s', hafter, fun half => ?_⟩
  rw [hover, hstate]
  cases half <;> rfl

/-- The operation that was under way is ended, and who was left waiting is woken. -/
theorem complete (h : Failing i half.working.works s₀ h₀ v s) :
    Leads .any i (Run.completeCell ⟨i, half⟩ (Slot.completeHalf half (.error .connectionClosed)) : Run α Unit) v
      fun _ v' => ∃ s', Failing i (fun _ => false) s₀ h₀ v' s' ∧ s'.state = s.state := by
  obtain ⟨since, hhistory, hfails⟩ := h.fails
  refine Leads.completeCell rfl h.here (fun _ _ => trivial) fun waker s' hs' => ?_
  unfold Slot.completeHalf at hs'
  cases hc : (Connection.cell s half).complete (.error .connectionClosed) with
  | error fault =>
    rw [hc] at hs'
    cases hs'
  | ok done =>
    obtain ⟨waker', c⟩ := done
    rw [hc] at hs'
    cases hs'
    have hindex : (Connection.setCell s c half).index = i := by
      rw [← h.index]
      cases half <;> rfl
    refine ⟨Connection.setCell s c half, ?_, Slot.state_setCell ..⟩
    cases waker with
    | none => exact ⟨rfl, hindex, since, hhistory, Fails.complete hc hfails rfl fun _ _ => rfl⟩
    | some w =>
      exact ⟨rfl, hindex, .woke ⟨i, half⟩ w :: since, congrArg (_ :: ·) hhistory,
        Fails.complete hc hfails (if_pos rfl) fun other hne => if_neg fun heq => hne heq.symm⟩

/-! ## What the teardown does with a slot -/

theorem failHalf (h : Failing i s.state.works s₀ h₀ v s) :
    Leads .any i (Run.failHalf half i : Run α Unit) v fun _ v' => ∃ s', Failing i s'.state.works s₀ h₀ v' s' := by
  refine Leads.bind (Leads.stepSlot_some h.here ?_)
  by_cases hstate : s.state = half.working
  · obtain ⟨n, habort⟩ := Slot.abortHalf_working hstate
    rw [habort]
    have hleft := h.advance .disconnecting n
    rw [hstate] at hleft
    refine Leads.bind (hleft.closeSlot.mono fun _ v' ⟨s₁, hclosed, hworks⟩ => ?_)
    refine hclosed.complete.mono fun _ v'' ⟨s₂, hdone, hsame⟩ => ⟨s₂, ?_⟩
    have hnone : s₂.state.works = fun _ => false := by
      rw [hsame]
      funext other
      rw [hworks]
      cases other <;> rfl
    rw [hnone]
    exact hdone
  · obtain ⟨n, habort⟩ := Slot.abortHalf_not_working hstate
    rw [habort]
    exact Leads.pure ⟨{ s with receivedLength := n }, h.put rfl fun _ => rfl⟩

/-- A slot that was closed has as little under way as before. -/
theorem closed (h : Failing i s.state.works s₀ h₀ v s) :
    Leads .any i (Run.closeSlot i : Run α Unit) v fun _ v' => ∃ s', Failing i s'.state.works s₀ h₀ v' s' := by
  refine h.closeSlot.mono fun _ v' ⟨s', hafter, hworks⟩ => ⟨s', ?_⟩
  rw [funext hworks]
  exact hafter

theorem failCommand {c : Command} (h : Failing i s.state.works s₀ h₀ v s) (hc : c.slot = i) :
    Leads .any i (Run.failCommand c : Run α Unit) v fun _ v' => ∃ s', Failing i s'.state.works s₀ h₀ v' s' := by
  subst hc
  cases c with
  | accept i =>
    refine Leads.bind (Leads.say ?_)
    by_cases hstate : s.state = .accepting
    · refine Leads.bind (Leads.advance_ok h.here (List.mem_singleton.2 hstate) ?_)
      have hleft := h.advance .disconnecting s.receivedLength
      rw [show s.state.works = SlotState.disconnecting.works by rw [hstate]; funext half; cases half <;> rfl] at hleft
      exact Failing.closed (s := { s with state := .disconnecting }) hleft
    · refine Leads.bind (Leads.advance_error h.here (fun hmem => hstate (List.mem_singleton.1 hmem)) ?_)
      exact Leads.pure ⟨s, h⟩
  | receive i =>
    rw [show Command.receive i = Half.command i .receive from rfl, Run.failCommand_half]
    exact Leads.bind (Leads.say h.failHalf)
  | send i =>
    rw [show Command.send i = Half.command i .send from rfl, Run.failCommand_half]
    exact Leads.bind (Leads.say h.failHalf)
  | disconnect i => exact Leads.bind (Leads.say h.closed)

/-- A slot is forced free, and nothing is left under way. -/
theorem forceSlot (h : Failing i s.state.works s₀ h₀ v s) :
    Leads .any i (Run.forceSlot i : Run α Bool) v fun _ v' => ∃ s', Failing i (fun _ => false) s₀ h₀ v' s' := by
  have hsettle : ∀ {v' s'}, Failing i (fun _ => false) s₀ h₀ v' s' →
      Leads .any i (Run.settleForce i s : Run α Bool) v' fun _ v'' =>
        ∃ s'', Failing i (fun _ => false) s₀ h₀ v'' s'' := by
    intro v' s' h'
    refine Leads.settleForce (fun _ => ?_) fun _ => ?_
    · rw [h.index]
      exact (h'.cut s.fd).release.mono fun _ v'' ⟨s'', hafter, _⟩ => ⟨s'', hafter⟩
    · rw [h.index]
      exact h'.release.mono fun _ v'' ⟨s'', hafter, _⟩ => ⟨s'', hafter⟩
  have hunbound : Failing i s.state.works s₀ h₀ (v.put s.unbound) s.unbound := h.put rfl fun _ => rfl
  refine Leads.forceSlot h.here (fun hstate => ⟨s, ?_⟩) (fun half hstate => ?_) fun _ hnone => ?_
  · rw [show s.state.works = fun _ => false by rw [hstate]; funext half; cases half <;> rfl] at h
    exact h
  · rw [hstate] at hunbound
    exact hunbound.complete.mono fun _ v' ⟨s', hdone, _⟩ => hsettle hdone
  · rw [funext hnone] at hunbound
    exact hsettle hunbound

end Failing

/-! ## All slots -/

/-- What a slot has come to while the worker is torn down, from what it was in the machine. -/
def Machine.Forsakes (m : Machine α) (i : Nat) (v : View) : Prop :=
  ∀ s₀, m.worker.slots[i]? = some s₀ → ∃ s, Failing i s.state.works s₀ (m.history i) v s

/-- The slots of a machine while it is torn down over an arbitrary kernel. -/
def failing {serve : Run.Serve α} (hserve : Modest serve) (m : Machine α) : Ebb α where
  rest i v := Moored i v ∧ (m.worker.slots[i]? = none → v.slot? = none) ∧ m.Forsakes i v
  ebb i v := Afloat i v ∧ (m.worker.slots[i]? = none → v.slot? = none) ∧ m.Forsakes i v
  faults _ := False
  failCommand {i v c rest} h hexited hc hslot := by
    obtain ⟨hafloat, hnone, hforsakes⟩ := h
    cases hs : m.worker.slots[i]? with
    | none =>
      have hfew := (hafloat.few.commands).2 (hnone hs)
      rw [hc] at hfew
      cases hfew
    | some s₀ =>
      obtain ⟨s, hfailing⟩ := hforsakes s₀ hs
      have hless : Failing i s.state.works s₀ (m.history i) { v with commands := rest } s :=
        ⟨hfailing.here, hfailing.index, hfailing.fails⟩
      refine Leads.mono (Leads.and ((wild hserve).failCommand hafloat hexited hc hslot) (hless.failCommand hslot)
        (fun j v' hother => ⟨hother.1, trivial⟩) fun _ => id) fun _ v' hboth => ?_
      obtain ⟨⟨hafloat', hsame⟩, s', hfailing'⟩ := hboth
      refine ⟨⟨hafloat', nofun, fun s₁ hs₁ => ?_⟩, hsame⟩
      obtain rfl := Option.some.inj (hs.symm.trans hs₁)
      exact ⟨s', hfailing'⟩
  forceSlot {i v} h hexited hcommands hsome := by
    obtain ⟨hafloat, hnone, hforsakes⟩ := h
    cases hs : m.worker.slots[i]? with
    | none =>
      rw [hnone hs] at hsome
      cases hsome
    | some s₀ =>
      obtain ⟨s, hfailing⟩ := hforsakes s₀ hs
      refine Leads.mono (Leads.fixed (Leads.and ((wild hserve).forceSlot hafloat hexited hcommands hsome)
        (hfailing.log (e := .released) rfl).forceSlot (fun j v' hother => ⟨?_, trivial⟩) fun _ => id))
        fun _ v' hboth => ?_
      · exact hother.imp (fun hrest => hrest.1) fun ⟨w, hebb, hlog⟩ => ⟨w, hebb.1, hlog⟩
      · obtain ⟨⟨hmoored, s', hfailing'⟩, hexited', -⟩ := hboth
        refine ⟨hmoored, nofun, fun s₁ hs₁ => ⟨s', ?_⟩⟩
        obtain rfl := Option.some.inj (hs.symm.trans hs₁)
        have hover : s'.state = .disconnected := by
          rcases hmoored with ⟨s'', hsettled⟩ | hmissing
          · obtain rfl : s' = s'' := Option.some.inj (hfailing'.here.symm.trans hsettled.here)
            exact hsettled.halted (hexited'.trans hexited)
          · cases hfailing'.here.symm.trans hmissing.slot
        rw [show s'.state.works = fun _ => false by rw [hover]; funext half; cases half <;> rfl]
        exact hfailing'
  absent {i v} h hexited hcommands hnone := by
    obtain ⟨hafloat, -, hforsakes⟩ := h
    refine ⟨(wild hserve).absent hafloat hexited hcommands hnone, fun _ => hnone, fun s₀ hs => ?_⟩
    obtain ⟨s, hfailing⟩ := hforsakes s₀ hs
    rw [hfailing.here] at hnone
    cases hnone

variable {serve : Run.Serve α} {m : Machine α}

/-- A worker over an arbitrary kernel can be torn down wherever it comes to, and every operation that was under way is
failed. -/
theorem WildRun.fails (hserve : Modest serve) (h : WildRun serve m) (hexited : m.worker.exited = false) :
    ∃ m', Run.finish m = .ok () m' ∧ m'.worker.exited = true ∧ m'.All Moored [] ∧
      ∀ i, m.Forsakes i (m'.view [] i) := by
  have hall := h.moored hserve
  have hebb : m.exit.All (failing hserve m).ebb [] := by
    intro i
    refine ⟨(wild hserve).exit (hall i) hexited, id, fun s₀ hs => ⟨s₀, hs, (hall.settled hs).index, [], rfl, ?_⟩⟩
    exact fun half => .inl ⟨rfl, rfl, rfl⟩
  obtain ⟨_, m', hrun, hafter⟩ := ((failing hserve m).finish hebb).comes
  exact ⟨m', hrun, (Run.changes_finish hrun).exited, fun i => (hafter i).1, fun i => (hafter i).2.2⟩

end SlotServer
