import SlotServer.Proofs.Deeds
import SlotServer.Proofs.Sound

/-!
# The dispatch loop under an honest kernel

Every program of the dispatch loop that works on a slot starts from a slot at rest (`Calm`), or from one whose command
was just taken out of the inbox, and leaves the slot at rest.

- `Sound.issueHalf`, `Sound.execute`: a command is carried out;
- `Calm.route`: a completion is taken to its slot;
- `Sound.failCommand`: a command is failed after the loop's end.
-/

namespace SlotServer

variable {α : Type} {R : Rely} [R.Lenient]

namespace Slot

theorem half?_halfOp (s : Slot) (half : Half) (i : Nat) : (s.halfOp half i).half? = some half := by
  cases half <;> rfl

theorem fd_halfOp (s : Slot) (half : Half) (i : Nat) : (s.halfOp half i).fd = s.fd := by
  cases half <;> rfl

end Slot

namespace Sound

variable {i : Nat} {half : Half} {opened : Half → Bool} {due : List Command} {v : View} {s : Slot} {o : Outcome}

/-- A connection without an operation outstanding is given up. -/
theorem leave (h : Sound i opened due v s) (hlive : s.state ≠ .disconnected)
    (hrests : ∀ p, Stage i s p due → p.rest? = some s.fd) (n : Nat) :
    Sound i opened [.disconnect i] (v.put { s with state := .disconnecting, receivedLength := n })
      { s with state := .disconnecting, receivedLength := n } :=
  h.put rfl rfl (fun _ => hlive) (fun p _ hstage => .inl ⟨hrests p hstage, rfl⟩) rfl rfl rfl

/-- An idle connection is closed. -/
theorem disconnect (h : Sound i opened [] v s) (hidle : s.state.isIdle = true) (hcommands : v.commands = [])
    (hexited : v.exited = false) :
    Leads R i (Run.disconnect i : Run α Unit) v fun _ v' => ∃ s', Shut i opened v v' s' := by
  refine Leads.bind (Leads.advance_ok h.here (SlotState.mem_of_isIdle hidle) ?_)
  have hlive := SlotState.ne_disconnected_of_isIdle hidle
  have hleft := h.leave hlive (fun p hstage => stage_rests hidle hstage) s.receivedLength
  exact (hleft.issueClose rfl hcommands hexited).mono fun _ v' ⟨s', hshut⟩ => ⟨s', { hshut with }⟩

/-- A new socket is given up. -/
theorem abandon (h : Sound i opened [.accept i] v s) (hstate : s.state = .accepting) (hcommands : v.commands = [])
    (hexited : v.exited = false) :
    Leads R i (Run.abandon i : Run α Unit) v fun _ v' => ∃ s', Shut i opened v v' s' := by
  refine Leads.bind (Leads.advance_ok h.here (List.mem_singleton.2 hstate) ?_)
  have hleft := h.leave (by rw [hstate]; exact nofun) (fun p hstage => ?_) s.receivedLength
  · exact (hleft.issueClose rfl hcommands hexited).mono fun _ v' ⟨s', hshut⟩ => ⟨s', { hshut with }⟩
  · rw [Stage, hstate] at hstage
    rw [hstage.1]
    rfl

end Sound

omit [R.Lenient] in
/-- Whoever waits for an operation is told, after its socket was given up. -/
theorem Shut.settle {i : Nat} {half : Half} {v v' : View} {s' : Slot} {o : Outcome}
    (h : Shut i half.working.works v v' s') (ho : (told half v.history).outcome = o)
    (hclosed : ending half v.history = none → v.exited = true) :
    Leads R i (Run.completeCell ⟨i, half⟩ (Slot.completeHalf half o) : Run α Unit) v' fun _ v'' =>
      ∃ s'', Calm i v'' s'' ∧ s''.state = s'.state := by
  have hover : s'.state.isOver = true := by obtain h | ⟨-, h⟩ := h.state <;> rw [h] <;> rfl
  have hending : (told half v'.history).ending = (told half v.history).ending := h.endings half
  refine (h.sound.settle (Half.works_working half) (SlotState.works_of_isOver hover)
    (by rw [Told.outcome, hending]; exact ho)
    (fun hnone => by rw [h.exited]; exact hclosed ((h.endings half).symm.trans hnone)) fun hidle => ?_).mono
    fun _ v'' ⟨s'', hcalm, hstate, _⟩ => ⟨s'', hcalm, hstate⟩
  rw [SlotState.isOver_of_isIdle hidle] at hover
  cases hover

theorem outcome_of_ending_none {half : Half} {h : List Event} (ho : ending half h = none) :
    (told half h).outcome = .error .connectionClosed := by
  rw [Told.outcome, show (told half h).ending = none from ho]
  rfl

theorem outcome_of_ending {half : Half} {h : List Event} {o : Outcome} (ho : ending half h = some o) :
    (told half h).outcome = o := by
  rw [Told.outcome, show (told half h).ending = some o from ho]
  rfl

namespace Sound

variable {i : Nat} {half : Half} {opened : Half → Bool} {due : List Command} {v : View} {s : Slot} {o : Outcome}

/-- An operation has ended badly: the socket is closed, and whoever waits is told. -/
theorem failed (h : Sound i half.working.works [.disconnect i] v s) (hstate : s.state = .disconnecting)
    (hcommands : v.commands = []) (hexited : v.exited = false) (ho : ending half v.history = some o) :
    Leads R i (do
      Run.issueClose i
      Run.completeCell ⟨i, half⟩ (Slot.completeHalf half o) : Run α Unit) v fun _ v' => ∃ s', Calm i v' s' :=
  Leads.bind ((h.issueClose hstate hcommands hexited).mono fun _ _ ⟨_, hshut⟩ =>
    (hshut.settle (outcome_of_ending ho) fun hnone => by rw [ho] at hnone; cases hnone).mono
      fun _ _ ⟨s', hcalm, _⟩ => ⟨s', hcalm⟩)

/-- An operation has ended well: a connection without a handle is closed, and whoever waits is told. -/
theorem delivered (h : Sound i half.working.works [] v s) (hidle : s.state.isIdle = true)
    (hcommands : v.commands = []) (hexited : v.exited = false) (ho : ending half v.history = some o) :
    Leads R i (do
      if !((← Run.slot? i).any (·.attached)) then Run.disconnect i
      Run.completeCell ⟨i, half⟩ (Slot.completeHalf half o) : Run α Unit) v fun _ v' => ∃ s', Calm i v' s' := by
  refine Leads.bind (Leads.slot?_some h.here ?_)
  show Leads _ i (if (!s.attached) = true then _ else _ : Run α Unit) v _
  cases hattached : s.attached with
  | false =>
    exact Leads.bind ((h.disconnect hidle hcommands hexited).mono fun _ _ ⟨_, hshut⟩ =>
      (hshut.settle (outcome_of_ending ho) fun hnone => by rw [ho] at hnone; cases hnone).mono
        fun _ _ ⟨s', hcalm, _⟩ => ⟨s', hcalm⟩)
  | true =>
    have hsound : Sound i half.working.works v.commands v s := by rw [hcommands]; exact h
    have hsettled := hsound.settle (R := R) (α := α) (Half.works_working half) (SlotState.works_of_isIdle hidle)
      (outcome_of_ending ho) (fun hnone => by rw [ho] at hnone; cases hnone) fun _ => hattached
    exact hsettled.mono fun _ _ ⟨s', hcalm, _⟩ => ⟨s', hcalm⟩

/-- The operation of a half is queued. -/
theorem issueHalf (h : Sound i s.state.works [half.command i] v s) (hstate : s.state = half.working)
    (hunended : ending half v.history = none) (hcommands : v.commands = []) (hexited : v.exited = false) :
    Leads R i (Run.issueHalf half i : Run α Unit) v fun _ v' => ∃ s', Calm i v' s' := by
  have hlive : s.state ≠ .disconnected := by rw [hstate]; exact half.working_ne_disconnected
  have hctx : (s.halfOp half i).ctx = .ofSlot i := Slot.ctx_opAt ..
  obtain ⟨p, hp, hstage⟩ := h.stage
  rcases (stage_working hstate).1 hstage with ⟨rfl, -⟩ | ⟨-, hdue⟩
  case inr => cases hdue
  have hdue : Phase.due s.fd half = .due (s.halfOp half i).fd half := by rw [Slot.fd_halfOp]
  refine Leads.bind (Leads.slot?_some h.here ?_)
  refine Leads.bind (Leads.placeOf ?_ (.inr ⟨R.lenient nofun, R.lenient nofun⟩))
  refine Leads.bind (Leads.queue (by rw [Slot.ctx_opAt]; exact h.slot_ofSlot hlive) (fun more hmore => ?_) fun e => ?_)
  · -- the kernel took the operation
    have hnext : (Phase.due s.fd half).next (.queued (s.halfOp half i)) = some (.busy (s.halfOp half i)) := by
      simp only [Phase.next, Slot.half?_halfOp, if_pos hdue]
    have hout : outstanding (.queued (s.halfOp half i) :: v.history) = [s.halfOp half i] := by
      show outstanding v.history ++ [_] = _
      rw [outstanding_of_phase hp]
      rfl
    refine Leads.pure ⟨s, ?_⟩
    exact
      { here := h.here
        index := h.index
        small := h.small
        fd := h.fd
        stage := ⟨_, phaseFrom_cons hp hnext, (stage_working hstate).2 (.inr ⟨rfl, hcommands⟩)⟩
        answered := fun _ => by
          rw [h.answers_nil hexited hp rfl, List.nil_append]
          exact hmore.imp_right fun hmore => ⟨_, _, hmore, hout, rfl⟩
        telling := h.telling.congr rfl rfl fun _ => rfl
        attached := h.attached
        unended := fun other hother => by
          obtain rfl : other = half := by
            rw [hstate, Half.works_working] at hother
            exact of_decide_eq_true hother
          exact hunended
        idle := fun hidle => by
          rw [hstate, half.isIdle_working] at hidle
          cases hidle }
  · -- the kernel did not take it
    have hnext : (Phase.due s.fd half).next (.refused (s.halfOp half i) e) = some (.spent s.fd) := by
      simp only [Phase.next, Slot.half?_halfOp, Slot.fd_halfOp, if_true]
    have hending : ending half (.refused (s.halfOp half i) e :: v.history) = some (.error e) := by
      simp [ending, hunended, Slot.half?_halfOp]
    have hother : ∀ other, other ≠ half →
        told other (.refused (s.halfOp half i) e :: v.history) = told other v.history := by
      intro other hne
      simp [told, begun, ending, waiting, woken, Slot.half?_halfOp, hne.symm]
    have ht := h.telling
    rw [hstate] at ht
    obtain ⟨n, habort⟩ := Slot.abortHalf_working hstate
    refine Leads.bind (Leads.bump (Leads.bind (Leads.stepSlot_some h.here ?_)))
    rw [habort]
    refine failed (v := (v.log (.refused (s.halfOp half i) e)).put _)
      (s := { s with state := .disconnecting, receivedLength := n }) ?_ rfl hcommands hexited hending
    exact
      { here := rfl
        index := h.index
        small := fun _ => h.small (.inl hlive)
        fd := fun _ => h.fd hlive
        stage := ⟨_, phaseFrom_cons hp hnext, .inl ⟨rfl, rfl⟩⟩
        answered := h.answered
        telling := ht.ended rfl rfl hother rfl rfl
        attached := h.attached }

end Sound

/-! ## Completions -/

namespace Calm

variable {i : Nat} {half : Half} {v : View} {s s' : Slot} {c : Completion}

/-- A completion that is ready answers the one operation that is outstanding. -/
theorem answers_one (h : Calm i v s) (hc : v.answers = [c]) (hexited : v.exited = false) :
    ∃ p op, phase v.history = some p ∧ Stage i s p v.commands ∧ p.ops = [op] ∧ outstanding v.history = [op] ∧
      c.ctx = op.ctx := by
  obtain ⟨p, hp, hstage⟩ := h.stage
  rcases h.answered hexited with hnil | ⟨c', op, hc', hop, hctx⟩
  · rw [hnil] at hc
    cases hc
  · obtain rfl : c = c' := List.head_eq_of_cons_eq (hc.symm.trans hc')
    exact ⟨p, op, hp, hstage, (outstanding_of_phase hp).symm.trans hop, hop, hctx⟩

/-- The completion that is ready for a half answers the half's operation. -/
theorem answers_half (h : Calm i v s) (half : Half) (hstate : s.state = half.working) (hc : v.answers = [c])
    (hexited : v.exited = false) :
    phase v.history = some (.busy (s.halfOp half i)) ∧ v.commands = [] ∧
      outstanding v.history = [s.halfOp half i] ∧ c.ctx = (s.halfOp half i).ctx := by
  obtain ⟨p, op, hp, hstage, hops, hout, hctx⟩ := h.answers_one hc hexited
  rcases (stage_working hstate).1 hstage with ⟨rfl, -⟩ | ⟨rfl, hdue⟩
  · cases hops
  · cases hops
    exact ⟨hp, hdue, hout, hctx⟩

theorem ending_answered (h : Calm i v s) (half : Half) (hstate : s.state = half.working) (hc : v.answers = [c])
    (hexited : v.exited = false) : ending half (.answered c :: v.history) = some c.outcome := by
  obtain ⟨-, -, hout, hctx⟩ := h.answers_half half hstate hc hexited
  have hnone := h.unended half (by rw [hstate, Half.works_working]; exact decide_eq_true rfl)
  simp [ending, hnone, answersHalf, hout, hctx, Slot.half?_halfOp]

/-- The slot after its operation was answered, in the state that it goes to. -/
theorem answered_half (h : Calm i v s) (half : Half) (s' : Slot) (due : List Command) (hstate : s.state = half.working)
    (hc : v.answers = [c]) (hexited : v.exited = false) (hindex : s'.index = s.index) (hfd : s'.fd = s.fd)
    (hreceive : s'.receiveCell = s.receiveCell) (hsend : s'.sendCell = s.sendCell)
    (hattached : s'.attached = s.attached)
    (hstage : Stage i s' (Phase.answer (s.halfOp half i) c.result) due) :
    Sound i half.working.works due (({ v with answers := [] }.log (.answered c)).put s') s' := by
  have hlive : s.state ≠ .disconnected := by rw [hstate]; exact half.working_ne_disconnected
  obtain ⟨hp, -, hout, hctx⟩ := h.answers_half half hstate hc hexited
  have hnext : (Phase.busy (s.halfOp half i)).next (.answered c) =
    some (Phase.answer (s.halfOp half i) c.result) := if_pos hctx
  have hother : ∀ other, other ≠ half → told other (.answered c :: v.history) = told other v.history := by
    intro other hne
    simp [told, begun, ending, waiting, woken, answersHalf, hout, Slot.half?_halfOp, hne.symm]
  have ht := h.telling
  rw [hstate] at ht
  exact
    { here := rfl
      index := hindex.trans h.index
      small := fun _ => h.small (.inl hlive)
      fd := fun _ => by rw [hfd]; exact h.fd hlive
      stage := ⟨_, phaseFrom_cons hp hnext, hstage⟩
      answered := fun _ => .inl rfl
      telling := ht.ended hreceive hsend hother rfl rfl
      attached := by rw [hattached]; exact h.attached }

/-- A receive has ended. -/
theorem onReceive (h : Calm i v s) (hstate : s.state = .receiving) (hc : v.answers = [c]) (hexited : v.exited = false) :
    Leads R i (Run.onReceive i c.result : Run α Unit) ({ v with answers := [] }.log (.answered c))
      fun _ v' => ∃ s', Calm i v' s' := by
  obtain ⟨-, hcommands, -, -⟩ := h.answers_half .receive hstate hc hexited
  have hending := h.ending_answered .receive hstate hc hexited
  unfold Run.onReceive
  by_cases hresult : c.result ≤ 0
  · have hsound := h.answered_half .receive { s with state := .disconnecting, receivedLength := 0 }
      [.disconnect i] hstate hc hexited rfl rfl rfl rfl rfl
      (.inl ⟨congrArg Phase.rest? (if_pos hresult), rfl⟩)
    rw [if_pos hresult]
    refine Leads.bind (Leads.stepSlot_some (s := s) h.here ?_)
    rw [Slot.abortReceive_ok hstate]
    dsimp only
    split
    · rename_i hneg
      have hout : c.outcome = .error (.io (-c.result)) := if_pos hneg
      refine Leads.bind (Leads.errnoOf ?_ (.inr (R.lenient nofun)))
      exact Leads.bind (Leads.say (Leads.bind (Leads.bump (hsound.failed rfl hcommands hexited (hout ▸ hending)))))
    · rename_i hneg
      have hout : c.outcome = .ok 0 := by
        rw [Completion.outcome, if_neg hneg, Int32.le_antisymm hresult (Int32.not_lt.1 hneg)]
        rfl
      exact Leads.bind (Leads.bump (hsound.failed rfl hcommands hexited (hout ▸ hending)))
  · have hsound := h.answered_half .receive
      { s with state := .received, receivedLength := c.result.toInt.toNat } [] hstate hc hexited rfl rfl rfl rfl rfl
      ⟨if_neg hresult, rfl⟩
    have hout : c.outcome = .ok c.result.toInt.toNat :=
      if_neg fun hneg => hresult (Int32.le_of_lt hneg)
    rw [if_neg hresult]
    refine Leads.bind (Leads.stepSlot_some (s := s) h.here ?_)
    rw [Slot.finishReceive_ok hstate]
    exact Leads.bind (Leads.bump (Leads.bind (Leads.bump
      (hsound.delivered rfl hcommands hexited (hout ▸ hending)))))

/-- A send has ended. -/
theorem onSend (h : Calm i v s) (hstate : s.state = .sending) (hc : v.answers = [c]) (hexited : v.exited = false) :
    Leads R i (Run.onSend i c.result : Run α Unit) ({ v with answers := [] }.log (.answered c))
      fun _ v' => ∃ s', Calm i v' s' := by
  obtain ⟨-, hcommands, -, -⟩ := h.answers_half .send hstate hc hexited
  have hending := h.ending_answered .send hstate hc hexited
  unfold Run.onSend
  by_cases hresult : c.result < 0
  · have hsound := h.answered_half .send { s with state := .disconnecting } [.disconnect i] hstate hc
      hexited rfl rfl rfl rfl rfl (.inl ⟨congrArg Phase.rest? (if_pos hresult), rfl⟩)
    have hout : c.outcome = .error (.io (-c.result)) := if_pos hresult
    rw [if_pos hresult]
    refine Leads.bind (Leads.stepSlot_some (s := s) h.here ?_)
    rw [Slot.abortSend_ok hstate]
    refine Leads.bind (Leads.errnoOf ?_ (.inr (R.lenient nofun)))
    exact Leads.bind (Leads.say (Leads.bind (Leads.bump (hsound.failed rfl hcommands hexited (hout ▸ hending)))))
  · have hsound := h.answered_half .send { s with state := .sent } [] hstate hc hexited rfl rfl rfl rfl rfl
      ⟨if_neg hresult, rfl⟩
    have hout : c.outcome = .ok c.result.toInt.toNat := if_neg hresult
    rw [if_neg hresult]
    refine Leads.bind (Leads.stepSlot_some (s := s) h.here ?_)
    rw [Slot.finishSend_ok hstate]
    exact Leads.bind (Leads.bump (Leads.bind (Leads.bump
      (hsound.delivered rfl hcommands hexited (hout ▸ hending)))))

/-- A close has ended. -/
theorem onClose (h : Calm i v s) (hstate : s.state = .disconnecting) (hc : v.answers = [c])
    (hexited : v.exited = false) :
    Leads R i (Run.onClose i c.result : Run α Unit) ({ v with answers := [] }.log (.answered c))
      fun _ v' => ∃ s', Calm i v' s' := by
  have hlive : s.state ≠ .disconnected := by rw [hstate]; decide
  obtain ⟨p, op, hp, hstage, hops, hout, hctx⟩ := h.answers_one hc hexited
  rw [Stage, hstate] at hstage
  rcases hstage with ⟨hrests, -⟩ | ⟨rfl, hcommands⟩
  · rw [(Phase.of_rest? hrests).2] at hops
    cases hops
  cases hops
  have hnext : (Phase.closing (s.closeOp i)).next (.answered c) = some .free := if_pos hctx
  have htold : ∀ half, told half (.answered c :: v.history) = told half v.history := fun half => by
    simp [told, begun, ending, waiting, woken, answersHalf, hout, Slot.closeOp, Op.half?]
  have hcalm : ∀ (leases : UInt8) (places : Nat), ∃ s', Calm i
      { ({ v with answers := [] }.log (.answered c)).put { s.unbound with leases } with
        places } s' := fun leases places => ⟨{ s.unbound with leases },
    { here := rfl
      index := h.index
      small := fun _ => h.small (.inl hlive)
      fd := fun hne => absurd rfl hne
      stage := ⟨.free, phaseFrom_cons hp hnext, rfl, hcommands, rfl⟩
      answered := fun _ => .inl rfl
      telling := (h.telling.of_opened fun half => by rw [hstate]; cases half <;> rfl).congr rfl rfl htold
      attached := h.attached
      unended := fun half hh => by cases half <;> cases hh
      idle := fun hidle => by cases hidle }⟩
  have hsettle : Leads R i (Run.settleClose i : Run α Unit) ({ v with answers := [] }.log (.answered c))
      fun _ v' => ∃ s', Calm i v' s' := by
    refine Leads.bind (Leads.stepSlot_some (s := s) h.here ?_)
    rw [Slot.finishDisconnect_ok hstate]
    refine Leads.bind (Leads.bump (Leads.bind (Leads.say ?_)))
    refine Leads.release rfl (fun _ => R.lenient ?_) (fun _ _ => hcalm _ _) (fun _ => hcalm _ _)
      fun _ => .inr (hcalm _ _)
    rintro ⟨⟩
  rw [Run.onClose_eq]
  split
  · refine Leads.bind (Leads.errnoOf (Leads.bind (Leads.say hsettle)) (.inr (R.lenient ?_)))
    rintro ⟨⟩
  · exact hsettle

/-- A completion is taken to its slot. -/
theorem route (h : Calm i v s) (hc : v.answers = [c]) (hexited : v.exited = false) (hslot : c.ctx.slot = i) :
    Leads R i (Run.route c : Run α Unit) { v with answers := [] } fun _ v' => ∃ s', Calm i v' s' := by
  obtain ⟨p, op, hp, hstage, hops, -, -⟩ := h.answers_one hc hexited
  subst hslot
  refine Leads.bind (Leads.note (fun _ => rfl) (Leads.bind (Leads.slot?_some (s := s) h.here ?_)))
  dsimp only
  rw [Stage] at hstage
  cases hstate : s.state with
  | receiving => exact h.onReceive hstate hc hexited
  | sending => exact h.onSend hstate hc hexited
  | disconnecting => exact h.onClose hstate hc hexited
  | _ =>
    rw [hstate] at hstage
    obtain ⟨rfl, -⟩ := hstage
    cases hops

end Calm

/-! ## After the loop's end -/

/-- A command that is due after the loop's end is failed, and its connection is closed at once. -/
theorem Sound.failCommand {i : Nat} {v : View} {s : Slot} {c : Command} (h : Sound i s.state.works [c] v s)
    (hunended : ∀ half, s.state.works half = true → ending half v.history = none) (hcommands : v.commands = [])
    (hexited : v.exited = true) :
    Leads R i (Run.failCommand c : Run α Unit) v fun _ v' => ∃ s', Calm i v' s' ∧
      s'.state = .disconnected := by
  obtain ⟨p, hp, hstage⟩ := h.stage
  have hhalf : ∀ half : Half, s.state = half.working → c = half.command i →
      Leads R i (Run.failCommand c : Run α Unit) v fun _ v' => ∃ s', Calm i v' s' ∧
        s'.state = .disconnected := by
    rintro half hstate rfl
    rw [hstate] at h
    have hnone := hunended half (Half.works_iff.2 hstate)
    rw [Run.failCommand_half]
    refine Leads.bind (Leads.say (Leads.bind (Leads.stepSlot_some h.here ?_)))
    obtain ⟨n, habort⟩ := Slot.abortHalf_working hstate
    rw [habort]
    have hleft := h.leave (by rw [hstate]; exact half.working_ne_disconnected) (fun p hstage => by
      rcases (stage_working hstate).1 hstage with ⟨rfl, -⟩ | ⟨-, hdue⟩
      · rfl
      · cases hdue) n
    refine Leads.bind ((hleft.closeSlot rfl hcommands).mono fun _ v' hclosed => ?_)
    obtain ⟨s', hshut, hstate'⟩ := hclosed
    refine (hshut.settle (outcome_of_ending_none hnone) fun _ => hexited).mono fun _ _ hsettled => ?_
    obtain ⟨s'', hcalm, hsame⟩ := hsettled
    exact ⟨s'', hcalm, hsame.trans hstate'⟩
  rw [Stage] at hstage
  cases hstate : s.state with
  | accepting =>
    rw [hstate] at hstage
    cases hstage.2
    refine Leads.bind (Leads.say (Leads.bind (Leads.advance_ok h.here (List.mem_singleton.2 hstate) ?_)))
    have hleft := h.leave (by rw [hstate]; decide) (fun p hstage => ?_) s.receivedLength
    · refine (hleft.closeSlot rfl hcommands).mono fun _ v' hclosed => ?_
      obtain ⟨s', hshut, hover⟩ := hclosed
      exact ⟨s', hshut.calm fun half => by rw [hstate]; cases half <;> rfl, hover⟩
    · rw [Stage, hstate] at hstage
      rw [hstage.1]
      rfl
  | receiving =>
    rw [hstate] at hstage
    rcases hstage with ⟨-, hc⟩ | ⟨-, hc⟩
    · exact hhalf .receive hstate (List.head_eq_of_cons_eq hc)
    · cases hc
  | sending =>
    rw [hstate] at hstage
    rcases hstage with ⟨-, hc⟩ | ⟨-, hc⟩
    · exact hhalf .send hstate (List.head_eq_of_cons_eq hc)
    · cases hc
  | disconnecting =>
    rw [hstate] at hstage
    rcases hstage with ⟨-, hc⟩ | ⟨-, hc⟩
    · cases hc
      refine Leads.bind (Leads.say ((h.closeSlot hstate hcommands).mono fun _ v' hclosed => ?_))
      obtain ⟨s', hshut, hover⟩ := hclosed
      exact ⟨s', hshut.calm fun half => by rw [hstate]; cases half <;> rfl, hover⟩
    · cases hc
  | disconnected =>
    rw [hstate] at hstage
    cases hstage.2.1
  | _ =>
    rw [hstate] at hstage
    cases hstage.2

end SlotServer
