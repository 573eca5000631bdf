import SlotServer.Proofs.Handles

/-!
# Sockets that come and go under an honest kernel

A slot is at rest before and after a socket is bound to it, its connection is drained, or it is forced free at the end.

- `Resting.startAccept`: a socket is bound, before the loop's end or after it;
- `Calm.drainSlot`: a connection is drained;
- `Calm.forceSlot`: a slot is forced free, once the kernel's side was let go.
-/

namespace SlotServer

variable {α : Type} {R : Rely} [R.Lenient]

/-- A socket is bound to a slot that was free. Where there is no loop any more, it is closed at once. -/
theorem Calm.startAccept {i : Nat} {v : View} {s : Slot} (hcalm : Calm i v s)
    (hover : v.exited = true → s.state = .disconnected) (hsmall : i < 0x100000000) {fd : Int} (hfd : 0 ≤ fd)
    (peer : Option Net.SocketAddress) (hothers : v.exited = true → ∀ j v', R.others j v' → v'.commands = []) :
    Leads R i (Run.startAccept i fd peer : Run α (Except Error Unit)) v fun _ v' => Resting i v' := by
  refine Leads.bind (Leads.slot?_some hcalm.here (Leads.bind (Leads.stepSlot_some hcalm.here ?_)))
  by_cases hstate : s.state = .disconnected
  · obtain ⟨p, hp, hstage⟩ := hcalm.stage
    rw [Stage, hstate] at hstage
    obtain ⟨rfl, hcommands, -⟩ := hstage
    have hnext : Phase.free.next (.bound i fd) = some (.idle fd none) := if_pos hfd
    have hwork : ∀ half, SlotState.accepting.works half = s.state.works half := by rw [hstate]; rintro ⟨⟩ <;> rfl
    rw [Slot.startAccept_ok hstate]
    refine Leads.bind (Leads.note (fun _ => rfl) (Leads.bind ?_))
    have hsound : Sound i SlotState.accepting.works [.accept i] ((v.put (s.withSocket fd peer)).log (.bound i fd))
        (s.withSocket fd peer) :=
      { here := rfl
        index := hcalm.index
        small := fun _ => hsmall
        fd := fun _ => hfd
        stage := ⟨_, phaseFrom_cons hp hnext, rfl, rfl⟩
        answered := hcalm.answered
        telling := (hcalm.telling.of_opened fun half => (hwork half).symm).congr rfl rfl fun _ => rfl
        attached := fun hattached => by cases hattached }
    cases hexited : v.exited with
    | false =>
      have hdue : v.commands ++ [.accept i] = [.accept i] := by rw [hcommands, List.nil_append]
      have hcalm' : Calm i (((v.put (s.withSocket fd peer)).log (.bound i fd)).command (.accept i))
          (s.withSocket fd peer) :=
        { hsound with
          stage := ⟨_, phaseFrom_cons hp hnext, rfl, hdue⟩
          unended := fun half hh => by cases half <;> cases hh
          idle := fun hidle => by cases hidle }
      refine Leads.submit rfl hexited (.inr (R.lenient ?_)) (Leads.pure (.inl ⟨_, hcalm', fun he => ?_⟩))
      · rintro ⟨⟩
      · exact absurd (hexited.symm.trans he) Bool.false_ne_true
    | true =>
      have hfail : Leads R i (Run.failCommand (.accept i) : Run α Unit) _ _ :=
        Sound.failCommand (s := s.withSocket fd peer) hsound (fun half hh => by cases half <;> cases hh) hcommands
          hexited
      refine Leads.submit_exited rfl hexited (hothers hexited) hcommands ?_
      refine hfail.mono fun _ v' hfailed => Leads.pure ?_
      obtain ⟨s', hcalm', hover'⟩ := hfailed
      exact .inl ⟨s', hcalm', fun _ => hover'⟩
  · rw [Slot.startAccept_error hstate, View.put_self hcalm.here]
    have hplaces : ∀ places, Resting i { v with places } := fun places =>
      .inl ⟨s, { hcalm with small := fun _ => hsmall }, hover⟩
    refine Leads.bind (Leads.bind (Leads.pushFree ?_ (.inr ?_)))
    · exact Leads.pure (Leads.pure (hplaces _))
    · exact Leads.pure (Leads.pure (hplaces _))

/-- A slot that had a place in the queue of free slots is given a socket. -/
theorem Resting.startAccept {i : Nat} {v : View} (h : Resting i v) (hplaces : 0 < v.places) {fd : Int} (hfd : 0 ≤ fd)
    (peer : Option Net.SocketAddress) (hothers : v.exited = true → ∀ j v', R.others j v' → v'.commands = []) :
    Leads R i (Run.startAccept i fd peer : Run α (Except Error Unit)) { v with places := v.places - 1 }
      fun _ v' => Resting i v' := by
  rcases h with ⟨s, hcalm, hover⟩ | habsent
  · have hsmall := hcalm.small (.inr (.inl hplaces))
    have hcalm' : Calm i { v with places := v.places - 1 } s := { hcalm with small := fun _ => hsmall }
    exact hcalm'.startAccept hover hsmall hfd peer hothers
  · refine Leads.bind (Leads.slot? ?_)
    dsimp only
    rw [habsent.slot]
    exact Leads.pure (.inr { habsent with slot := rfl })

namespace Calm

variable {i : Nat} {v : View} {s : Slot}

/-- A connection is drained: it is closed where it is idle, and its socket is shut where an operation is under way. -/
theorem drainSlot (h : Calm i v s) (hexited : v.exited = false) :
    Leads R i (Run.drainSlot i : Run α Unit) v fun _ v' => Resting i v' := by
  have hlive : v.exited = true → s.state = .disconnected := fun he => absurd (hexited.symm.trans he) Bool.false_ne_true
  have hidle : s.state.isIdle = true → Leads R i (Run.disconnect i : Run α Unit) v
      fun _ v' => Resting i v' := by
    intro hidle
    obtain ⟨hcommands, -⟩ := h.of_idle hidle
    have hsound : Sound i s.state.works [] v s := by rw [← hcommands]; exact h.toSound
    refine ((hsound.disconnect hidle hcommands hexited).fixed).mono fun _ v' ⟨⟨s', hshut⟩, hsame, _⟩ => ?_
    exact .inl ⟨s', hshut.calm (SlotState.works_of_isIdle hidle),
      fun he => absurd (hexited.symm.trans (hsame.symm.trans he)) Bool.false_ne_true⟩
  have hwork : ∀ half : Half, s.state = half.working → Leads R i (do
      Run.record (.hungUp i s.fd)
      Run.modifyKernel fun k => { k with sockets := k.sockets.hangUp s.fd } : Run α Unit) v
        fun _ v' => Resting i v' := by
    intro half hstate
    obtain ⟨p, hp, hstage⟩ := h.stage
    have hnext : p.next (.hungUp i s.fd) = some p := by
      rcases (stage_working hstate).1 hstage with ⟨rfl, -⟩ | ⟨rfl, -⟩
      · exact if_pos rfl
      · exact if_pos (Slot.fd_halfOp s half i).symm
    refine Leads.bind (Leads.note (fun _ => rfl) (Leads.modifyKernel (fun _ => rfl) (.inl ⟨s, ?_, hlive⟩)))
    exact { h.toSound.log hp hnext hstage (fun _ => rfl) rfl with
      unended := h.unended
      idle := h.idle }
  refine Leads.bind (Leads.slot?_some h.here ?_)
  dsimp only
  cases hstate : s.state with
  | accepted | received | sent => exact hidle (by rw [hstate]; rfl)
  | receiving => exact hwork .receive hstate
  | sending => exact hwork .send hstate
  | _ => exact Leads.pure (.inl ⟨s, h, hlive⟩)

end Calm

/-! ## Forcing a slot free -/

/-- A slot that was forced free, whose record has come to a phase. The cells of the halves in `opened` are to be
completed yet. -/
structure Freed (i : Nat) (opened : Half → Bool) (p : Phase) (v : View) (s : Slot) : Prop where
  here : v.slot? = some s
  index : s.index = low32 i
  small : i < 0x100000000
  state : s.state = .disconnected
  fd : s.fd = -1
  commands : v.commands = []
  exited : v.exited = true
  phase : phase v.history = some p
  telling : Telling opened true v.history s
  attached : s.attached = true → 0 < v.handles

namespace Freed

variable {i : Nat} {half : Half} {opened : Half → Bool} {p : Phase} {v : View} {s : Slot}

omit [R.Lenient] in
/-- Who waited for the operation that was under way is told that the connection is closed. -/
theorem complete (h : Freed i half.working.works p v s) (hnone : ending half v.history = none) :
    Leads R i (Run.completeCell ⟨i, half⟩ (Slot.completeHalf half (.error .connectionClosed)) : Run α Unit) v
      fun _ v' => ∃ s', Freed i (fun _ => false) p v' s' := by
  refine Leads.complete h.here (by rw [h.exited]; exact h.telling) (Half.works_iff.2 rfl) (outcome_of_ending_none hnone)
    (fun _ => h.exited) fun c ht => ?_
  rw [View.wake_put]
  rw [h.exited] at ht
  refine ⟨Connection.setCell s c half, ?_⟩
  exact
    { here := rfl
      index := by rw [← h.index]; cases half <;> rfl
      small := h.small
      state := by rw [Slot.state_setCell]; exact h.state
      fd := by rw [Slot.fd_setCell]; exact h.fd
      commands := h.commands
      exited := h.exited
      phase := (phase_wokenBy ..).trans h.phase
      telling := ht.of_opened fun other => by cases other <;> cases half <;> rfl
      attached := by rw [Slot.attached_setCell]; exact h.attached }

/-- The socket is closed at once. -/
theorem close {fd : Int} (h : Freed i opened (.doomed fd) v s) :
    Freed i opened .free (v.log (.closed (some i) fd)) s :=
  { h with
    phase := phaseFrom_cons h.phase (if_pos (.inr rfl))
    telling := h.telling.congr rfl rfl fun _ => rfl }

/-- The lease of the connection is given back. -/
theorem release (h : Freed i (fun _ => false) .free v s) :
    Leads R i (Run.release i : Run α Unit) v fun _ v' => Resting i v' := by
  have hresting : ∀ (leases : UInt8) (places : Nat), Resting i { v.put { s with leases } with places } :=
    fun leases places => .inl ⟨_,
      { here := rfl
        index := h.index
        small := fun _ => h.small
        fd := fun hne => absurd h.state hne
        stage := ⟨_, h.phase, by rw [Stage, h.state]; exact ⟨rfl, h.commands, h.fd⟩⟩
        answered := fun he => absurd (he.symm.trans h.exited) Bool.false_ne_true
        telling := (h.exited.symm ▸ h.telling.of_opened fun half => by rw [h.state]; cases half <;> rfl :
          Telling s.state.works v.exited v.history s).congr rfl rfl fun _ => rfl
        attached := h.attached
        unended := fun half hh => by rw [h.state] at hh; cases half <;> cases hh
        idle := fun hi => by rw [h.state] at hi; cases hi }, fun _ => h.state⟩
  refine Leads.release h.here (fun _ => R.lenient ?_) (fun _ _ => hresting _ _) (fun _ => hresting _ _)
    fun _ => .inr (hresting _ _)
  rintro ⟨⟩

end Freed

/-- Where nothing is due any more, a slot is left with its socket when the kernel's side is let go, unless the kernel
has its close. -/
theorem Stage.next_released {i : Nat} {s : Slot} {p : Phase} (h : Stage i s p []) (hlive : s.state ≠ .disconnected) :
    p.next .released = some (if s.state = .disconnecting then .free else .doomed s.fd) := by
  rw [Stage] at h
  cases hstate : s.state <;> rw [hstate] at h
  case disconnected => exact absurd hstate hlive
  case accepting => cases h.2
  case disconnecting =>
    rcases h with ⟨-, hdue⟩ | ⟨rfl, -⟩
    · cases hdue
    · rfl
  case accepted | received | sent =>
    obtain ⟨rfl, -⟩ := h
    rfl
  case receiving =>
    rcases h with ⟨rfl, -⟩ | ⟨rfl, -⟩
    · rfl
    · exact congrArg (fun fd => some (Phase.doomed fd)) (Slot.fd_halfOp s .receive i)
  case sending =>
    rcases h with ⟨rfl, -⟩ | ⟨rfl, -⟩
    · rfl
    · exact congrArg (fun fd => some (Phase.doomed fd)) (Slot.fd_halfOp s .send i)

/-- A slot is forced free, once the kernel's side was let go. -/
theorem Calm.forceSlot {i : Nat} {v : View} {s : Slot} (h : Calm i v s) (hcommands : v.commands = [])
    (hexited : v.exited = true) :
    Leads R i (Run.forceSlot i : Run α Bool) (v.log .released) fun _ v' => Resting i v' := by
  obtain ⟨p, hp, hstage⟩ := h.stage
  rw [hcommands] at hstage
  have hfreed : s.state ≠ .disconnected → Freed i s.state.works
      (if s.state = .disconnecting then .free else .doomed s.fd) ((v.log .released).put s.unbound) s.unbound :=
    fun hlive =>
      { here := rfl
        index := h.index
        small := h.small (.inl hlive)
        state := rfl
        fd := rfl
        commands := hcommands
        exited := hexited
        phase := phaseFrom_cons hp (hstage.next_released hlive)
        telling := (hexited ▸ h.telling).congr rfl rfl fun _ => rfl
        attached := h.attached }
  -- what follows once whoever waited was told
  have hsettle : s.state ≠ .disconnected → ∀ {v' s'},
      Freed i (fun _ => false) (if s.state = .disconnecting then .free else .doomed s.fd) v' s' →
        Leads R i (Run.settleForce i s : Run α Bool) v' fun _ v'' => Resting i v'' := by
    intro hlive v' s' hf
    refine Leads.settleForce (fun hclosing => ?_) fun hclosing => ?_
    · rw [if_neg hclosing] at hf
      rw [h.index_eq hlive, View.cut, if_pos (h.fd hlive)]
      exact hf.close.release
    · rw [if_pos hclosing] at hf
      rw [h.index_eq hlive]
      exact hf.release
  refine Leads.forceSlot (v := v.log .released) h.here (fun hstate => ?_) (fun half hstate => ?_) fun hlive hnone => ?_
  · rw [Stage, hstate] at hstage
    obtain ⟨rfl, -, hfd⟩ := hstage
    exact .inl ⟨s,
      { here := h.here
        index := h.index
        small := h.small
        fd := h.fd
        stage := ⟨.free, phaseFrom_cons hp rfl, by rw [Stage, hstate]; exact ⟨rfl, hcommands, hfd⟩⟩
        answered := fun he => absurd (he.symm.trans hexited) Bool.false_ne_true
        telling := h.telling.congr rfl rfl fun _ => rfl
        attached := h.attached
        unended := h.unended
        idle := h.idle }, fun _ => hstate⟩
  · have hlive : s.state ≠ .disconnected := by rw [hstate]; exact half.working_ne_disconnected
    have hf := hfreed hlive
    have hnone := h.unended half (Half.works_iff.2 hstate)
    rw [show s.state.works = half.working.works from congrArg SlotState.works hstate] at hf
    exact (hf.complete hnone).mono fun _ v' hdone => hdone.elim fun s' hf' => hsettle hlive hf'
  · exact hsettle hlive { hfreed hlive with telling := (hfreed hlive).telling.of_opened hnone }

end SlotServer
