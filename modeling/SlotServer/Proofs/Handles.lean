import SlotServer.Proofs.Honest

/-!
# Handles and acceptors under an honest kernel

What a connection's handle and an acceptor ask of a worker leaves the slot at rest (`Resting`), before the loop's end
and after it.

- `Resting.deed`: every call of a handle;
- `Resting.startAccept`: a socket is bound to a slot;
- `Sound.execute`: with this, the dispatch loop may carry out any command.
-/

namespace SlotServer

variable {α β : Type} {R : Rely} [R.Lenient]

/-- There is no such slot, and nothing of one. -/
structure View.Absent (v : View) : Prop where
  slot : v.slot? = none
  commands : v.commands = []
  answers : v.answers = []
  handles : v.handles = 0
  silent : outstanding v.history = []
  unbound : ∀ e ∈ v.history, e.isBound = false

/-- A slot between two programs: it is at rest, and after the loop's end it is free of its socket. -/
def Resting (i : Nat) (v : View) : Prop :=
  (∃ s, Calm i v s ∧ (v.exited = true → s.state = .disconnected)) ∨ v.Absent

namespace Calm

variable {i : Nat} {half : Half} {v : View} {s s' : Slot}

/-- An idle connection has nothing due. -/
theorem of_idle (h : Calm i v s) (hidle : s.state.isIdle = true) :
    v.commands = [] ∧
      ∃ last, phase v.history = some (.idle s.fd last) ∧ (s.state ≠ .received → last ≠ some .receive) := by
  obtain ⟨p, hp, hstage⟩ := h.stage
  rw [Stage] at hstage
  cases hs : s.state <;> rw [hs] at hstage hidle
  case accepted | sent =>
    obtain ⟨rfl, hdue⟩ := hstage
    exact ⟨hdue, _, hp, fun _ hlast => by cases hlast⟩
  case received =>
    obtain ⟨rfl, hdue⟩ := hstage
    exact ⟨hdue, _, hp, fun hne => absurd rfl hne⟩
  all_goals cases hidle

/-- An operation of an idle connection begins. -/
theorem begin (h : Calm i v s) (hstart : s.state ∈ Slot.startsFrom half) (length : Nat) :
    Calm i (v.begin i half (s.begin length half)) (s.begin length half) := by
  have hidle := Slot.isIdle_of_startsFrom hstart
  have hlive := SlotState.ne_disconnected_of_isIdle hidle
  obtain ⟨hcommands, last, hp, hlast⟩ := h.of_idle hidle
  have hnext : (Phase.idle s.fd last).next (.began ⟨i, half⟩) = some (.due (s.begin length half).fd half) := by
    rw [Slot.fd_begin]
    refine if_neg fun ⟨hl, hh⟩ => hlast (fun hs => ?_) hl
    obtain rfl : half = .receive := hh
    rw [hs] at hstart
    exact absurd hstart (by decide)
  have hwork : ∀ other, (s.begin length half).state.works other = decide (other = half) := by
    rw [Slot.state_begin]
    exact half.works_working
  have hwaits : (told half (.began ⟨i, half⟩ :: v.history)).Waits {} := by
    have hself : told half (.began ⟨i, half⟩ :: v.history) = ⟨true, none, none, []⟩ := by
      simp [told, begun, ending, waiting, woken]
    rw [hself]
    exact ⟨rfl, rfl, rfl⟩
  have htold : ∀ other, other ≠ half → told other (.began ⟨i, half⟩ :: v.history) = told other v.history :=
    fun other hne => by simp [told, begun, ending, waiting, woken, hne.symm]
  have htelling : Telling (s.begin length half).state.works v.exited (.began ⟨i, half⟩ :: v.history)
      (s.begin length half) := by
    refine ⟨fun other ho => ?_, fun other ho => ?_⟩
    · obtain rfl := of_decide_eq_true ((hwork other).symm.trans ho)
      rw [Slot.cell_begin_self]
      exact hwaits
    · have hne := of_decide_eq_false ((hwork other).symm.trans ho)
      rw [Slot.cell_begin_of_ne s length hne, htold other hne]
      exact h.telling.tells other (SlotState.works_of_isIdle hidle other)
  exact
    { here := rfl
      index := (s.index_begin length half).trans h.index
      small := fun _ => h.small (.inl hlive)
      fd := fun _ => by rw [Slot.fd_begin]; exact h.fd hlive
      stage := ⟨_, phaseFrom_cons hp hnext, (stage_working (s.state_begin length half)).2
        (.inl ⟨rfl, congrArg (· ++ _) hcommands⟩)⟩
      answered := h.answered
      telling := htelling
      attached := by rw [Slot.attached_begin]; exact h.attached
      unended := fun other ho => by
        obtain rfl := of_decide_eq_true ((hwork other).symm.trans ho)
        exact if_pos rfl
      idle := fun hi => by
        rw [Slot.state_begin, half.isIdle_working] at hi
        cases hi }

/-- Only a slot without a socket is at rest after the loop's end. -/
theorem exited_of_live (hover : v.exited = true → s.state = .disconnected) (hlive : s.state ≠ .disconnected) :
    v.exited = false := by
  cases hexited : v.exited with
  | false => rfl
  | true => exact absurd (hover hexited) hlive

theorem receive (h : Calm i v s) (hover : v.exited = true → s.state = .disconnected) :
    Leads R i (Deed.run i .receive : Run α Unit) v fun _ v' => Resting i v' := by
  refine Leads.bind (Leads.receive h.here (fun hstart => ?_) fun _ => Leads.pure (.inl ⟨s, h, hover⟩))
  have hexited := exited_of_live hover (SlotState.ne_disconnected_of_isIdle (Slot.isIdle_of_startsFrom hstart))
  exact ⟨hexited, .inr (R.lenient nofun), Leads.pure (.inl ⟨_, h.begin hstart 0, fun he => by
    rw [show v.exited = true from he] at hexited; cases hexited⟩)⟩

theorem send (h : Calm i v s) (hover : v.exited = true → s.state = .disconnected) (length : Nat) :
    Leads R i (Deed.run i (.send length) : Run α Unit) v fun _ v' => Resting i v' := by
  refine Leads.bind (Leads.send h.here (fun _ hstart => ?_) fun _ _ => Leads.pure (.inl ⟨s, h, hover⟩))
  have hexited := exited_of_live hover (SlotState.ne_disconnected_of_isIdle (Slot.isIdle_of_startsFrom hstart))
  exact ⟨hexited, .inr (R.lenient nofun), Leads.pure (.inl ⟨_, h.begin hstart length, fun he => by
    rw [show v.exited = true from he] at hexited; cases hexited⟩)⟩

theorem setCell (h : Calm i v s) {c : Cell} {h' : List Event} (hphase : phase h' = phase v.history)
    (hout : outstanding h' = outstanding v.history)
    (hending : ∀ half, ending half h' = ending half v.history)
    (ht : Telling s.state.works v.exited h' (Connection.setCell s c half)) :
    Calm i { v with slot? := some (Connection.setCell s c half), history := h' } (Connection.setCell s c half) :=
  { h.toSound.setCell hphase hout (ht.of_opened fun other => by rw [Slot.state_setCell]) with
    unended := fun other ho => (hending other).trans (h.unended other (by rw [Slot.state_setCell] at ho; exact ho))
    idle := by rw [Slot.state_setCell, Slot.attached_setCell]; exact h.idle }

/-- A poll of an open cell leaves its waker. Of the others, one that tells of an operation stays as it is. -/
theorem telling_poll (h : Calm i v s) (half : Half) (waker : Waker) :
    (∃ c, (Connection.cell s half).poll waker = (.pending, c) ∧
      Telling s.state.works v.exited (.awaited ⟨i, half⟩ waker :: v.history) (Connection.setCell s c half)) ∨
    ∃ o c, (Connection.cell s half).poll waker = (.ready o, c) ∧
      Telling s.state.works v.exited v.history (Connection.setCell s c half) := by
  have hself : told half (.awaited ⟨i, half⟩ waker :: v.history) =
      { told half v.history with waiting := some waker } := by
    simp [told, begun, ending, waiting, woken]
  have hother : ∀ other, other ≠ half → told other (.awaited ⟨i, half⟩ waker :: v.history) = told other v.history :=
    fun other hne => by simp [told, begun, ending, waiting, woken, hne.symm]
  -- what is left to show is about the half that is polled
  have hrest : ∀ (h' : List Event) (c : Cell), (∀ other, other ≠ half → told other h' = told other v.history) →
      (s.state.works half = true → (told half h').Waits c) →
      (s.state.works half = false → (told half h').begun = true → (told half h').Tells v.exited c) →
      Telling s.state.works v.exited h' (Connection.setCell s c half) := by
    intro h' c hsame hwaits htells
    refine ⟨fun other ho => ?_, fun other ho => ?_⟩
    · by_cases hne : other = half
      · subst hne
        rw [Slot.cell_setCell_self]
        exact hwaits ho
      · rw [Slot.cell_setCell_of_ne s c hne, hsame other hne]
        exact h.telling.waits other ho
    · by_cases hne : other = half
      · subst hne
        rw [Slot.cell_setCell_self]
        exact htells ho
      · rw [Slot.cell_setCell_of_ne s c hne, hsame other hne]
        exact h.telling.tells other ho
  cases hworks : s.state.works half with
  | true =>
    obtain ⟨c, hpoll, hwaits⟩ := (h.telling.waits half hworks).poll waker
    exact .inl ⟨c, hpoll, hrest _ c hother (fun _ => hself ▸ hwaits) fun hno => by rw [hworks] at hno; cases hno⟩
  | false =>
    cases hbegun : (told half v.history).begun with
    | true =>
      have htells := h.telling.tells half hworks hbegun
      exact .inr ⟨_, _, htells.poll waker, hrest _ _ (fun _ _ => rfl) (fun hyes => by rw [hworks] at hyes; cases hyes)
        fun _ _ => htells⟩
    | false =>
      have hnone : ∀ h' c, (told half h').begun = false →
          (∀ other, other ≠ half → told other h' = told other v.history) →
          Telling s.state.works v.exited h' (Connection.setCell s c half) := fun h' c hb hsame =>
        hrest h' c hsame (fun hyes => by rw [hworks] at hyes; cases hyes) fun _ hyes => by rw [hb] at hyes; cases hyes
      cases hpoll : (Connection.cell s half).poll waker with
      | mk answer c =>
        cases answer with
        | pending => exact .inl ⟨c, rfl, hnone _ c (by rw [hself]; exact hbegun) hother⟩
        | ready o => exact .inr ⟨o, c, rfl, hnone _ c hbegun fun _ _ => rfl⟩

omit [R.Lenient] in
theorem poll (h : Calm i v s) (hover : v.exited = true → s.state = .disconnected) (half : Half) (waker : Waker) :
    Leads R i (Deed.run i (.poll half waker) : Run α Unit) v fun _ v' => Resting i v' := by
  refine Leads.bind (Leads.bind (Leads.slot?_some h.here ?_))
  dsimp only
  rcases h.telling_poll half waker with ⟨c, hpoll, ht⟩ | ⟨o, c, hpoll, ht⟩
  · rw [hpoll]
    refine Leads.bind (Leads.setSlot (by rw [h.here]; rfl) ?_)
    refine Leads.bind (Leads.note (fun _ => rfl) ?_)
    refine Leads.pure (Leads.pure ?_)
    refine .inl ⟨_, h.setCell (Option.bind_fun_some _) rfl (fun _ => rfl) ht, fun he => ?_⟩
    rw [Slot.state_setCell]
    exact hover he
  · rw [hpoll]
    refine Leads.bind (Leads.setSlot (by rw [h.here]; rfl) ?_)
    refine Leads.pure (Leads.pure ?_)
    refine .inl ⟨_, h.setCell rfl rfl (fun _ => rfl) ht, fun he => ?_⟩
    rw [Slot.state_setCell]
    exact hover he

/-- The handle is gone. An idle connection is to be closed. -/
theorem drop (h : Calm i v s) (hover : v.exited = true → s.state = .disconnected) (hheld : 0 < v.handles) :
    Leads R i (Deed.run i .drop : Run α Unit) v fun _ v' => Resting i v' := by
  have hsmall : i < 0x100000000 := h.small (.inr (.inr hheld))
  -- the leases and the places do not matter
  have hrelease : ∀ {v' : View} {s' : Slot}, v'.slot? = some s' →
      (∀ (leases : UInt8) (places : Nat),
        Calm i { v'.put { s' with leases } with places } { s' with leases }) →
      (v'.exited = true → s'.state = .disconnected) →
      Leads R i (Run.release i : Run α Unit) v' fun _ v'' => Resting i v'' := by
    intro v' s' hs' hcalm hover'
    refine Leads.release hs' (fun _ => R.lenient nofun) (fun _ _ => ?_) (fun _ => ?_) fun _ => .inr ?_
    · exact .inl ⟨_, hcalm _ _, hover'⟩
    · exact .inl ⟨_, hcalm _ _, hover'⟩
    · exact .inl ⟨_, hcalm _ _, hover'⟩
  refine Leads.bind (Leads.letGo (Leads.bind (Leads.slot?_some (s := s) h.here ?_)))
  refine Leads.bind (Leads.modifySlot ?_)
  rw [show ({ v with handles := v.handles - 1 } : View).slot? = some s from h.here]
  refine Leads.bind (Leads.stepSlot_some (s := s.detach) rfl ?_)
  by_cases hidle : s.state.isIdle = true
  · have hmem := SlotState.mem_of_isIdle hidle
    have hexited := exited_of_live hover (SlotState.ne_disconnected_of_isIdle hidle)
    obtain ⟨hcommands, last, hp, -⟩ := h.of_idle hidle
    rw [Slot.startDisconnect, Slot.advance_of_mem (s := s.detach) hmem]
    have hfull : R.faults .inboxStalled := R.lenient nofun
    refine Leads.bind (Leads.submit rfl hexited (.inr hfull) (hrelease rfl (fun leases places => ?_) fun he => ?_))
    · exact
        { here := rfl
          index := h.index
          small := fun _ => hsmall
          fd := fun _ => h.fd (SlotState.ne_disconnected_of_isIdle hidle)
          stage := ⟨_, hp, .inl ⟨rfl, congrArg (· ++ _) hcommands⟩⟩
          answered := h.answered
          telling := (h.telling.of_opened fun half => by
            rw [SlotState.works_of_isIdle hidle]; cases half <;> rfl).congr rfl rfl fun _ => rfl
          attached := nofun
          unended := fun half hh => by cases half <;> cases hh
          idle := nofun }
    · exact absurd (hexited.symm.trans he) Bool.false_ne_true
  · have hmem : s.detach.state ∉ [SlotState.accepted, .received, .sent] := fun hm => hidle (SlotState.isIdle_of_mem hm)
    rw [Slot.startDisconnect, Slot.advance_of_not_mem (s := s.detach) hmem]
    refine hrelease rfl (fun leases places => ?_) hover
    exact
      { here := rfl
        index := h.index
        small := fun _ => hsmall
        fd := h.fd
        stage := h.stage
        answered := h.answered
        telling := h.telling.congr rfl rfl fun _ => rfl
        attached := nofun
        unended := h.unended
        idle := fun hi => absurd hi hidle }

end Calm

/-- Every call of a handle leaves the slot at rest. -/
theorem Resting.deed {i : Nat} {v : View} (h : Resting i v) (hheld : 0 < v.handles) (d : Deed) :
    Leads R i (d.run i : Run α Unit) v fun _ v' => Resting i v' := by
  rcases h with ⟨s, hcalm, hover⟩ | habsent
  · have hsame : Resting i v := .inl ⟨s, hcalm, hover⟩
    have hbeyond : R.faults .addOverflow ∧ R.faults .beyondRegion := ⟨R.lenient nofun, R.lenient nofun⟩
    cases d with
    | receive => exact hcalm.receive hover
    | send length => exact hcalm.send hover length
    | poll half waker => exact hcalm.poll hover half waker
    | readReceived => exact Leads.bind (Leads.received hcalm.here (fun _ => Leads.pure hsame) (.inr hbeyond))
    | readSend => exact Leads.bind (Leads.sendBuffer hcalm.here (fun _ => Leads.pure hsame) (.inr hbeyond))
    | fill data => exact Leads.bind (Leads.fill hcalm.here (fun _ => Leads.pure hsame) (.inr hbeyond))
    | drop => exact hcalm.drop hover hheld
  · exact absurd habsent.handles (Nat.ne_of_gt hheld)

/-! ## Commands -/

namespace Sound

variable {i : Nat} {v : View} {s : Slot} {serve : Run.Serve α}

/-- What becomes of the connection is up to its handler. -/
theorem takeOver (hserve : Modest serve) (h : Sound i s.state.works [.accept i] v s) (hstate : s.state = .accepting)
    (hcommands : v.commands = []) (hexited : v.exited = false) (peer : Option Net.SocketAddress) :
    Leads R i (Run.takeOver serve i peer : Run α Unit) v fun _ v' => Resting i v' := by
  have hlive : s.state ≠ .disconnected := by rw [hstate]; decide
  obtain ⟨p, hp, hstage⟩ := h.stage
  rw [Stage, hstate] at hstage
  obtain ⟨rfl, -⟩ := hstage
  refine Leads.bind (Leads.advance_ok h.here (List.mem_singleton.2 hstate) ?_)
  refine Leads.bind (Leads.bump (Leads.bind (Leads.say (Leads.bind (Leads.bind (Leads.modifySlot ?_))))))
  refine Leads.takeHold (Leads.bind (Leads.note (fun _ => rfl) (Leads.bind ?_)))
  have hcalm : Calm i (View.log { v with
      slot? := some ({ s with state := .accepted } : Slot).attach, handles := v.handles + 1 } (.served i))
      ({ s with state := .accepted } : Slot).attach :=
    { here := rfl
      index := h.index
      small := fun _ => h.small (.inl hlive)
      fd := fun _ => h.fd hlive
      stage := ⟨_, phaseFrom_cons hp rfl, rfl, hcommands⟩
      answered := h.answered
      telling := (h.telling.of_opened fun half => by rw [hstate]; cases half <;> rfl).congr rfl rfl fun _ => rfl
      attached := fun _ => Nat.succ_pos _
      unended := fun half hh => by cases half <;> cases hh
      idle := fun _ => rfl }
  have hkeeps : ∀ (d : Deed) (v' : View), Resting i v' ∧ v'.exited = v.exited → 0 < v'.handles →
      Leads R i (d.run i : Run α Unit) v' fun _ v'' => Resting i v'' ∧ v''.exited = v.exited := by
    rintro d v' ⟨hrest, hsame⟩ hheld
    refine (hrest.deed hheld d).fixed.mono fun _ v'' hdone => ?_
    exact ⟨hdone.1, hdone.2.1.trans hsame⟩
  refine Leads.serve hserve hkeeps ⟨.inl ⟨_, hcalm, fun he => absurd (hexited.symm.trans he) Bool.false_ne_true⟩, rfl⟩
    (Nat.succ_pos _) fun answer v' hdone => ?_
  cases answer with
  | ok _ => exact Leads.pure hdone.1
  | error e => exact Leads.bind (Leads.say (Leads.bump hdone.1))

theorem onAccept (hserve : Modest serve) (h : Sound i s.state.works [.accept i] v s) (hstate : s.state = .accepting)
    (hcommands : v.commands = []) (hexited : v.exited = false) :
    Leads R i (Run.onAccept serve i : Run α Unit) v fun _ v' => Resting i v' := by
  have hnone : ∀ half, s.state.works half = false := by rw [hstate]; rintro ⟨⟩ <;> rfl
  -- a socket that is given up
  have habandon : ∀ v', v'.exited = v.exited → v'.commands = [] → Sound i s.state.works [.accept i] v' s →
      Leads R i (do
        Run.abandon i
        return () : Run α Unit) v' fun _ v'' => Resting i v'' := by
    intro v' hsame hcommands' h'
    have hexited' := hsame.trans hexited
    refine Leads.bind (((h'.abandon hstate hcommands' hexited').fixed).mono fun _ v'' hshut => Leads.pure ?_)
    obtain ⟨⟨s', hshut⟩, hsame', -⟩ := hshut
    exact .inl ⟨s', hshut.calm hnone, fun he => absurd (hexited'.symm.trans (hsame'.symm.trans he)) Bool.false_ne_true⟩
  refine Leads.bind (Leads.slot?_some h.here (Leads.bind (Leads.worker fun w _ _ => ?_)))
  dsimp only
  split
  · exact habandon v rfl hcommands h
  split
  · -- small packets are to be sent at once
    obtain ⟨p, hp, hstage⟩ := h.stage
    have hidle : p = .idle s.fd none := by
      rw [Stage, hstate] at hstage
      exact hstage.1
    have hlog : Sound i s.state.works [.accept i] (v.log (.hastened i s.fd)) s := by
      have hnext : p.next (.hastened i s.fd) = some p := by
        rw [hidle]
        exact if_pos rfl
      exact h.log hp hnext hstage (fun _ => rfl) rfl
    refine Leads.bind (Leads.setNoDelay fun answer => ?_)
    cases answer with
    | error e =>
      exact Leads.bind (Leads.say (Leads.bind (Leads.bump (habandon (v.log (.hastened i s.fd)) rfl hcommands hlog))))
    | ok _ => exact hlog.takeOver hserve hstate hcommands hexited s.peer
  · exact h.takeOver hserve hstate hcommands hexited s.peer

/-- A command that was taken out of the inbox is carried out. -/
theorem execute (hserve : Modest serve) {c : Command} (h : Sound i s.state.works [c] v s)
    (hunended : ∀ half, s.state.works half = true → ending half v.history = none) (hcommands : v.commands = [])
    (hexited : v.exited = false) :
    Leads R i (Run.execute serve c : Run α Unit) v fun _ v' => Resting i v' := by
  have hresting : ∀ {v' : View} {s' : Slot}, Calm i v' s' → v'.exited = v.exited → Resting i v' :=
    fun hcalm hsame => .inl ⟨_, hcalm, fun he => absurd (hexited.symm.trans (hsame.symm.trans he)) Bool.false_ne_true⟩
  obtain ⟨p, hp, hstage⟩ := h.stage
  have hhalf : ∀ half : Half, s.state = half.working → c = half.command i →
      Leads R i (Run.execute serve c : Run α Unit) v fun _ v' => Resting i v' := by
    rintro half hstate rfl
    rw [Run.execute_half]
    have hissued := h.issueHalf (R := R) (α := α) hstate (hunended half (Half.works_iff.2 hstate)) hcommands hexited
    refine hissued.fixed.mono fun _ v' hdone => ?_
    obtain ⟨⟨s', hcalm⟩, hsame, -⟩ := hdone
    exact hresting hcalm hsame
  rw [Stage] at hstage
  cases hstate : s.state with
  | accepting =>
    rw [hstate] at hstage
    cases hstage.2
    exact h.onAccept hserve hstate hcommands hexited
  | receiving =>
    rw [hstate] at hstage
    rcases hstage with ⟨-, hc⟩ | ⟨-, hc⟩
    · exact hhalf .receive hstate (List.head_eq_of_cons_eq hc)
    · cases hc
  | sending =>
    rw [hstate] at hstage
    rcases hstage with ⟨-, hc⟩ | ⟨-, hc⟩
    · exact hhalf .send hstate (List.head_eq_of_cons_eq hc)
    · cases hc
  | disconnecting =>
    rw [hstate] at hstage
    rcases hstage with ⟨-, hc⟩ | ⟨-, hc⟩
    · cases hc
      refine (h.issueClose hstate hcommands hexited).fixed.mono fun _ v' hdone => ?_
      obtain ⟨⟨s', hshut⟩, hsame, -⟩ := hdone
      exact hresting (hshut.calm fun half => by rw [hstate]; cases half <;> rfl) hsame
    · cases hc
  | disconnected =>
    rw [hstate] at hstage
    cases hstage.2.1
  | _ =>
    rw [hstate] at hstage
    cases hstage.2

end Sound

end SlotServer
