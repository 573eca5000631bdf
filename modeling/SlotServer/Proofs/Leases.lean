import SlotServer.Proofs.Counting
import SlotServer.Proofs.Runs
import SlotServer.Proofs.Start

/-!
# Leases over an arbitrary kernel

A worker keeps its leases and its queue of free slots right even over a kernel that answers at random. Between
operations a slot has one lease for its socket and one for its handle, and is among the free ones just where it has
none, so no slot is used again as long as a handle of it is alive.

- `Settled`: a slot between operations, and what a handle does with it (`Settled.deed`);
- `execute_afloat`, `drainInbox_moored`: every command that is carried out leaves less to do, so a turn empties the
  inbox;
- `wild`: slots within a turn and after it;
- `WildRun.conserved`: what holds of the leases in every run.
-/

namespace SlotServer

variable {α : Type} {R : Rely} {i : Nat} {half : Half} {v : View} {s : Slot}

/-- The command takes a new socket over. -/
def Command.isAccept : Command → Bool
  | .accept _ => true
  | _ => false

/-- No command takes a new socket over. -/
def View.Plain (v : View) : Prop := ∀ c ∈ v.commands, c.isAccept = false

/-- How much is to be done for a command. One that takes a new socket over may put another one into the inbox. -/
def Command.weight (c : Command) : Nat := if c.isAccept then 2 else 1

/-- How much is to be done for a row of commands. -/
def load : List Command → Nat
  | [] => 0
  | c :: l => c.weight + load l

theorem load_append (l l' : List Command) : load (l ++ l') = load l + load l' := by
  induction l with
  | nil => exact (Nat.zero_add _).symm
  | cons c l ih =>
    rw [List.cons_append, load, load, ih]
    omega

/-- In whatever order. -/
theorem load_perm {l l' : List Command} (h : l.Perm l') : load l = load l' := by
  induction h with
  | nil => rfl
  | cons c _ ih => rw [load, load, ih]
  | swap c c' l =>
    rw [load, load, load, load]
    omega
  | trans _ _ ih ih' => exact ih.trans ih'

theorem Command.weight_pos (c : Command) : 0 < c.weight := by
  unfold weight
  split <;> decide

theorem load_le (l : List Command) : load l ≤ 2 * l.length := by
  induction l with
  | nil => exact Nat.le_refl 0
  | cons c l ih =>
    have hc : c.weight ≤ 2 := by
      unfold Command.weight
      split <;> decide
    rw [load, List.length_cons]
    omega

theorem eq_nil_of_load {l : List Command} (h : load l = 0) : l = [] := by
  cases l with
  | nil => rfl
  | cons c l =>
    have hc := c.weight_pos
    rw [load] at h
    omega

/-- A slot between operations. -/
structure Settled (i : Nat) (v : View) (s : Slot) : Prop extends Counted i s.state.leases s.state.works v s where
  quiet : s.state.isIdle = true ∨ s.state = .disconnected → v.commands = []
  halted : v.exited = true → s.state = .disconnected

/-- A slot after a call of its handle. The call may have put a command into the inbox. -/
def Obeyed (i : Nat) (v v' : View) : Prop := (∃ s, Settled i v' s) ∧ (v.Plain → v'.Plain)

namespace Counted

variable {owed : Nat} {opened : Half → Bool}

theorem command (h : Counted i owed opened v s) (hcommands : v.commands = []) (c : Command) :
    Counted i owed opened (v.command c) s :=
  { h with commands := by rw [View.command, hcommands]; exact Nat.le_refl 1 }

end Counted

/-- A poll completes nothing. -/
theorem Cell.phase_poll (c : Cell) (w : Waker) : (c.poll w).2.phase = .completed ↔ c.phase = .completed := by
  unfold poll pollWith beginPoll
  cases hphase : c.phase with
  | completed => exact iff_of_true hphase rfl
  | _ => exact iff_of_false nofun nofun

namespace Settled

theorem exited_of_live (h : Settled i v s) (hlive : s.state ≠ .disconnected) : v.exited = false := by
  cases hexited : v.exited with
  | false => rfl
  | true => exact absurd (h.halted hexited) hlive

theorem plain_of_idle (h : Settled i v s) (hidle : s.state.isIdle = true) : v.Plain := by
  intro c hc
  rw [h.quiet (.inl hidle)] at hc
  cases hc

/-- Without one that takes a new socket over, little is to be done. -/
theorem load_le_one (h : Settled i v s) (hplain : v.Plain) : load v.commands ≤ 1 := by
  have hfew := h.commands
  cases hc : v.commands with
  | nil => exact Nat.zero_le 1
  | cons c rest =>
    rw [hc, List.length_cons] at hfew
    obtain rfl : rest = [] := List.eq_nil_of_length_eq_zero (by omega)
    have hone := hplain c (hc ▸ List.mem_cons_self ..)
    rw [load, Command.weight, hone]
    exact Nat.le_refl 1

section Handles

variable [hR : R.Sparse]

theorem quietly (h : Settled i v s) (hidle : s.state.isIdle = true) : R.Quiet v :=
  ⟨by rw [h.here]; rfl, h.quiet (.inl hidle), fun j v' hv' => (hR.few j v' hv').commands⟩

/-- An operation of an idle connection begins. -/
theorem begin (h : Settled i v s) (hstart : s.state ∈ Slot.startsFrom half) (length : Nat) :
    Obeyed i v (v.begin i half (s.begin length half)) := by
  have hidle := Slot.isIdle_of_startsFrom hstart
  have hcommands := h.quiet (.inl hidle)
  have hone := h.one (SlotState.ne_disconnected_of_isIdle hidle)
  have hexited := h.exited_of_live (SlotState.ne_disconnected_of_isIdle hidle)
  have hput : Counted i 1 (s.begin length half).state.works (v.put (s.begin length half)) (s.begin length half) := by
    have hcell : ∀ other, other ≠ half → begun other v.history = true →
        (Connection.cell (s.begin length half) other).phase = .completed := by
      intro other hother hbegun
      rw [Slot.cell_begin_of_ne s length hother]
      exact h.resolved other (SlotState.works_of_isIdle hidle other) hbegun
    refine hone.put ?_ ?_ ?_ ?_ ?_ ?_ ⟨fun other ho => ?_, fun other ho => hcell other fun hother => ?_⟩
    · exact s.index_begin length half
    · cases half <;> rfl
    · exact s.attached_begin length half
    · intro other
      cases half <;> cases other <;> rfl
    · rw [Slot.state_begin]
      exact fun hs => absurd hs half.working_ne_disconnected
    · rw [Slot.state_begin]
      cases half <;> exact nofun
    · rw [Slot.state_begin, Half.works_working] at ho
      obtain rfl := of_decide_eq_true ho
      rw [Slot.cell_begin_self]
      exact nofun
    · rw [Slot.state_begin, hother, half.works_self] at ho
      cases ho
  have hbegan : Counted i 1 (s.begin length half).state.works ((v.put (s.begin length half)).log (.began ⟨i, half⟩))
      (s.begin length half) := by
    refine { hput with toPending := ⟨hput.uncompleted, fun other ho hbegun => hput.resolved other ho ?_⟩ }
    rw [Slot.state_begin, Half.works_working] at ho
    have hother : decide (half = other) = false := decide_eq_false fun heq => of_decide_eq_false ho heq.symm
    exact (congrArg (· || begun other v.history) hother).symm.trans hbegun
  have hleases : (s.begin length half).state.leases = 1 := by
    rw [Slot.state_begin, SlotState.leases_of_ne half.working_ne_disconnected]
  have hafter := hbegan.command hcommands (half.command i)
  refine ⟨⟨s.begin length half, ?_⟩, fun _ c hc => ?_⟩
  · exact
      { toCounted := hleases ▸ hafter
        quiet := fun hs => by
          rw [Slot.state_begin, half.isIdle_working] at hs
          exact absurd hs (by simp [half.working_ne_disconnected])
        halted := fun he => by
          rw [show v.exited = true from he] at hexited
          cases hexited }
  · have hone : (v.begin i half (s.begin length half)).commands = [half.command i] := by
      show v.commands ++ [half.command i] = _
      rw [hcommands, List.nil_append]
    rw [hone] at hc
    obtain rfl := List.mem_singleton.1 hc
    cases half <;> rfl

theorem receive (h : Settled i v s) :
    Leads R i (Deed.run i .receive : Run α Unit) v fun _ v' => Obeyed i v v' :=
  Leads.bind (Leads.receive h.here
    (fun hstart => ⟨h.exited_of_live (SlotState.ne_disconnected_of_isIdle (Slot.isIdle_of_startsFrom hstart)),
      .inl (h.quietly (Slot.isIdle_of_startsFrom hstart)), Leads.pure (h.begin hstart 0)⟩)
    fun _ => Leads.pure ⟨⟨s, h⟩, id⟩)

theorem send (h : Settled i v s) (length : Nat) :
    Leads R i (Deed.run i (.send length) : Run α Unit) v fun _ v' => Obeyed i v v' :=
  Leads.bind (Leads.send h.here
    (fun _ hstart => ⟨h.exited_of_live (SlotState.ne_disconnected_of_isIdle (Slot.isIdle_of_startsFrom hstart)),
      .inl (h.quietly (Slot.isIdle_of_startsFrom hstart)), Leads.pure (h.begin hstart length)⟩)
    fun _ _ => Leads.pure ⟨⟨s, h⟩, id⟩)

/-- Another cell, as open as the one before. -/
theorem setCell (h : Settled i v s) (half : Half) (c : Cell)
    (hphase : c.phase = .completed ↔ (Connection.cell s half).phase = .completed) :
    Settled i (v.put (Connection.setCell s c half)) (Connection.setCell s c half) := by
  have hput : Counted i s.state.leases (Connection.setCell s c half).state.works (v.put (Connection.setCell s c half))
      (Connection.setCell s c half) := by
    have hcell : ∀ other, (Connection.cell (Connection.setCell s c half) other).phase = .completed ↔
        (Connection.cell s other).phase = .completed := by
      intro other
      by_cases hother : other = half
      · rw [hother, Slot.cell_setCell_self]
        exact hphase
      · rw [Slot.cell_setCell_of_ne s c hother]
    rw [Slot.state_setCell]
    exact h.toCounted.setCell half c
      ⟨fun other ho => mt (hcell other).1 (h.uncompleted other ho),
        fun other ho hbegun => (hcell other).2 (h.resolved other ho hbegun)⟩
  exact
    { toCounted := by
        rw [Slot.state_setCell] at hput ⊢
        exact hput
      quiet := by
        rw [Slot.state_setCell]
        exact h.quiet
      halted := by
        rw [Slot.state_setCell]
        exact h.halted }

omit hR in
theorem poll (h : Settled i v s) (half : Half) (waker : Waker) :
    Leads R i (Deed.run i (.poll half waker) : Run α Unit) v fun _ v' => Obeyed i v v' := by
  have hafter := h.setCell half ((Connection.cell s half).poll waker).2 (Cell.phase_poll _ waker)
  refine Leads.bind (Leads.bind (Leads.slot?_some h.here ?_))
  dsimp only
  refine Leads.bind (Leads.setSlot (by rw [h.here]; rfl) ?_)
  cases ((Connection.cell s half).poll waker).1 with
  | pending =>
    refine Leads.bind (Leads.note (fun _ => rfl) (Leads.pure (Leads.pure ?_)))
    exact ⟨⟨Connection.setCell s ((Connection.cell s half).poll waker).2 half,
      { hafter with toCounted := hafter.log fun _ => rfl }⟩, id⟩
  | ready o => exact Leads.pure (Leads.pure ⟨⟨_, hafter⟩, id⟩)

/-- The handle is gone. An idle connection is to be closed. -/
theorem drop (h : Settled i v s) (hheld : 0 < v.handles) :
    Leads R i (Deed.run i .drop : Run α Unit) v fun _ v' => Obeyed i v v' := by
  refine Leads.bind (Leads.letGo (Leads.bind (Leads.slot?_some (s := s) h.here ?_)))
  refine Leads.bind (Leads.modifySlot ?_)
  rw [show ({ v with handles := v.handles - 1 } : View).slot? = some s from h.here]
  have hdetached := h.detach hheld
  refine Leads.bind (Leads.stepSlot_some (s := s.detach) rfl ?_)
  by_cases hidle : s.state.isIdle = true
  · have hlive := SlotState.ne_disconnected_of_isIdle hidle
    have hexited := h.exited_of_live hlive
    have hcommands := h.quiet (.inl hidle)
    rw [SlotState.leases_of_ne hlive] at hdetached
    have hleft := hdetached.leave s.receivedLength
    rw [Slot.startDisconnect, Slot.advance_of_mem (s := s.detach) (SlotState.mem_of_isIdle hidle)]
    refine Leads.bind (Leads.submit rfl hexited (.inl ⟨rfl, hcommands, fun j v' hv' => (hR.few j v' hv').commands⟩) ?_)
    refine ((hleft.command hcommands (.disconnect i)).release).fixed.mono fun _ v' => ?_
    rintro ⟨⟨s', hafter, hstate, hsame⟩, hexited', -⟩
    replace hstate : s'.state = .disconnecting := hstate
    refine ⟨⟨s', ?_⟩, fun _ c hc => ?_⟩
    · have hover : Counted i s'.state.leases s.state.works v' s' := by
        rw [hstate]
        exact hafter
      refine { toCounted := hover.settle (SlotState.works_of_isIdle hidle) ?_, quiet := ?_, halted := fun he => ?_ }
      · rw [hstate]
        rintro ⟨⟩ <;> rfl
      · rw [hstate]
        exact fun hs => absurd hs (by decide)
      · exact absurd (hexited.symm.trans (hexited'.symm.trans he)) Bool.false_ne_true
    · have hone : v'.commands = [.disconnect i] := by
        rw [hsame]
        show v.commands ++ [_] = _
        rw [hcommands, List.nil_append]
      rw [hone] at hc
      obtain rfl := List.mem_singleton.1 hc
      rfl
  · have hmem : s.detach.state ∉ [SlotState.accepted, .received, .sent] := fun hm => hidle (SlotState.isIdle_of_mem hm)
    rw [Slot.startDisconnect, Slot.advance_of_not_mem (s := s.detach) hmem]
    refine hdetached.release.fixed.mono fun _ v' => ?_
    rintro ⟨⟨s', hafter, hstate, hsame⟩, hexited', -⟩
    refine ⟨⟨s', { toCounted := ?_, quiet := fun hs => ?_, halted := fun he => ?_ }⟩, fun hplain c hc => ?_⟩
    · rw [hstate]
      exact hafter
    · rw [hsame]
      rw [hstate] at hs
      exact h.quiet hs
    · rw [hstate]
      exact h.halted (hexited'.symm.trans he)
    · rw [hsame] at hc
      exact hplain c hc

/-- Every call of a handle. -/
theorem deed (h : Settled i v s) (hheld : 0 < v.handles) (d : Deed) :
    Leads R i (d.run i : Run α Unit) v fun _ v' => Obeyed i v v' := by
  have hsame : Obeyed i v v := ⟨⟨s, h⟩, id⟩
  have hview : ∀ half, (Connection.view s half).Within v.region := fun half => Connection.within_view (h.within half)
  cases d with
  | receive => exact h.receive
  | send length => exact h.send length
  | poll half waker => exact h.poll half waker
  | readReceived => exact Leads.bind (Leads.received h.here (fun _ => Leads.pure hsame) (.inl (hview .receive)))
  | readSend => exact Leads.bind (Leads.sendBuffer h.here (fun _ => Leads.pure hsame) (.inl (hview .send)))
  | fill data => exact Leads.bind (Leads.fill h.here (fun _ => Leads.pure hsame) (.inl (hview .send)))
  | drop => exact h.drop hheld

end Handles

end Settled

/-! ## Commands -/

/-- A slot after a command was carried out: less is to be done for it. -/
def Eased (i : Nat) (c : Command) (v : View) : Prop := (∃ s, Tallied i v s) ∧ load v.commands < c.weight

theorem Kept.eased {v v' : View} (h : Kept i v v') (hcommands : v.commands = []) (c : Command) : Eased i c v' := by
  obtain ⟨s, htallied, hsame⟩ := h
  refine ⟨⟨s, htallied⟩, ?_⟩
  rw [hsame, hcommands]
  exact c.weight_pos

namespace Tallied

variable [hR : R.Sparse] {serve : Run.Serve α}

/-- What becomes of the connection is up to its handler, which may put one command into the inbox. -/
theorem takeOver (hserve : Modest serve) (h : Tallied i v s) (hcommands : v.commands = []) (hexited : v.exited = false)
    (peer : Option Net.SocketAddress) :
    Leads R i (Run.takeOver serve i peer : Run α Unit) v fun _ v' => Eased i (.accept i) v' := by
  by_cases hstate : s.state = .accepting
  case neg =>
    refine Leads.bind (Leads.advance_error h.here (fun hmem => hstate (List.mem_singleton.1 hmem)) ?_)
    exact Leads.bind (Leads.say (Leads.bump (Kept.eased ⟨s, h, rfl⟩ hcommands _)))
  have hnone := h.unserved hstate
  refine Leads.bind (Leads.advance_ok h.here (List.mem_singleton.2 hstate) ?_)
  refine Leads.bind (Leads.bump (Leads.bind (Leads.say (Leads.bind (Leads.bind (Leads.modifySlot ?_))))))
  refine Leads.takeHold (Leads.bind (Leads.note (fun _ => rfl) (Leads.bind ?_)))
  have hone : Counted i 1 s.state.works v s := h.one (by rw [hstate]; decide)
  have haccepted := (hone.advance .accepted (by decide) (by decide) s.receivedLength).attach hnone nofun
  have hattached : Settled i (View.log { v with
      slot? := some ({ s with state := .accepted } : Slot).attach, handles := v.handles + 1 } (.served i))
      ({ s with state := .accepted } : Slot).attach :=
    { haccepted with
      uncompleted := fun half ho => by cases half <;> cases ho
      resolved := fun half _ => haccepted.resolved half (by rw [hstate]; cases half <;> rfl)
      quiet := fun _ => hcommands
      halted := fun he => absurd (hexited.symm.trans he) Bool.false_ne_true }
  have hplain : View.Plain (View.log { v with
      slot? := some ({ s with state := .accepted } : Slot).attach, handles := v.handles + 1 } (.served i)) :=
    hattached.plain_of_idle rfl
  refine Leads.serve hserve (P := fun v' => (∃ s', Settled i v' s') ∧ v'.Plain)
    (fun d v' ⟨⟨s', hsettled⟩, hplain⟩ hheld => (hsettled.deed hheld d).mono fun _ v'' ⟨hsettled', hkeeps⟩ =>
      ⟨hsettled', hkeeps hplain⟩)
    ⟨⟨_, hattached⟩, hplain⟩ (Nat.succ_pos _) fun answer v' ⟨⟨s', hsettled⟩, hplain⟩ => ?_
  have heased : Eased i (.accept i) v' := ⟨⟨s', hsettled.toCounted⟩, Nat.lt_succ_of_le (hsettled.load_le_one hplain)⟩
  cases answer with
  | ok _ => exact Leads.pure heased
  | error e => exact Leads.bind (Leads.say (Leads.bump heased))

theorem abandon (h : Tallied i v s) : Leads R i (Run.abandon i : Run α Unit) v fun _ v' => Kept i v v' := by
  by_cases hstate : s.state = .accepting
  · refine Leads.bind (Leads.advance_ok h.here (List.mem_singleton.2 hstate) ?_)
    have hleft := (h.one (by rw [hstate]; exact nofun)).leave s.receivedLength
    exact (hleft.close rfl).mono fun _ v' ⟨s', hafter, hover, hsame⟩ =>
      ⟨s', hafter.settle (by rw [hstate]; rintro ⟨⟩ <;> rfl) (SlotState.works_of_isOver hover), hsame⟩
  · exact Leads.bind (Leads.advance_error h.here (fun hmem => hstate (List.mem_singleton.1 hmem))
      (Leads.pure ⟨s, h, rfl⟩))

theorem onAccept (hserve : Modest serve) (h : Tallied i v s) (hcommands : v.commands = [])
    (hexited : v.exited = false) :
    Leads R i (Run.onAccept serve i : Run α Unit) v fun _ v' => Eased i (.accept i) v' := by
  have habandon : ∀ v' : View, v'.commands = [] → Tallied i v' s → Leads R i (do
      Run.abandon i
      return () : Run α Unit) v' fun _ v'' => Eased i (.accept i) v'' := fun v' hcommands' h' =>
    Leads.bind (h'.abandon.mono fun _ v'' hkept => Leads.pure (hkept.eased hcommands' _))
  refine Leads.bind (Leads.slot?_some h.here (Leads.bind (Leads.worker fun w _ _ => ?_)))
  dsimp only
  split
  · exact habandon v hcommands h
  split
  · refine Leads.bind (Leads.setNoDelay fun answer => ?_)
    cases answer with
    | error e => exact Leads.bind (Leads.say (Leads.bind (Leads.bump (habandon _ hcommands (h.log fun _ => rfl)))))
    | ok _ => exact Tallied.takeOver hserve (h.log fun _ => rfl) hcommands hexited s.peer
  · exact h.takeOver hserve hcommands hexited s.peer

/-- A command that was taken out of the inbox is carried out. -/
theorem execute (hserve : Modest serve) {c : Command} (h : Tallied i v s) (hc : c.slot = i)
    (hcommands : v.commands = []) (hexited : v.exited = false) :
    Leads R i (Run.execute serve c : Run α Unit) v fun _ v' => Eased i c v' := by
  have hhalf : ∀ half : Half, Leads R i (Run.execute serve (half.command i) : Run α Unit) v fun _ v' =>
      Eased i (half.command i) v' := by
    intro half
    rw [Run.execute_half]
    exact (h.issueHalf half).mono fun _ v' hkept => hkept.eased hcommands _
  subst hc
  cases c with
  | accept i => exact h.onAccept hserve hcommands hexited
  | receive i => exact hhalf .receive
  | send i => exact hhalf .send
  | disconnect i =>
    refine h.issueClose.mono fun _ v' hclosed => ?_
    obtain ⟨s', hafter, hstate, hsame⟩ := hclosed
    exact Kept.eased ⟨s', hafter.reopen hstate, hsame⟩ hcommands _

end Tallied

/-! ## All slots -/

/-- There is no such slot, and nothing of one. -/
structure View.Missing (v : View) : Prop where
  slot : v.slot? = none
  commands : v.commands = []
  handles : v.handles = 0
  places : v.places = 0

/-- A slot within a turn. -/
def Afloat (i : Nat) (v : View) : Prop := (∃ s, Tallied i v s) ∨ v.Missing

/-- A slot between operations. -/
def Moored (i : Nat) (v : View) : Prop := (∃ s, Settled i v s) ∨ v.Missing

theorem View.Missing.few (h : v.Missing) : v.Few where
  commands := by
    rw [h.commands]
    exact ⟨Nat.zero_le 1, fun _ => rfl⟩
  places := by
    rw [h.places]
    exact ⟨Nat.zero_le 1, fun _ => rfl⟩

theorem Afloat.few (h : Afloat i v) : v.Few := by
  rcases h with ⟨s, htallied⟩ | hmissing
  · exact htallied.few
  · exact hmissing.few

theorem Moored.afloat (h : Moored i v) : Afloat i v := h.imp_left fun ⟨s, hsettled⟩ => ⟨s, hsettled.toCounted⟩

/-- The inbox has at most one command of a slot, so that none is left once it is taken out. -/
theorem Afloat.popped (h : Afloat i v) {c : Command} {rest : List Command} (hcommands : v.commands = c :: rest) :
    rest = [] ∧ ∃ s, Tallied i { v with commands := [] } s := by
  rcases h with ⟨s, htallied⟩ | hmissing
  · refine ⟨?_, s, { htallied with commands := Nat.zero_le 1 }⟩
    have hfew := htallied.commands
    rw [hcommands, List.length_cons] at hfew
    exact List.eq_nil_of_length_eq_zero (by omega)
  · rw [hmissing.commands] at hcommands
    cases hcommands

instance {faults : Fault → Prop} : Rely.Sparse ⟨Afloat, faults⟩ := ⟨fun _ _ hafloat => hafloat.few⟩

instance {faults : Fault → Prop} : Rely.Sparse (.beside Moored faults v) := ⟨fun _ _ hothers => hothers.1.afloat.few⟩

theorem Moored.commands_nil (h : Moored i v) (hexited : v.exited = true) : v.commands = [] := by
  rcases h with ⟨s, hsettled⟩ | hmissing
  · exact hsettled.quiet (.inr (hsettled.halted hexited))
  · exact hmissing.commands

/-- Without a command, a slot is as between operations. -/
theorem Afloat.moored (h : Afloat i v) (hcommands : v.commands = []) (hexited : v.exited = false) : Moored i v :=
  h.imp_left fun ⟨s, htallied⟩ => ⟨s,
    { toCounted := htallied
      quiet := fun _ => hcommands
      halted := fun he => absurd (hexited.symm.trans he) Bool.false_ne_true }⟩

section Turns

variable {serve : Run.Serve α} {m : Machine α}

/-- There are no more commands than slots. -/
theorem Machine.All.length_inbox (h : m.All Afloat []) : m.worker.inbox.length ≤ m.worker.slots.length := by
  rw [← List.length_map (·.slot)]
  refine length_le_of_count (fun j => ?_) fun j hj => ?_
  · rw [m.count_inbox []]
    exact (h j).few.commands.1
  · rw [m.count_inbox [], (h j).few.commands.2 (List.getElem?_eq_none hj)]
    rfl

/-- The first command of the inbox is carried out. That leaves less to do for its slot, and the others show what they
showed. -/
theorem execute_afloat (hserve : Modest serve) {c : Command} {inbox : List Command} (h : m.All Afloat [])
    (hexited : m.worker.exited = false) (hinbox : m.worker.inbox = c :: inbox) :
    Holds (fun _ => False) (Run.execute serve c : Run α Unit) { m with worker := { m.worker with inbox } } fun _ m' =>
      (m'.All Afloat [] ∧ m'.worker.exited = false) ∧
        load (m'.view [] c.slot).commands < load (m.view [] c.slot).commands ∧
        ∀ j, j ≠ c.slot → m'.view [] j = m.view [] j := by
  obtain ⟨rest, hcommands, hslot, hframe⟩ := Machine.view_popped [] hinbox
  obtain ⟨rfl, s, htallied⟩ := (h c.slot).popped hcommands
  refine Holds.lead (R := ⟨Afloat, fun _ => False⟩) []
    (hslot ▸ (htallied.execute hserve rfl rfl hexited).fixed) (fun j hj => by rw [hframe j hj]; exact h j)
    fun _ m' ⟨⟨hafloat, hless⟩, hsame, _⟩ hframe' => ?_
  refine ⟨⟨fun j => ?_, hsame.trans hexited⟩, ?_, fun j hj => (hframe' j hj).trans (hframe j hj)⟩
  · by_cases hj : j = c.slot
    · rw [hj]
      exact .inl hafloat
    · rw [hframe' j hj, hframe j hj]
      exact h j
  · rw [hcommands, load, load]
    exact hless

/-- Less is to be done for the slots together where less is to be done for one and as much for the others. -/
theorem load_inbox_lt {m' : Machine α} {i : Nat} (hless : load (m'.view [] i).commands < load (m.view [] i).commands)
    (hframe : ∀ j, j ≠ i → m'.view [] j = m.view [] j) : load m'.worker.inbox < load m.worker.inbox := by
  have hperm := m.perm_inbox m' [] i fun j hj => by rw [hframe j hj]
  have hsum := load_perm hperm
  rw [load_append, load_append] at hsum
  omega

/-- Every command that is carried out leaves less to do, so that the inbox is empty after so many. -/
theorem executeUpTo_afloat (hserve : Modest serve) {n : Nat} (h : m.All Afloat []) (hexited : m.worker.exited = false)
    (hload : load m.worker.inbox ≤ n) :
    Holds (fun _ => False) (Run.executeUpTo serve n : Run α Nat) m fun _ m' =>
      m'.All Afloat [] ∧ m'.worker.exited = false ∧ m'.worker.inbox = [] := by
  -- the fuel bounds what is to be done, not the number of commands: one of them may add another
  induction n generalizing m with
  | zero => exact Holds.pure ⟨h, hexited, eq_nil_of_load (Nat.le_zero.1 hload)⟩
  | succ n ih =>
    refine Holds.bind (Holds.pop (fun hnil => Holds.pure ⟨h, hexited, hnil⟩) fun c inbox hinbox => Holds.bind ?_)
    refine (execute_afloat hserve h hexited hinbox).mono fun _ m' ⟨⟨h', hexited'⟩, hless, hframe⟩ => ?_
    have hlower := load_inbox_lt hless hframe
    exact Holds.bind ((ih h' hexited' (by omega)).mono fun _ _ h'' => Holds.pure h'')

/-- A turn carries out as many commands as there is to be done. -/
theorem Machine.All.load_inbox (h : m.All Afloat []) : load m.worker.inbox ≤ 2 * m.worker.inboxCapacity + 1 := by
  have hlength := h.length_inbox
  have hle := load_le m.worker.inbox
  rw [Worker.inboxCapacity]
  omega

/-- A turn empties the inbox. -/
theorem drainInbox_moored (hserve : Modest serve) (h : m.All Afloat []) (hexited : m.worker.exited = false) :
    Holds (fun _ => False) (Run.drainInbox serve : Run α Nat) m fun _ m' => m'.All Moored [] := by
  refine Holds.bind (Holds.worker ((executeUpTo_afloat hserve h hexited h.load_inbox).mono fun _ m' hdone j => ?_))
  obtain ⟨h', hexited', hnil⟩ := hdone
  refine (h' j).moored ?_ hexited'
  show m'.worker.inbox.filter _ = []
  rw [hnil]
  rfl

end Turns

/-! ## Sockets that come and go -/

theorem SlotState.eq_of_leases {state : SlotState} (h : state.leases = 0) : state = disconnected := by
  cases state <;> first | rfl | cases h

/-- A socket is bound to a slot that was taken out of the free ones. -/
theorem Moored.startAccept [hR : R.Sparse] (h : Moored i v) (hplaces : 0 < v.places)
    (hothers : v.exited = true → ∀ j v', R.others j v' → v'.commands = []) (fd : Int)
    (peer : Option Net.SocketAddress) :
    Leads R i (Run.startAccept i fd peer : Run α (Except Error Unit)) { v with places := v.places - 1 }
      fun answer v' => answer = .ok () ∧ Moored i v' := by
  rcases h with ⟨s, hsettled⟩ | hmissing
  case inr =>
    rw [hmissing.places] at hplaces
    exact absurd hplaces (Nat.lt_irrefl 0)
  obtain ⟨-, howed, -, -⟩ := hsettled.free_of_places hplaces
  have hstate := SlotState.eq_of_leases howed
  have hcommands := hsettled.quiet (.inr hstate)
  have hopened : ∀ half, s.state.works half = false := SlotState.works_of_isOver (by rw [hstate]; rfl)
  have hbound : Tallied i (({ v with places := v.places - 1 }.put (s.withSocket fd peer)).log (.bound i fd))
      (s.withSocket fd peer) := (hsettled.withSocket hplaces hopened fd peer).log fun _ => rfl
  refine Leads.bind (Leads.slot?_some hsettled.here (Leads.bind (Leads.stepSlot_some hsettled.here ?_)))
  rw [Slot.startAccept_ok hstate]
  refine Leads.bind (Leads.note (fun _ => rfl) (Leads.bind ?_))
  rcases (Bool.eq_false_or_eq_true v.exited).symm with hexited | hexited
  · refine Leads.submit rfl hexited (.inl ⟨rfl, hcommands, fun j v' hv' => (hR.few j v' hv').commands⟩)
      (Leads.pure ⟨rfl, .inl ⟨s.withSocket fd peer, ?_⟩⟩)
    exact
      { toCounted := hbound.command hcommands (.accept i)
        quiet := by rintro (hs | hs) <;> cases hs
        halted := fun he => absurd (hexited.symm.trans he) Bool.false_ne_true }
  · refine Leads.submit_exited rfl hexited (hothers hexited) hcommands ?_
    refine (hbound.failAccept rfl).mono fun _ v' ⟨s', hafter, hover, hsame⟩ => Leads.pure ⟨rfl, .inl ⟨s', ?_⟩⟩
    exact
      { toCounted := hafter
        quiet := fun _ => hsame.trans hcommands
        halted := fun _ => hover }

/-- A completion is taken to its slot, if there is one. -/
theorem Afloat.route [R.Sparse] {c : Completion} {rest : List Completion} (h : Afloat i v) (hc : v.answers = c :: rest)
    (hslot : c.ctx.slot = i) :
    Leads R i (Run.route c : Run α Unit) { v with answers := rest } fun _ v' => Afloat i v' := by
  rcases h with ⟨s, htallied⟩ | hmissing
  · exact (htallied.route hc hslot).mono fun _ _ ⟨s', hafter, _⟩ => .inl ⟨s', hafter⟩
  · subst hslot
    refine Leads.bind (Leads.note (fun _ => rfl) (Leads.bind (Leads.slot? ?_)))
    rw [View.slot?_log]
    dsimp only
    rw [hmissing.slot]
    exact Leads.bind (Leads.say (Leads.bump (.inr { hmissing with slot := rfl })))

/-- Slots over an arbitrary kernel. No program is at fault. -/
def wild {serve : Run.Serve α} (hserve : Modest serve) : Regime serve where
  rest := Moored
  busy := Afloat
  ebb := Afloat
  faults _ := False
  startAccept {i v fd peer} h hplaces _ := by
    refine (Moored.startAccept h hplaces (fun hexited j v' hother => ?_) fd peer).mono fun _ _ h' => h'.2
    exact hother.1.commands_nil (hother.2.trans hexited)
  deed {i v} d h hheld := by
    rcases h with ⟨s, hsettled⟩ | hmissing
    · exact (hsettled.deed hheld d).mono fun _ _ hobeyed => .inl hobeyed.1
    · exact absurd hmissing.handles (Nat.ne_of_gt hheld)
  drainSlot {i v} h hexited := by
    rcases h with ⟨s, hsettled⟩ | hmissing
    · refine (Tallied.drainSlot hsettled.toCounted).fixed.mono fun _ v' hdone => ?_
      obtain ⟨⟨s', hafter, hstate, hsame⟩, hexited', -⟩ := hdone
      refine .inl ⟨s', ?_⟩
      exact
        { toCounted := hafter
          quiet := fun hs => by
            rw [hsame]
            rcases hstate with hstate | hidle
            · exact hsettled.quiet (hstate ▸ hs)
            · exact hsettled.quiet (.inl hidle)
          halted := fun he => absurd (hexited.symm.trans (hexited'.symm.trans he)) Bool.false_ne_true }
    · refine Leads.bind (Leads.slot? ?_)
      rw [hmissing.slot]
      exact Leads.pure (.inr hmissing)
  work h _ := h.afloat
  route h _ hc hslot := h.route hc hslot
  drainInbox h hexited := drainInbox_moored hserve h hexited
  exit h _ := h.afloat.imp (fun ⟨s, htallied⟩ => ⟨s, { htallied with }⟩) fun hmissing => { hmissing with }
  failCommand {i v c rest} h hexited hc hslot := by
    rcases h with ⟨s, htallied⟩ | hmissing
    · have hfew : rest.length + 1 ≤ 1 := by
        rw [← List.length_cons, ← hc]
        exact htallied.commands
      have hless : Tallied i { v with commands := rest } s := { htallied with commands := Nat.le_of_succ_le hfew }
      exact (hless.failCommand hslot).mono fun _ _ ⟨s', hafter, hsame⟩ => ⟨.inl ⟨s', hafter⟩, hsame⟩
    · rw [hmissing.commands] at hc
      cases hc
  forceSlot {i v} h _ hcommands hsome := by
    have : Rely.Sparse ⟨fun j v' => Moored j v' ∨ ∃ w, Afloat j w ∧ v' = w.log .released, fun _ => False⟩ := by
      refine ⟨fun j v' hothers => ?_⟩
      rcases hothers with hmoored | ⟨w, hafloat, rfl⟩
      · exact hmoored.afloat.few
      · exact ⟨hafloat.few.commands, hafloat.few.places⟩
    rcases h with ⟨s, htallied⟩ | hmissing
    · refine (Tallied.forceSlot (htallied.log (e := .released) fun _ => rfl)).mono fun _ v' hforced => ?_
      obtain ⟨s', hafter, hover, hsame⟩ := hforced
      refine .inl ⟨s', ?_⟩
      exact
        { toCounted := hafter
          quiet := fun _ => hsame.trans hcommands
          halted := fun _ => hover }
    · rw [hmissing.slot] at hsome
      cases hsome
  absent {i v} h _ _ hnone := by
    rcases h with ⟨s, htallied⟩ | hmissing
    · rw [htallied.here] at hnone
      cases hnone
    · exact .inr { hmissing with }

/-! ## Runs -/

/-- What may happen at a worker over an arbitrary kernel. A completion's result is the length or the negated error
number of an operation, but for the least number, whose negation does not fit. -/
inductive WildStep (serve : Run.Serve α) (m : Machine α) : Machine α → Prop
  /-- The worker is made to do something. -/
  | move (move : Move) {m' : Machine α} (hwhole : move.isWhole = true) (hallowed : move.Allowed m)
    (hrun : move.run serve m = .ok () m') : WildStep serve m m'
  /-- Something happens around the worker. Any completions may become ready, and any operations may fail from now on. -/
  | around (kernel : Kernel) (app : α) (hready : ∀ c ∈ kernel.ready, c.result ≠ Int32.minValue) :
    WildStep serve m { m with kernel, app }

/-- A machine that was just built, with no more slots than there are numbers of 32 bits. -/
structure Machine.Starts (m : Machine α) : Prop extends m.Fresh where
  size : m.worker.slots.length ≤ 0x100000000

/-- A machine whose worker was built, with few slots. -/
theorem Machine.Starts.of_built? {config : Config} {cores : Nat} {app : α} {m : Machine α}
    (h : Machine.built? config cores app = some m)
    (hsize : (Machine.built? config cores app).all (·.worker.slots.length ≤ 0x100000000) = true) : m.Starts :=
  { Machine.fresh_of_built? h with size := of_decide_eq_true ((Option.all_eq_true ..).1 hsize m h) }

/-- A machine that a worker over an arbitrary kernel comes to. -/
abbrev WildRun (serve : Run.Serve α) : Machine α → Prop := Reached Machine.Starts (WildStep serve)

namespace Moored

variable {serve : Run.Serve α} {m m' : Machine α}

/-- A worker that was just built has all its slots free. -/
theorem of_starts (h : m.Starts) : m.All Moored [] := by
  intro i
  rw [h.view, h.places h.size]
  cases hs : m.worker.slots[i]? with
  | none => exact .inr ⟨rfl, rfl, rfl, rfl⟩
  | some s =>
    obtain ⟨hblank, hreceive, hsend⟩ := h.new.slots i s hs
    have hsmall : i < 0x100000000 := by
      have hlength := (List.getElem?_eq_some_iff.1 hs).1
      exact Nat.lt_of_lt_of_le hlength h.size
    refine .inl ⟨s, ?_⟩
    rw [hblank]
    exact
      { here := by rw [← hblank]
        index := Nat.mod_eq_of_lt hsmall
        small := hsmall
        leases := rfl
        attached := ⟨nofun, fun hpos => absurd hpos (Nat.lt_irrefl 0)⟩
        single := Nat.zero_le 1
        places := rfl
        unbound := fun _ => rfl
        unserved := nofun
        uncompleted := fun half ho => by cases half <;> cases ho
        resolved := nofun
        within := by rintro ⟨⟩ <;> assumption
        commands := Nat.zero_le 1
        answers := nofun
        quiet := fun _ => rfl
        halted := fun _ => rfl }

/-- Other completions become ready. -/
theorem around {kernel : Kernel} {app : α} (h : m.All Moored [])
    (hready : ∀ c ∈ kernel.ready, c.result ≠ Int32.minValue) :
    ({ m with kernel, app } : Machine α).All Moored [] := fun i =>
  (h i).imp (fun ⟨s, hsettled⟩ => ⟨s, { hsettled with answers := fun c hc => hready c (List.mem_filter.1 hc).1 }⟩)
    fun hmissing => { hmissing with }

theorem step (hserve : Modest serve) (h : m.All Moored []) (hstep : WildStep serve m m') : m'.All Moored [] := by
  cases hstep with
  | move move hwhole hallowed hrun => exact ((wild hserve).move h hwhole hallowed).of_ok hrun
  | around kernel app hready => exact around h hready

end Moored

/-- Every slot keeps its leases right wherever a worker over an arbitrary kernel comes to. -/
theorem WildRun.moored {serve : Run.Serve α} {m : Machine α} (hserve : Modest serve) (h : WildRun serve m) :
    m.All Moored [] :=
  Reached.keeps h (fun _ => Moored.of_starts) fun _ _ => Moored.step hserve

/-- The leases and the free slots of a worker. -/
structure Machine.Conserved (serve : Run.Serve α) (m : Machine α) : Prop where
  /-- A slot has a lease for its socket, and one for each handle. -/
  leases : ∀ (i : Nat) (s : Slot), m.worker.slots[i]? = some s →
    s.leases.toNat = (if s.state = .disconnected then 0 else 1) + m.held.count i
  attached : ∀ (i : Nat) (s : Slot), m.worker.slots[i]? = some s → (s.attached = true ↔ i ∈ m.held)
  /-- No slot has two handles. -/
  single : m.held.Nodup
  /-- The free slots are those without a lease, each once. -/
  free : m.worker.free.Nodup ∧ ∀ i, i ∈ m.worker.free ↔ ∃ s : Slot, m.worker.slots[i]? = some s ∧ s.leases = 0
  /-- As long as a slot may yet be freed, there is a place for it. -/
  room : ∀ (i : Nat) (s : Slot), m.worker.slots[i]? = some s → s.leases ≠ 0 →
    m.worker.free.length < m.worker.freeCapacity
  /-- Whatever the worker is made to do, it is not at fault, but for a drain whose end no clock can tell. In particular
  no lease is given back that nobody has. -/
  faultless : ∀ move : Move, move.isWhole = true → move.Allowed m → ¬ move.Balks m → ∃ m', move.run serve m = .ok () m'
  /-- Such a drain does not begin, and changes nothing. -/
  balks : ∀ move : Move, move.Balks m → move.run serve m = .error .timeOverflow m
  /-- A slot that is taken out of the free ones has no socket and no handle. -/
  acquired : ∀ i m', Run.acquire m = .ok (some i) m' →
    ∃ s : Slot, m'.worker.slots[i]? = some s ∧ s.state = .disconnected ∧ s.fd = -1 ∧ i ∉ m'.held
  /-- Binding a socket to it succeeds. -/
  bound : ∀ i m', Run.acquire m = .ok (some i) m' → ∀ fd peer, ∃ m'', Run.startAccept i fd peer m' = .ok (.ok ()) m''

section Conserved

variable {serve : Run.Serve α} {m : Machine α}

theorem acquire_some {m' : Machine α} (h : Run.acquire m = .ok (some i) m') :
    ∃ free, m.worker.free = i :: free ∧ m' = { m with worker := { m.worker with free } } := by
  have hholds : Holds (fun _ => False) (Run.acquire : Run α (Option Nat)) m fun answer m' => ∀ i, answer = some i →
      ∃ free, m.worker.free = i :: free ∧ m' = { m with worker := { m.worker with free } } :=
    Holds.acquire nofun fun j free hfree i hi => by
      cases hi
      exact ⟨free, hfree, rfl⟩
  exact hholds.of_ok h i rfl

theorem Moored.single (h : Moored i v) : v.handles ≤ 1 := by
  rcases h with ⟨s, hsettled⟩ | hmissing
  · exact hsettled.single
  · rw [hmissing.handles]
    exact Nat.zero_le 1

/-- A slot of a machine is settled. -/
theorem Machine.All.settled (h : m.All Moored []) (hs : m.worker.slots[i]? = some s) : Settled i (m.view [] i) s := by
  rcases h i with ⟨s', hsettled⟩ | hmissing
  · obtain rfl : s = s' := Option.some.inj (hs.symm.trans hsettled.here)
    exact hsettled
  · rw [show m.worker.slots[i]? = none from hmissing.slot] at hs
    cases hs

theorem Machine.All.mem_free (h : m.All Moored []) (i : Nat) :
    i ∈ m.worker.free ↔ ∃ s : Slot, m.worker.slots[i]? = some s ∧ s.leases = 0 := by
  refine ⟨fun hfree => ?_, fun ⟨s, hs, hzero⟩ => ?_⟩
  · have hplaces : 0 < (m.view [] i).places := List.count_pos_iff.2 hfree
    rcases h i with ⟨s, hsettled⟩ | hmissing
    · exact ⟨s, hsettled.here, (hsettled.free_of_places hplaces).1⟩
    · rw [hmissing.places] at hplaces
      exact absurd hplaces (Nat.lt_irrefl 0)
  · have hplaces := (h.settled hs).places
    rw [if_pos hzero] at hplaces
    exact List.count_pos_iff.1 (by rw [show m.worker.free.count i = 1 from hplaces]; exact Nat.one_pos)

/-- As long as a slot may yet be freed, the queue of free slots has a place left, also within a turn. -/
theorem Machine.All.room_of_afloat (h : m.All Afloat []) (hs : m.worker.slots[i]? = some s) (hleases : s.leases ≠ 0) :
    m.worker.free.length < m.worker.freeCapacity := by
  have hplaces : m.worker.free.count i = 0 := by
    rcases h i with ⟨s', htallied⟩ | hmissing
    · obtain rfl : s = s' := Option.some.inj (hs.symm.trans htallied.here)
      exact htallied.places.trans (if_neg hleases)
    · exact hmissing.places
  exact length_lt_of_count (List.getElem?_eq_some_iff.1 hs).1 hplaces (fun j => (h j).few.places.1)
    fun j hj => (h j).few.places.2 (List.getElem?_eq_none hj)

theorem Machine.All.room (h : m.All Moored []) (hs : m.worker.slots[i]? = some s) (hleases : s.leases ≠ 0) :
    m.worker.free.length < m.worker.freeCapacity := Machine.All.room_of_afloat (fun j => (h j).afloat) hs hleases

/-- Binding a socket to a slot that was taken out of the free ones succeeds. -/
theorem Machine.All.bound (h : m.All Moored []) {free : List Nat} (hfree : m.worker.free = i :: free) (fd : Int)
    (peer : Option Net.SocketAddress) :
    ∃ m', Run.startAccept i fd peer { m with worker := { m.worker with free } } = .ok (.ok ()) m' := by
  obtain ⟨hplaces, hself, hframe⟩ := Machine.view_taken [] hfree
  have hquiet : ∀ j v', Moored j v' ∧ v'.exited = m.worker.exited → m.worker.exited = true → v'.commands = [] :=
    fun _ _ hother hexited => hother.1.commands_nil (hother.2.trans hexited)
  have hlead : Leads (.beside Moored (fun _ => False) (m.view [] i)) i
      (Run.startAccept i fd peer : Run α (Except Error Unit)) _ _ :=
    (h i).startAccept hplaces (fun hexited j v' hother => hquiet j v' hother hexited) fd peer
  have hrun := hlead { m with worker := { m.worker with free } } [] (fun j hj => by rw [hframe j hj]; exact ⟨h j, rfl⟩)
    hself
  cases hm : (Run.startAccept i fd peer : Run α (Except Error Unit)) { m with worker := { m.worker with free } } with
  | ok answer m' =>
    rw [hm] at hrun
    exact ⟨m', by rw [hrun.1.1]⟩
  | error fault m' =>
    rw [hm] at hrun
    exact absurd hrun id

end Conserved

/-- Whatever completions come, a worker's leases and free slots are right between operations, so that no slot is used
again while a handle of it is alive. -/
theorem WildRun.conserved {serve : Run.Serve α} {m : Machine α} (hserve : Modest serve) (h : WildRun serve m) :
    m.Conserved serve := by
  have hall := h.moored hserve
  exact
    { leases := fun i s hs => by
        rw [(hall.settled hs).leases]
        cases s.state <;> rfl
      attached := fun i s hs => (hall.settled hs).attached.trans List.count_pos_iff
      single := List.nodup_iff_count.2 fun i => (hall i).single
      free := ⟨List.nodup_iff_count.2 fun i => (hall i).afloat.few.places.1, hall.mem_free⟩
      room := fun i s hs => hall.room hs
      faultless := fun move hwhole hallowed hgoes => by
        obtain ⟨_, m', hrun, -⟩ := ((wild hserve).move hall hwhole hallowed).comesUnless hgoes
        exact ⟨m', hrun⟩
      balks := fun move => Move.run_balks serve
      acquired := fun i m' hacquire => by
        obtain ⟨free, hfree, rfl⟩ := acquire_some hacquire
        obtain ⟨s, hs, hzero⟩ := (hall.mem_free i).1 (hfree ▸ List.mem_cons_self ..)
        have hsettled := hall.settled hs
        have hplaces := (Machine.view_taken [] hfree).1
        obtain ⟨-, howed, hhandles, -⟩ := hsettled.free_of_places hplaces
        have hstate := SlotState.eq_of_leases howed
        exact ⟨s, hs, hstate, hsettled.unbound hstate, List.count_eq_zero.1 hhandles⟩
      bound := fun i m' hacquire fd peer => by
        obtain ⟨free, hfree, rfl⟩ := acquire_some hacquire
        exact hall.bound hfree fd peer }

/-- A completion comes that answers nothing. -/
theorem WildRun.conserved_spurious : ∃ (m : Machine Application) (kernel : Kernel),
    Machine.small?.bind (·.after? Application.serve [.assign 5 none, .turn false, .deed 0 .receive]) = some m ∧
      kernel = { m.kernel with ready := [⟨.ofSlot 0, 1, 0⟩] } ∧
      ({ m with kernel } : Machine Application).Conserved Application.serve := by
  have hany : (Machine.small?.bind
      (·.after? Application.serve [.assign 5 none, .turn false, .deed 0 .receive])).isSome = true := by decide +kernel
  have hsize : Machine.small?.all (fun m => m.worker.slots.length ≤ 0x100000000) = true := by decide +kernel
  obtain ⟨m, hafter⟩ := Option.isSome_iff_exists.1 hany
  obtain ⟨m₀, hbuilt, hmoves⟩ := Option.bind_eq_some_iff.1 hafter
  have hstart : m₀.Starts :=
    { Machine.fresh_of_built? hbuilt with
      size := of_decide_eq_true ((Option.all_eq_true ..).1 hsize m₀ hbuilt) }
  have hrun : WildRun Application.serve m :=
    Reached.after (fun move => move.isWhole = true) (.start hstart)
      (fun hwhole hallowed hrun => .move _ hwhole hallowed hrun) (by decide) hmoves
  have hready : ∀ c ∈ [(⟨.ofSlot 0, 1, 0⟩ : Completion)], c.result ≠ Int32.minValue := by decide
  exact ⟨m, _, hafter, rfl, WildRun.conserved Application.modest_serve
    (hrun.step (.around { m.kernel with ready := [⟨.ofSlot 0, 1, 0⟩] } m.app hready))⟩

end SlotServer
