import SlotServer.Proofs.Runs
import SlotServer.Proofs.Start
import SlotServer.Proofs.Teardown

/-!
# Runs under an honest kernel

A worker that was just built is at rest, and whatever it is made to do leaves every slot at rest, as long as its kernel
answers nothing but what is outstanding.

- `honest`: slots at rest, within a turn and after it;
- `HonestStep`: a move, an answer to an operation that is outstanding, or something around the worker;
- `Resting.of_fresh`, `Resting.step`: what holds of every slot in every run (`HonestRun.resting`);
- `Machine.played?`: what comes of a schedule of moves and answers, which is such a run (`Reached.played`).
-/

namespace SlotServer

variable {α : Type} {i : Nat} {v : View} {s : Slot}

instance {others : Nat → View → Prop} : Rely.Lenient ⟨others, fun fault => fault ≠ .completedTwice⟩ := ⟨fun _ h => h⟩

theorem View.Absent.unbound_log {e : Event} (h : v.Absent) (he : e.isBound = false) :
    ∀ e' ∈ (v.log e).history, e'.isBound = false := fun e' he' =>
  (List.mem_cons.1 he').elim (fun hsame => hsame ▸ he) (h.unbound e')

/-- A slot while the worker is torn down. -/
def Ebbing (i : Nat) (v : View) : Prop := (∃ s, Calm i v s) ∨ v.Absent

theorem Stage.due_cons {p : Phase} {c : Command} {rest : List Command} (h : Stage i s p (c :: rest)) : rest = [] := by
  rw [Stage] at h
  cases hstate : s.state <;> rw [hstate] at h
  case accepting => exact List.tail_eq_of_cons_eq h.2
  case receiving | sending =>
    rcases h with ⟨-, hdue⟩ | ⟨-, hdue⟩
    · exact List.tail_eq_of_cons_eq hdue
    · cases hdue
  case disconnecting =>
    rcases h with ⟨-, hdue⟩ | ⟨-, hdue⟩
    · exact List.tail_eq_of_cons_eq hdue
    · cases hdue
  case disconnected => cases h.2.1
  all_goals cases h.2

namespace Calm

/-- A slot has one command at most. Without it in the inbox, it is in hand. -/
theorem popped {c : Command} {rest : List Command} (h : Calm i v s) (hc : v.commands = c :: rest) :
    rest = [] ∧ Sound i s.state.works [c] { v with commands := rest } s := by
  obtain ⟨p, hp, hstage⟩ := h.stage
  rw [hc] at hstage
  obtain rfl := hstage.due_cons
  exact ⟨rfl, { h.toSound with stage := ⟨p, hp, hstage⟩ }⟩

/-- Once the slot is free of its socket, nothing is due. -/
theorem commands_nil (h : Calm i v s) (hover : s.state = .disconnected) : v.commands = [] := by
  obtain ⟨p, -, hstage⟩ := h.stage
  rw [Stage, hover] at hstage
  exact hstage.2.1

/-- The loop comes to its end. -/
theorem exit (h : Calm i v s) : Calm i { v with exited := true } s :=
  { h with
    answered := nofun
    telling := ⟨h.telling.waits, fun half ho hb => { h.telling.tells half ho hb with closed := fun _ => rfl }⟩ }

end Calm

namespace Resting

theorem commands_nil (h : Resting i v) (hexited : v.exited = true) : v.commands = [] := by
  rcases h with ⟨s, hcalm, hover⟩ | habsent
  · exact hcalm.commands_nil (hover hexited)
  · exact habsent.commands

/-- A slot with a loop that is there is at rest, once there is nothing of a command in hand. -/
theorem of_calm (h : ∃ s, Calm i v s) (hexited : v.exited = false) : Resting i v := by
  obtain ⟨s, hcalm⟩ := h
  exact .inl ⟨s, hcalm, fun he => absurd (hexited.symm.trans he) Bool.false_ne_true⟩

/-- A completion is taken to its slot. -/
theorem route {R : Rely} [R.Lenient] {c : Completion} {rest : List Completion} (h : Resting i v)
    (hexited : v.exited = false) (hc : v.answers = c :: rest) (hslot : c.ctx.slot = i) :
    Leads R i (Run.route c : Run α Unit) { v with answers := rest } fun _ v' => Resting i v' ∧ v'.exited = false := by
  rcases h with ⟨s, hcalm, -⟩ | habsent
  · rcases hcalm.answered hexited with hnil | ⟨c', op, hone, -, -⟩
    · rw [hnil] at hc
      cases hc
    · obtain rfl : rest = [] := (List.tail_eq_of_cons_eq (hone.symm.trans hc)).symm
      exact ((hcalm.route hc hexited hslot).fixed).mono fun _ v' ⟨hcalm', hsame, _⟩ =>
        ⟨of_calm hcalm' (hsame.trans hexited), hsame.trans hexited⟩
  · rw [habsent.answers] at hc
    cases hc

/-- Commands are taken out of the inbox and carried out, up to so many. -/
theorem executeUpTo {serve : Run.Serve α} (hserve : Modest serve) (n : Nat) {m : Machine α} (h : m.All Resting [])
    (hexited : m.worker.exited = false) :
    Holds (fun fault => fault ≠ .completedTwice) (Run.executeUpTo serve n : Run α Nat) m fun _ m' =>
      m'.All Resting [] := by
  induction n generalizing m with
  | zero => exact Holds.pure h
  | succ n ih =>
    refine Holds.bind (Holds.pop (fun _ => Holds.pure h) fun c inbox hinbox => Holds.bind ?_)
    obtain ⟨rest, hcommands, hslot, hframe⟩ := Machine.view_popped [] hinbox
    rcases h c.slot with ⟨s, hcalm, -⟩ | habsent
    case inr =>
      rw [habsent.commands] at hcommands
      cases hcommands
    obtain ⟨rfl, hsound⟩ := hcalm.popped hcommands
    refine Holds.lead (R := ⟨fun _ _ => True, fun fault => fault ≠ .completedTwice⟩) []
      (hslot ▸ (hsound.execute hserve hcalm.unended rfl hexited).fixed) (fun _ _ => trivial)
      fun _ m' ⟨hrest, hsame, _⟩ hframe' => ?_
    refine Holds.bind ((ih (fun j => ?_) (hsame.trans hexited)).mono fun _ _ h' => Holds.pure h')
    by_cases hj : j = c.slot
    · rw [hj]
      exact hrest
    · rw [hframe' j hj, hframe j hj]
      exact h j

end Resting

/-- Slots at rest, and what the dispatch loop and the acceptors do with them. -/
def honest {serve : Run.Serve α} (hserve : Modest serve) : Regime serve where
  rest := Resting
  busy i v := Resting i v ∧ v.exited = false
  ebb := Ebbing
  faults fault := fault ≠ .completedTwice
  startAccept {i v fd peer} h hplaces hfd :=
    h.startAccept hplaces hfd peer fun hexited _ _ hother => hother.1.commands_nil (hother.2.trans hexited)
  deed d h hheld := h.deed hheld d
  drainSlot {i v} h hexited := by
    rcases h with ⟨s, hcalm, -⟩ | habsent
    · exact hcalm.drainSlot hexited
    · refine Leads.bind (Leads.slot? ?_)
      rw [habsent.slot]
      exact Leads.pure (.inr habsent)
  work h hexited := ⟨h, hexited⟩
  route h hexited hc hslot := h.1.route hexited hc hslot
  drainInbox h hexited := Holds.bind (Holds.worker (Resting.executeUpTo hserve _ (fun j => (h j).1) hexited))
  exit {i v} h _ := by
    rcases h with ⟨s, hcalm, -⟩ | habsent
    · exact .inl ⟨s, hcalm.exit⟩
    · exact .inr { habsent with }
  failCommand {i v c rest} h hexited hc hslot := by
    rcases h with ⟨s, hcalm⟩ | habsent
    · obtain ⟨rfl, hsound⟩ := hcalm.popped hc
      exact (hsound.failCommand hcalm.unended rfl hexited).mono fun _ v' ⟨s', hcalm', hover⟩ =>
        ⟨.inl ⟨s', hcalm'⟩, hcalm'.commands_nil hover⟩
    · rw [habsent.commands] at hc
      cases hc
  forceSlot {i v} h hexited hcommands hsome := by
    rcases h with ⟨s, hcalm⟩ | habsent
    · exact hcalm.forceSlot hcommands hexited
    · rw [habsent.slot] at hsome
      cases hsome
  absent {i v} h _ hcommands hnone := by
    rcases h with ⟨s, hcalm⟩ | habsent
    · rw [hcalm.here] at hnone
      cases hnone
    · exact .inr { habsent with unbound := habsent.unbound_log rfl, silent := rfl }

/-! ## Steps -/

/-- An operation is outstanding, and its answer is not ready. -/
def Machine.Owed (m : Machine α) (op : Op) : Prop :=
  op ∈ outstanding m.trace ∧ m.kernel.ready.countP (·.ctx = op.ctx) < (outstanding m.trace).countP (·.ctx = op.ctx)

/-- What may happen at a worker whose kernel is honest. -/
inductive HonestStep (serve : Run.Serve α) (m : Machine α) : Machine α → Prop
  /-- The worker is made to do something. -/
  | move (move : Move) {m' : Machine α} (hallowed : move.Allowed m) (hrun : move.run serve m = .ok () m') :
    HonestStep serve m m'
  /-- An operation is answered. -/
  | answer (op : Op) (result : Int32) (flags : UInt32) (howed : m.Owed op) :
    HonestStep serve m { m with kernel := m.kernel.inject ⟨op.ctx, result, flags⟩ }
  /-- Something happens around the worker. -/
  | around (kernel : Kernel) (app : α) (hready : kernel.ready = m.kernel.ready) :
    HonestStep serve m { m with kernel, app }

/-- A machine that a worker over an honest kernel comes to. -/
abbrev HonestRun (serve : Run.Serve α) : Machine α → Prop := Reached Machine.Fresh (HonestStep serve)

/-- A completion becomes ready. -/
theorem Machine.view_inject (m : Machine α) (c : Completion) (j : Nat) :
    ({ m with kernel := m.kernel.inject c } : Machine α).view [] j =
      if c.ctx.slot = j then { m.view [] j with answers := (m.view [] j).answers ++ [c] } else m.view [] j := by
  by_cases h : c.ctx.slot = j <;> simp [view, history, Kernel.inject, h]

namespace Resting

variable {serve : Run.Serve α} {m m' : Machine α}

/-- A worker that was just built is at rest. -/
theorem of_fresh (h : m.Fresh) : m.All Resting [] := by
  intro i
  rw [h.view]
  cases hs : m.worker.slots[i]? with
  | none => exact .inr ⟨rfl, rfl, rfl, rfl, rfl, nofun⟩
  | some s =>
    have hblank := (h.new.slots i s hs).eq
    refine .inl ⟨s, ?_, nofun⟩
    rw [hblank]
    exact
      { here := by rw [← hblank]
        index := rfl
        small := fun hsmall => h.small ((hsmall.resolve_left fun hne => hne rfl).resolve_right (Nat.lt_irrefl 0))
        fd := fun hne => absurd rfl hne
        stage := ⟨.free, rfl, rfl, rfl, rfl⟩
        answered := fun _ => .inl rfl
        telling := ⟨fun half hh => (by cases half <;> cases hh), fun _ _ => nofun⟩
        attached := nofun
        unended := fun half hh => by cases half <;> cases hh
        idle := nofun }

/-- Whatever a worker is made to do leaves every slot at rest, and no cell is completed twice. -/
theorem move (hserve : Modest serve) (h : m.All Resting []) {move : Move} (hallowed : move.Allowed m) :
    Holds (fun fault => fault ≠ .completedTwice) (move.run serve) m fun _ m' => m'.All Resting [] := by
  cases move with
  | drain => exact (((honest hserve).beginDrain h hallowed).mono fun _ _ h' => h'.1).orLate nofun
  | take => exact ((honest hserve).batch 1 (fun j => ⟨h j, hallowed⟩) hallowed).mono fun _ _ h' j => (h'.1 j).1
  | command => exact Holds.bind ((executeUpTo hserve 1 h hallowed).mono fun _ _ h' => Holds.pure h')
  | _ => exact ((honest hserve).move h rfl hallowed).orLate nofun

/-- What is owed is all that its slot has outstanding, and no completion is ready for the slot. -/
theorem owed {op : Op} (h : m.All Resting []) (howed : m.Owed op) :
    ∃ s, Calm op.ctx.slot (m.view [] op.ctx.slot) s ∧ m.worker.exited = false ∧
      outstanding (m.history op.ctx.slot) = [op] ∧ (m.view [] op.ctx.slot).answers = [] := by
  obtain ⟨hop, hcount⟩ := howed
  have hhere : outstanding (m.history op.ctx.slot) = (outstanding m.trace).filter (·.ctx.slot = op.ctx.slot) :=
    outstanding_concerns ..
  have hmem : op ∈ outstanding (m.history op.ctx.slot) := by
    rw [hhere]
    exact List.mem_filter.2 ⟨hop, decide_eq_true rfl⟩
  rcases h op.ctx.slot with ⟨s, hcalm, hover⟩ | habsent
  case inr =>
    rw [show outstanding (m.history op.ctx.slot) = [] from habsent.silent] at hmem
    cases hmem
  obtain ⟨p, hp, hstage⟩ := hcalm.stage
  have hops : outstanding (m.history op.ctx.slot) = p.ops := outstanding_of_phase hp
  have hone : outstanding (m.history op.ctx.slot) = [op] := by
    rw [hops]
    refine p.ops_of_mem ?_
    rwa [← hops]
  have hexited : m.worker.exited = false := by
    refine Bool.eq_false_iff.2 fun hexited => ?_
    rw [Stage, hover hexited] at hstage
    rw [hops, hstage.1] at hone
    cases hone
  refine ⟨s, hcalm, hexited, hone, ?_⟩
  rcases hcalm.answered hexited with hnil | ⟨c, op', hc, hop', hctx⟩
  · exact hnil
  · -- the answer that is ready would be the one that is due
    obtain rfl : op = op' := List.head_eq_of_cons_eq (hone.symm.trans hop')
    have hmem : c ∈ m.kernel.ready := by
      have hmem : c ∈ (m.view [] op.ctx.slot).answers := hc ▸ List.mem_singleton_self c
      exact (List.mem_filter.1 hmem).1
    have hready : 0 < m.kernel.ready.countP (·.ctx = op.ctx) :=
      List.countP_pos_iff.2 ⟨c, hmem, decide_eq_true hctx⟩
    have hsame : (outstanding m.trace).countP (·.ctx = op.ctx) =
        ((outstanding m.trace).filter (·.ctx.slot = op.ctx.slot)).countP (·.ctx = op.ctx) := by
      rw [List.countP_filter]
      refine List.countP_congr fun op' _ => ?_
      by_cases hctx' : op'.ctx = op.ctx <;> simp [hctx']
    rw [hsame, ← hhere, hone, List.countP_singleton, if_pos (decide_eq_true rfl)] at hcount
    omega

/-- A completion that is due becomes ready. -/
theorem answer {op : Op} {result : Int32} {flags : UInt32} (h : m.All Resting []) (howed : m.Owed op) :
    ({ m with kernel := m.kernel.inject ⟨op.ctx, result, flags⟩ } : Machine α).All Resting [] := by
  obtain ⟨s, hcalm, hexited, hone, hnone⟩ := owed h howed
  intro j
  rw [Machine.view_inject]
  split
  case isFalse => exact h j
  rename_i hj
  subst hj
  refine .of_calm ⟨s, { hcalm with answered := fun _ => .inr ?_ }⟩ hexited
  exact ⟨⟨op.ctx, result, flags⟩, op, congrArg (· ++ _) hnone, hone, rfl⟩

/-- Every step leaves every slot at rest. -/
theorem step (hserve : Modest serve) (h : m.All Resting []) (hstep : HonestStep serve m m') : m'.All Resting [] := by
  cases hstep with
  | move move hallowed hrun => exact (Resting.move hserve h hallowed).of_ok hrun
  | answer op result flags howed => exact answer h howed
  | around kernel app hready => exact h.congr fun j => m.view_kernel [] j kernel hready

end Resting

/-- Every slot is at rest wherever a worker over an honest kernel comes to. -/
theorem HonestRun.resting {serve : Run.Serve α} {m : Machine α} (hserve : Modest serve) (h : HonestRun serve m) :
    m.All Resting [] :=
  Reached.keeps h (fun _ => Resting.of_fresh) fun _ _ => Resting.step hserve

/-- A row of moves of a worker that was just built is a run. -/
theorem HonestRun.of_built {config : Config} {cores : Nat} {app : α} {serve : Run.Serve α} {moves : List Move}
    {m : Machine α} (h : (Machine.built? config cores app).bind (·.after? serve moves) = some m) :
    HonestRun serve m := by
  obtain ⟨m₀, hbuilt, hafter⟩ := Option.bind_eq_some_iff.1 h
  exact Reached.after (fun _ => True) (.start (Machine.fresh_of_built? hbuilt))
    (fun _ hallowed hrun => .move _ hallowed hrun) (fun _ _ => trivial) hafter

/-! ## Schedules -/

instance (m : Machine α) (op : Op) : Decidable (m.Owed op) := inferInstanceAs (Decidable (_ ∧ _))

/-- What is next in a schedule: some moves, or the answer to an operation. -/
inductive Cue
  | moves (moves : List Move)
  | answer (op : Op) (result : Int32)

/-- The machine after a schedule, if all of it may be. -/
def Machine.played? (serve : Run.Serve α) (m : Machine α) : List Cue → Option (Machine α)
  | [] => some m
  | .moves moves :: cues => (m.after? serve moves).bind (·.played? serve cues)
  | .answer op result :: cues =>
    if m.Owed op then { m with kernel := m.kernel.inject ⟨op.ctx, result, 0⟩ }.played? serve cues else none

/-- A schedule leads on under an honest kernel. -/
theorem Reached.played {start : Machine α → Prop} {serve : Run.Serve α} {m m' : Machine α} {cues : List Cue}
    (h : Reached start (HonestStep serve) m) (hplayed : m.played? serve cues = some m') :
    Reached start (HonestStep serve) m' := by
  induction cues generalizing m with
  | nil =>
    cases hplayed
    exact h
  | cons cue cues ih =>
    cases cue with
    | moves moves =>
      obtain ⟨_, hafter, hplayed⟩ := Option.bind_eq_some_iff.1 hplayed
      exact ih (h.after (fun _ => True) (fun _ hallowed hrun => .move _ hallowed hrun) (fun _ _ => trivial) hafter)
        hplayed
    | answer op result =>
      unfold Machine.played? at hplayed
      split at hplayed
      · rename_i howed
        exact ih (h.step (.answer op result 0 howed)) hplayed
      · cases hplayed

end SlotServer
