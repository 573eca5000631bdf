import SlotServer.Proofs.HonestRuns

/-!
# Outcomes of operations

The two cells of a slot are used again and again, by every operation of every connection that the slot ever has. Still a
future tells of its own operation only, which is the one that began last.

- `Ended`: how an operation ended, told by what was recorded since it began (`Phase.Steps.ending`);
- `Machine.Pends`, `Machine.Delivers`: what every poll of a future finds, while its operation is under way and
  afterwards;
- `Machine.Begins`: what a call does that begins an operation;
- `HonestRun.outcomes`: all of this, and that a call which is refused changes nothing, under an honest kernel.
-/

namespace SlotServer

variable {α β : Type} {half : Half} {cell : CellName} {after before since h : List Event} {o : Outcome} {i : Nat}

/-! ## The end of an operation -/

/-- The outcome of the half's operation, where an event ends it: an operation of the half is answered, or the kernel
does not take it. -/
def Event.ends (half : Half) (before : List Event) : Event → Option Outcome
  | .answered c => if answersHalf half c before then some c.outcome else none
  | .refused op e => if op.half? = some half then some (.error e) else none
  | _ => none

/-- How an operation of the half ended, told by what was recorded since it began. -/
def Ended (half : Half) (since : List Event) (o : Outcome) : Prop :=
  ∃ after e before, since = after ++ e :: before ∧ e.ends half before = some o

namespace Ended

theorem not_nil : ¬ Ended half [] o := by
  rintro ⟨after, e, before, hsince, -⟩
  exact List.append_ne_nil_of_right_ne_nil after (List.cons_ne_nil e before) hsince.symm

theorem cons_iff {e : Event} : Ended half (e :: h) o ↔ e.ends half h = some o ∨ Ended half h o := by
  constructor
  · rintro ⟨after, e', before, hsince, hends⟩
    cases after with
    | nil =>
      obtain ⟨rfl, rfl⟩ := List.cons.inj hsince
      exact .inl hends
    | cons e'' after =>
      obtain ⟨rfl, rfl⟩ := List.cons.inj hsince
      exact .inr ⟨after, e', before, rfl, hends⟩
  · rintro (hends | ⟨after, e', before, rfl, hends⟩)
    · exact ⟨[], e, h, rfl, hends⟩
    · exact ⟨e :: after, e', before, rfl, hends⟩

end Ended

theorem ending_cons {e : Event} (he : ∀ cell, e = .began cell → cell.half ≠ half) :
    ending half (e :: h) = (ending half h).or (e.ends half h) := by
  cases e with
  | began cell => exact (if_neg (he cell rfl)).trans Option.or_none.symm
  | answered c => rfl
  | refused op e => rfl
  | _ => exact Option.or_none.symm

namespace Phase

/-- An operation of the half is to be queued, or is outstanding. -/
def isOn (half : Half) : Phase → Bool
  | due _ half' => half' = half
  | busy op => op.half? = some half
  | _ => false

variable {p p' : Phase} {e : Event}

/-- An operation goes on only where it has begun. -/
theorem Step.isOn_of (hstep : Step p e p') (he : ∀ cell, e = .began cell → cell.half ≠ half)
    (hon : p'.isOn half = true) : p.isOn half = true := by
  cases hstep with
  | bind | close | refuse | refuseClose | closed | cut => cases hon
  | setUp | hangUp | aside => exact hon
  | begin => exact absurd (of_decide_eq_true hon) (he _ rfl)
  | take hhalf =>
    have hsame := of_decide_eq_true hon
    rw [hhalf] at hsame
    exact decide_eq_true (Option.some.inj hsame)
  | answer =>
    unfold Phase.answer at hon
    split at hon
    · cases hon
    · split at hon <;> cases hon
    · split at hon <;> cases hon
  | letGo => cases p <;> cases hon

theorem isOn_answer (half : Half) (op : Op) (result : Int32) : (answer op result).isOn half = false := by
  unfold answer
  split
  · rfl
  · split <;> rfl
  · split <;> rfl

/-- What ends an operation of the half finds it going on, and leaves it ended. -/
theorem Step.isOn_of_ends (hstep : Step p e p') (hops : outstanding h = p.ops) (hends : e.ends half h = some o) :
    p.isOn half = true ∧ p'.isOn half = false := by
  have hanswers : ∀ c, e = .answered c → ∃ op ∈ p.ops, op.half? = some half := by
    rintro c rfl
    unfold Event.ends at hends
    dsimp only at hends
    split at hends
    case isFalse => cases hends
    rename_i hany
    obtain ⟨op, hop, hsame⟩ := List.any_eq_true.1 hany
    exact ⟨op, hops ▸ hop, (of_decide_eq_true hsame).2⟩
  cases hstep with
  | @refuse op e half' hhalf =>
    unfold Event.ends at hends
    dsimp only at hends
    split at hends
    case isFalse => cases hends
    rename_i hsame
    exact ⟨decide_eq_true (Option.some.inj (hhalf.symm.trans hsame)), rfl⟩
  | @refuseClose p op e hrests hhalf =>
    unfold Event.ends at hends
    dsimp only at hends
    rw [hhalf, if_neg nofun] at hends
    cases hends
  | @answer op c =>
    obtain ⟨op', hop, hhalf⟩ := hanswers c rfl
    obtain rfl := List.mem_singleton.1 hop
    exact ⟨decide_eq_true hhalf, isOn_answer half op' c.result⟩
  | @closed op c hnone =>
    obtain ⟨op', hop, hhalf⟩ := hanswers c rfl
    obtain rfl := List.mem_singleton.1 hop
    rw [hnone] at hhalf
    cases hhalf
  | aside hmove =>
    cases e with
    | answered | refused => cases hmove
    | _ => cases hends
  | _ => cases hends

/-- Once it has ended, the half's operation goes on no more, and it ends in one way only. -/
theorem Steps.ending {start : Phase} (hsteps : Steps start since p) (hops : start.ops = [])
    (hsince : ∀ cell, Event.began cell ∈ since → cell.half ≠ half) :
    (∀ o, SlotServer.ending half since = some o ↔ Ended half since o) ∧
      ∀ o, Ended half since o → p.isOn half = false := by
  induction hsteps with
  | nil =>
    refine ⟨fun o => ⟨nofun, fun hended => ?_⟩, fun o hended => ?_⟩
    · exact absurd hended Ended.not_nil
    · exact absurd hended Ended.not_nil
  | @cons p p' e h hbefore hstep ih =>
    obtain ⟨hiff, hon⟩ := ih fun cell hcell => hsince cell (List.mem_cons_of_mem _ hcell)
    have he : ∀ cell, e = .began cell → cell.half ≠ half :=
      fun cell hcell => hsince cell (hcell ▸ List.mem_cons_self ..)
    have hends : ∀ o, e.ends half h = some o → p.isOn half = true ∧ p'.isOn half = false :=
      fun o => hstep.isOn_of_ends (hbefore.outstanding_eq hops)
    refine ⟨fun o => ?_, fun o hended => ?_⟩
    · rw [ending_cons he, Option.or_eq_some_iff, hiff, Ended.cons_iff]
      constructor
      · rintro (hended | ⟨-, hnow⟩)
        · exact .inr hended
        · exact .inl hnow
      · rintro (hnow | hended)
        · -- had it ended before, the half would not be on any more
          refine .inr ⟨Option.eq_none_iff_forall_ne_some.2 fun o' ho' => ?_, hnow⟩
          rw [hon o' ((hiff o').1 ho')] at hends
          cases (hends o hnow).1
        · exact .inl hended
    · rcases Ended.cons_iff.1 hended with hnow | hbefore
      · exact (hends o hnow).2
      · refine Bool.eq_false_iff.2 fun hp' => ?_
        rw [hstep.isOn_of he hp'] at hon
        cases hon o hbefore

end Phase

/-! ## What was recorded since an operation began -/

theorem outstanding_append (after before : List Event) (hbefore : outstanding before = []) :
    outstanding (after ++ before) = outstanding after := by
  induction after with
  | nil => exact hbefore
  | cons e after ih =>
    rw [List.cons_append]
    cases e with
    | queued op => exact congrArg (· ++ [op]) ih
    | answered c => exact congrArg (fun ops : List Op => ops.eraseP fun op => op.ctx = c.ctx) ih
    | released => rfl
    | _ => exact ih

/-- What the record tells of the operation that began last is told by what came after. -/
theorem told_since (hbefore : outstanding before = []) :
    told half (since ++ .began ⟨i, half⟩ :: before) =
      ⟨true, ending half since, waiting half since, woken half since⟩ := by
  have hall : begun half (since ++ .began ⟨i, half⟩ :: before) = true ∧
      ending half (since ++ .began ⟨i, half⟩ :: before) = ending half since ∧
      waiting half (since ++ .began ⟨i, half⟩ :: before) = waiting half since ∧
      woken half (since ++ .began ⟨i, half⟩ :: before) = woken half since := by
    induction since with
    | nil => simp [begun, ending, waiting, woken]
    | cons e since ih =>
      obtain ⟨hbegun, hending, hwaiting, hwoken⟩ := ih
      rw [List.cons_append]
      cases e with
      | began cell => simp [begun, ending, waiting, woken, hbegun, hending, hwaiting, hwoken]
      | answered c =>
        have hsame : outstanding (since ++ .began ⟨i, half⟩ :: before) = outstanding since :=
          outstanding_append since (.began ⟨i, half⟩ :: before) hbefore
        refine ⟨hbegun, ?_, hwaiting, hwoken⟩
        rw [ending, ending, hending, answersHalf, answersHalf, hsame]
      | refused op e => exact ⟨hbegun, by rw [ending, ending, hending], hwaiting, hwoken⟩
      | awaited cell waker => exact ⟨hbegun, hending, by rw [waiting, waiting, hwaiting], hwoken⟩
      | woke cell waker => exact ⟨hbegun, hending, hwaiting, by rw [woken, woken, hwoken]⟩
      | _ => exact ⟨hbegun, hending, hwaiting, hwoken⟩
  obtain ⟨hbegun, hending, hwaiting, hwoken⟩ := hall
  rw [told, hbegun, hending, hwaiting, hwoken]

/-! ## Futures under an honest kernel -/

namespace Machine

/-- A future whose operation is under way, where `since` is what was recorded since the operation began. -/
structure Pends (m : Machine α) (cell : CellName) (since : List Event) : Prop where
  unended : ∀ o, ¬ Ended cell.half since o
  /-- A poll finds nothing, and leaves its waker. -/
  polled : ∀ waker, ∃ m', Connection.pollFuture waker (.awaiting cell) m = .ok (.pending, .awaiting cell) m' ∧
    m'.history cell.slot = .awaited cell waker :: m.history cell.slot
  unwoken : woken cell.half since = []

/-- A future whose operation is over, where `since` is what was recorded since the operation began. -/
structure Delivers (m : Machine α) (cell : CellName) (since : List Event) (o : Outcome) : Prop where
  /-- A poll finds the outcome, and changes nothing. -/
  polled : ∀ waker, Connection.pollFuture waker (.awaiting cell) m = .ok (.ready o, .awaiting cell) m
  /-- The outcome is how the operation ended, or the worker came to its end first. -/
  ended : (∀ o', Ended cell.half since o' ↔ o' = o) ∨
    o = .error .connectionClosed ∧ m.worker.exited = true ∧ ∀ o', ¬ Ended cell.half since o'
  /-- Who was left waiting by the last poll was woken once, and nobody else was. -/
  woke : woken cell.half since = (waiting cell.half since).toList

/-- A call begins an operation, and gives the operation's future. -/
def Begins (m : Machine α) (cell : CellName) (x : Run α β) (future : β) : Prop :=
  ∃ m', x m = .ok future m' ∧ m'.history cell.slot = .began cell :: m.history cell.slot

/-- What the calls of a slot's handle and the futures of its operations come to. -/
structure Outcomes (serve : Run.Serve α) (m : Machine α) (i : Nat) (s : Slot) : Prop where
  pends : ∀ half since before, m.history i = since ++ .began ⟨i, half⟩ :: before → .began ⟨i, half⟩ ∉ since →
    s.state = half.working → m.Pends ⟨i, half⟩ since
  delivers : ∀ half since before, m.history i = since ++ .began ⟨i, half⟩ :: before → .began ⟨i, half⟩ ∉ since →
    s.state ≠ half.working → ∃ o, m.Delivers ⟨i, half⟩ since o
  receives : s.state ∈ Slot.startsFrom .receive →
    m.Begins ⟨i, .receive⟩ (Connection.receive i) (.awaiting ⟨i, .receive⟩)
  refusesReceive : s.state ∉ Slot.startsFrom .receive →
    Connection.receive i m = .ok (.refused (some s.wrongState)) m
  sends : ∀ length, length ≤ s.sendHalf.length ∧ s.state ∈ Slot.startsFrom .send →
    m.Begins ⟨i, .send⟩ (Connection.send i length) (.ok (.awaiting ⟨i, .send⟩))
  refusesSend : ∀ length, ¬ (length ≤ s.sendHalf.length ∧ s.state ∈ Slot.startsFrom .send) →
    ∃ e, Connection.send i length m = .ok (.error e) m
  /-- No cell is completed twice. -/
  once : ∀ move : Move, move.Allowed m → ∀ m', move.run serve m ≠ .error .completedTwice m'

end Machine

variable {m : Machine α} {s : Slot} {v : View}

/-- A slot has one command at most. -/
theorem Resting.commands_length (h : Resting i v) :
    v.commands.length ≤ 1 ∧ (v.slot? = none → v.commands = []) := by
  rcases h with ⟨s, hcalm, -⟩ | habsent
  · refine ⟨?_, fun hnone => by rw [hcalm.here] at hnone; cases hnone⟩
    cases hc : v.commands with
    | nil => exact Nat.zero_le 1
    | cons c rest =>
      obtain ⟨rfl, -⟩ := hcalm.popped hc
      exact Nat.le_refl 1
  · rw [habsent.commands]
    exact ⟨Nat.zero_le 1, fun _ => rfl⟩

namespace Calm

/-- What came before an operation began has left nothing outstanding, and what came after tells how it ended. -/
theorem told_since (h : Calm i v s) (hhistory : v.history = since ++ .began ⟨i, half⟩ :: before)
    (hsince : ∀ cell, Event.began cell ∈ since → cell.half ≠ half) :
    told half v.history = ⟨true, ending half since, waiting half since, woken half since⟩ ∧
      ∀ o, ending half since = some o ↔ Ended half since o := by
  obtain ⟨p, hp, -⟩ := h.stage
  rw [hhistory] at hp ⊢
  have hsteps := Phase.Steps.of_phase hp
  obtain ⟨q, r, hbefore, hstep, hafter⟩ := hsteps.around
  cases hstep with
  | begin =>
    exact ⟨SlotServer.told_since (hbefore.outstanding_eq rfl), (hafter.ending rfl hsince).1⟩
  | aside hmove => cases hmove

theorem pends (h : Calm i (m.view [] i) s) (hhistory : m.history i = since ++ .began ⟨i, half⟩ :: before)
    (hsince : ∀ cell, Event.began cell ∈ since → cell.half ≠ half) (hstate : s.state = half.working) :
    m.Pends ⟨i, half⟩ since := by
  obtain ⟨htold, hended⟩ := h.told_since hhistory hsince
  have hworks : s.state.works half = true := Half.works_iff.2 hstate
  have hwaits := h.telling.waits half hworks
  have hunended : ending half since = none := by
    have hnone : (told half (m.history i)).ending = none := h.unended half hworks
    rw [show told half (m.history i) = _ from htold] at hnone
    exact hnone
  refine ⟨fun o ho => ?_, fun waker => ?_, ?_⟩
  · rw [(hended o).2 ho] at hunended
    cases hunended
  · obtain ⟨c, hpoll, -⟩ := hwaits.poll waker
    refine ⟨_, (Connection.pollFuture_run h.here).trans (by rw [hpoll]), ?_⟩
    exact List.filter_cons_of_pos (decide_eq_true rfl)
  · have hwoken := hwaits.woken
    rw [htold] at hwoken
    exact hwoken

theorem delivers (h : Calm i (m.view [] i) s) (hhistory : m.history i = since ++ .began ⟨i, half⟩ :: before)
    (hsince : ∀ cell, Event.began cell ∈ since → cell.half ≠ half) (hstate : s.state ≠ half.working) :
    ∃ o, m.Delivers ⟨i, half⟩ since o := by
  obtain ⟨htold, hended⟩ := h.told_since hhistory hsince
  have hworks : s.state.works half = false := Bool.eq_false_iff.2 fun hworks => hstate (Half.works_iff.1 hworks)
  have htells := h.telling.tells half hworks (by rw [htold])
  rw [htold] at htells
  refine ⟨(ending half since).getD (.error .connectionClosed), fun waker => ?_, ?_, htells.woken⟩
  · rw [Connection.pollFuture_run h.here, htells.poll waker]
    dsimp only
    rw [Slot.setCell_cell, Worker.setSlot_self h.here]
    rfl
  · cases hending : ending half since with
    | some o =>
      refine .inl fun o' => ?_
      rw [← hended o', hending]
      exact ⟨fun ho => (Option.some.inj ho).symm, fun ho => by rw [ho]; rfl⟩
    | none =>
      refine .inr ⟨rfl, htells.closed hending, fun o ho => ?_⟩
      rw [(hended o).2 ho] at hending
      cases hending

end Calm

/-- A call of an idle connection comes to its end, where every slot is at rest. -/
theorem Machine.All.leads (h : m.All Resting []) {x : Run α β} {Q : β → View → Prop}
    (hx : ∀ R : Rely, R.Quiet (m.view [] i) → Leads R i x (m.view [] i) Q)
    (hcalm : Calm i (m.view [] i) s) (hidle : s.state.isIdle = true) : ∃ b m', x m = .ok b m' ∧ Q b (m'.view [] i) := by
  have hquiet : Rely.Quiet ⟨Resting, fun _ => False⟩ (m.view [] i) :=
    ⟨by rw [hcalm.here]; rfl, (hcalm.of_idle hidle).1, fun _ _ hrest => hrest.commands_length⟩
  have hrun := hx _ hquiet m [] (fun j _ => h j) rfl
  cases hm : x m with
  | error fault m' =>
    rw [hm] at hrun
    exact absurd hrun id
  | ok b m' =>
    rw [hm] at hrun
    exact ⟨b, m', rfl, hrun.1⟩

/-- A call that begins an operation comes to its end, where every slot is at rest. -/
theorem Machine.All.begins (h : m.All Resting []) {x : Run α β} {future : β}
    (hx : ∀ R : Rely, R.Quiet (m.view [] i) →
      Leads R i x (m.view [] i) fun b v' => b = future ∧ ∃ s', v' = (m.view [] i).begin i half s')
    (hcalm : Calm i (m.view [] i) s) (hidle : s.state.isIdle = true) : m.Begins ⟨i, half⟩ x future := by
  obtain ⟨b, m', hm, rfl, s', hview⟩ := h.leads hx hcalm hidle
  exact ⟨m', hm, congrArg View.history hview⟩

/-- Whatever a worker over an honest kernel comes to, a future is pending as long as its operation is under way and
tells of that operation afterwards, and what is refused changes nothing. -/
theorem HonestRun.outcomes {serve : Run.Serve α} (hserve : Modest serve) (h : HonestRun serve m)
    (hs : m.worker.slots[i]? = some s) : m.Outcomes serve i s := by
  have hall := h.resting hserve
  rcases hall i with ⟨s', hcalm, hover⟩ | habsent
  case inr =>
    rw [show m.worker.slots[i]? = none from habsent.slot] at hs
    cases hs
  obtain rfl : s = s' := Option.some.inj (hs.symm.trans hcalm.here)
  have hlast : ∀ {half : Half} {since before : List Event}, m.history i = since ++ .began ⟨i, half⟩ :: before →
      .began ⟨i, half⟩ ∉ since → ∀ cell, Event.began cell ∈ since → cell.half ≠ half := by
    rintro half since before hhistory hsince ⟨j, half'⟩ hcell rfl
    have hmem : Event.began ⟨j, half'⟩ ∈ m.history i := hhistory ▸ List.mem_append_left _ hcell
    obtain rfl : j = i := of_decide_eq_true (List.mem_filter.1 hmem).2
    exact hsince hcell
  have hexited : s.state.isIdle = true → m.worker.exited = false := fun hidle =>
    Calm.exited_of_live hover (SlotState.ne_disconnected_of_isIdle hidle)
  exact
    { pends := fun half since before hhistory hsince => hcalm.pends hhistory (hlast hhistory hsince)
      delivers := fun half since before hhistory hsince => hcalm.delivers hhistory (hlast hhistory hsince)
      receives := fun hstart => by
        have hidle := Slot.isIdle_of_startsFrom hstart
        refine hall.begins (fun R hquiet => ?_) hcalm hidle
        exact Leads.receive hcalm.here (fun _ => ⟨hexited hidle, .inl hquiet, rfl, _, rfl⟩) (absurd hstart)
      refusesReceive := Connection.receive_refused hs
      sends := fun length ⟨hlength, hstart⟩ => by
        have hidle := Slot.isIdle_of_startsFrom hstart
        refine hall.begins (fun R hquiet => ?_) hcalm hidle
        refine Leads.send hcalm.here (fun _ _ => ⟨hexited hidle, .inl hquiet, rfl, _, rfl⟩) ?_
        rintro (hlong | hmem)
        · exact absurd hlength (Nat.not_le.2 hlong)
        · exact absurd hstart hmem
      refusesSend := fun _ => Connection.send_refused hs
      once := fun move hallowed m' hrun => by
        have hholds := Resting.move hserve hall hallowed
        unfold Holds at hholds
        rw [hrun] at hholds
        exact hholds rfl }

theorem HonestRun.outcomes_receiving : ∃ m s,
    Machine.small?.bind (·.after? Application.serve [.assign 5 none, .command, .deed 0 .receive, .command]) = some m ∧
      m.worker.slots[0]? = some s ∧ s.state = .receiving ∧ m.Outcomes Application.serve 0 s := by
  have hany : (Machine.small?.bind
      (·.after? Application.serve [.assign 5 none, .command, .deed 0 .receive, .command])).any
        (fun m => m.worker.slots[0]?.any fun s => s.state = .receiving) = true := by decide +kernel
  obtain ⟨m, hafter, hstate⟩ := (Option.any_eq_true ..).1 hany
  obtain ⟨s, hs, hstate⟩ := (Option.any_eq_true ..).1 hstate
  exact ⟨m, s, hafter, hs, of_decide_eq_true hstate,
    HonestRun.outcomes Application.modest_serve (HonestRun.of_built hafter) hs⟩

end SlotServer
