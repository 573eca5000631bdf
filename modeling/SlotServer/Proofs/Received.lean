import SlotServer.Proofs.Descriptors
import SlotServer.Proofs.Ledger
import SlotServer.Proofs.Outcomes
import SlotServer.Proofs.Receipts

/-!
# What a connection may read

A connection may read what its last receive delivered, and nothing while one is under way. There is one exception: a
receive that is outstanding when the kernel's side is let go ends with the error that the connection is closed, but what
could be read before it began can be read again.

- `LastReceive`: the receive that a connection began last;
- `CutShort`: the kernel's side was let go while it was outstanding;
- `Stands`: how it stands, told by what was recorded since it began. Every event keeps this (`Stands.step`), so it holds
  of every record (`Phase.Steps.stands`);
- `Machine.Reads`: what a handle may read, and `HonestFrom.reads`: that it may, under an honest kernel;
- `not_empty_cutShort`: a connection whose last receive was cut short, with a byte to be read.
-/

namespace SlotServer

variable {α : Type} {i count : Nat} {h since before : List Event} {e : Event} {p p' : Phase} {r : Receipt}

/-! ## The receive that began last -/

/-- The receive that the slot's present connection began last, with what was recorded since then and before. -/
structure LastReceive (i : Nat) (h since before : List Event) : Prop where
  parts : h = since ++ .began ⟨i, .receive⟩ :: before
  last : ∀ cell, .began cell ∈ since → cell.half ≠ .receive
  /-- No socket was bound since. -/
  own : ∀ e ∈ since, e.isBound = false

/-- The kernel's side was let go while a receive was outstanding. -/
def CutShort (since : List Event) : Prop :=
  ∃ late early, since = late ++ .released :: early ∧ receiveOut early = true

theorem CutShort.not_nil : ¬ CutShort [] := by
  rintro ⟨late, early, hsince, -⟩
  exact List.append_ne_nil_of_right_ne_nil late (List.cons_ne_nil _ early) hsince.symm

theorem CutShort.cons_iff : CutShort (e :: h) ↔ e = .released ∧ receiveOut h = true ∨ CutShort h := by
  constructor
  · rintro ⟨late, early, hsince, hout⟩
    cases late with
    | nil =>
      obtain ⟨rfl, rfl⟩ := List.cons.inj hsince
      exact .inl ⟨rfl, hout⟩
    | cons e' late =>
      obtain ⟨rfl, rfl⟩ := List.cons.inj hsince
      exact .inr ⟨late, early, rfl, hout⟩
  · rintro (⟨rfl, hout⟩ | ⟨late, early, rfl, hout⟩)
    · exact ⟨[], h, rfl, hout⟩
    · exact ⟨e :: late, early, rfl, hout⟩

/-- Without a receive of the present connection there is nothing to be read. -/
theorem receipt_of_none (hall : ∀ e ∈ h, e.concerns i = true)
    (hnone : ∀ since before, ¬ LastReceive i h since before) : receipt h = ⟨0, false⟩ := by
  induction h with
  | nil => rfl
  | cons e h ih =>
    cases hbound : e.isBound with
    | true => cases e <;> first | rfl | cases hbound
    | false =>
      have hbegan : ∀ cell, e = .began cell → cell.half ≠ .receive := by
        rintro ⟨j, half⟩ rfl rfl
        obtain rfl : j = i := of_decide_eq_true (hall _ (List.mem_cons_self ..))
        exact hnone [] h ⟨rfl, nofun, nofun⟩
      have hbefore : receipt h = ⟨0, false⟩ := by
        refine ih (fun e' he' => hall e' (List.mem_cons_of_mem _ he')) fun since before hlast => ?_
        refine hnone (e :: since) before ⟨congrArg (e :: ·) hlast.parts, fun cell hcell => ?_, fun e' he' => ?_⟩
        · exact (List.mem_cons.1 hcell).elim (fun hsame => hbegan cell hsame.symm) (hlast.last cell)
        · exact (List.mem_cons.1 he').elim (fun hsame => hsame ▸ hbound) (hlast.own e')
      show (receipt h).next _ e = _
      rw [hbefore]
      exact Receipt.next_of_not_pending rfl _ hbound hbegan

/-! ## How a receive stands -/

/-- What is outstanding in the phase after an event is of the kind that the phase says. -/
theorem Phase.Step.proper (hstep : Step p e p') (hp : p.Proper) : p'.Proper := by
  cases hstep with
  | take hhalf => exact fun hnone => by rw [hhalf] at hnone; cases hnone
  | close _ hhalf => exact hhalf
  | answer =>
    unfold Phase.answer
    split
    · trivial
    · split <;> trivial
    · split <;> trivial
  | letGo => cases p <;> trivial
  | setUp | hangUp | aside => exact hp
  | _ => trivial

/-- A receive is outstanding only in a phase that says so. -/
theorem Phase.receiveOut_of_off (hp : p.Proper) (hoff : p.isOn .receive = false) (hops : outstanding h = p.ops) :
    receiveOut h = false := by
  rw [receiveOut, hops]
  cases p with
  | busy op => exact (Bool.or_false _).trans hoff
  | closing op =>
    have hhalf : op.half? = none := hp
    simp [ops, hhalf]
  | _ => rfl

/-- How a receive stands, told by what was recorded since it began: the phase that this has led to, and what is told of
the slot's receives, where so many bytes could be read before. -/
inductive Stands (count : Nat) (since : List Event) (p : Phase) : Receipt → Prop
  | on (hon : p.isOn .receive = true) (hnone : ending .receive since = none) (huncut : ¬ CutShort since) :
    Stands count since p ⟨count, true⟩
  /-- Without an answer the socket is only to be closed. -/
  | past (hoff : p.isOn .receive = false) (hworn : ending .receive since = none → p.isWorn = true)
    (huncut : ¬ CutShort since) :
    Stands count since p ⟨delivered ((ending .receive since).getD (.error .connectionClosed)), false⟩
  | cut (hoff : p.isOn .receive = false) (hworn : p.isWorn = true) (hnone : ending .receive since = none)
    (hcut : CutShort since) : Stands count since p ⟨count, false⟩

namespace Stands

section On

variable (hstep : Phase.Step p e p') (hops : outstanding since = p.ops) (hon : p.isOn .receive = true)
  (hnone : ending .receive since = none) (huncut : ¬ CutShort since)
  (hbegan : ∀ cell, e = .began cell → cell.half ≠ .receive)

include hstep hops hon hnone huncut hbegan

/-- When the kernel's side is let go, a receive that is under way is cut short, unless it was not queued yet. -/
theorem step_released (he : e = .released) :
    Stands count (e :: since) p' (Receipt.next ⟨count, true⟩ (receiveOut since) e) := by
  have hending : ending .receive (e :: since) = none := by
    rw [ending_cons hbegan, hnone, he]
    rfl
  subst he
  cases hstep with
  | letGo =>
    cases p with
    | due fd half =>
      have hout : receiveOut since = false := by rw [receiveOut, hops]; rfl
      have huncut' : ¬ CutShort (.released :: since) := fun hcut =>
        (CutShort.cons_iff.1 hcut).elim (fun hnow => by rw [hout] at hnow; cases hnow.2) huncut
      have hpast : Stands count (.released :: since) (Phase.due fd half).letGo _ :=
        .past rfl (fun _ => rfl) huncut'
      rw [hending] at hpast
      rw [hout]
      exact hpast
    | busy op =>
      have hout : receiveOut since = true := by
        rw [receiveOut, hops]
        exact (Bool.or_false _).trans hon
      rw [hout]
      exact .cut rfl rfl hending (CutShort.cons_iff.2 (.inl ⟨rfl, hout⟩))
    | _ => cases hon
  | aside hmove => cases hmove

/-- Otherwise a receive that is under way goes on, or is over. -/
theorem step_on (he : e ≠ .released) :
    Stands count (e :: since) p' (Receipt.next ⟨count, true⟩ (receiveOut since) e) := by
  have hending : ending .receive (e :: since) = e.ends .receive since := by
    rw [ending_cons hbegan, hnone, Option.none_or]
  have huncut' : ¬ CutShort (e :: since) := fun hcut =>
    (CutShort.cons_iff.1 hcut).elim (fun hnow => he hnow.1) huncut
  -- what goes on, what is over with an answer, and what is over without one
  have hgoesOn : e.ends .receive since = none → p'.isOn .receive = true → Stands count (e :: since) p' ⟨count, true⟩ :=
    fun hends hon' => .on hon' (hending.trans hends) huncut'
  have htold : ∀ {o}, e.ends .receive since = some o → p'.isOn .receive = false →
      Stands count (e :: since) p' ⟨delivered o, false⟩ := by
    intro o hends hoff
    have hpast : Stands count (e :: since) p' _ :=
      .past hoff (fun hnone' => by rw [hending, hends] at hnone'; cases hnone') huncut'
    rw [hending, hends] at hpast
    exact hpast
  have hlost : e.ends .receive since = none → p'.isOn .receive = false → p'.isWorn = true →
      Stands count (e :: since) p' ⟨0, false⟩ := by
    intro hends hoff hworn
    have hpast : Stands count (e :: since) p' _ := .past hoff (fun _ => hworn) huncut'
    rw [hending, hends] at hpast
    exact hpast
  cases hstep with
  | bind | setUp | begin | closed => cases hon
  | hangUp => exact hgoesOn rfl hon
  | @take op half hhalf =>
    obtain rfl : half = .receive := of_decide_eq_true hon
    cases op with
    | receive => exact hgoesOn rfl rfl
    | send | close => cases hhalf
  | @close p op _ hhalf =>
    cases op with
    | close => exact hlost rfl rfl rfl
    | receive | send => cases hhalf
  | @refuse op err half hhalf =>
    obtain rfl : half = .receive := of_decide_eq_true hon
    exact htold (if_pos hhalf) rfl
  | refuseClose _ hhalf => exact hlost (if_neg (by rw [hhalf]; exact nofun)) rfl rfl
  | @answer op c _ hctx =>
    have hhalf : op.half? = some .receive := of_decide_eq_true hon
    refine htold (if_pos ?_) (Phase.isOn_answer .receive op c.result)
    rw [answersHalf, hops]
    simp [Phase.ops, hctx, hhalf]
  | cut => exact hlost rfl rfl rfl
  | letGo => exact absurd rfl he
  | aside hmove =>
    cases e with
    | registered | unregistered | submitted | polled | rung | served | started | awaited | woke | asked | said =>
      exact hgoesOn rfl hon
    | _ => cases hmove

end On

/-- Every event but a new socket and a new receive keeps how a receive stands. -/
theorem step (h : Stands count since p r) (hstep : Phase.Step p e p') (hproper : p.Proper)
    (hops : outstanding since = p.ops) (hbound : e.isBound = false)
    (hbegan : ∀ cell, e = .began cell → cell.half ≠ .receive) :
    Stands count (e :: since) p' (r.next (receiveOut since) e) := by
  -- once it is off, it stays as it is
  have hstays : p.isOn .receive = false → p'.isOn .receive = false ∧ (CutShort (e :: since) ↔ CutShort since) ∧
      ending .receive (e :: since) = ending .receive since := by
    intro hoff
    refine ⟨Bool.eq_false_iff.2 fun hon => ?_, ?_, ?_⟩
    · rw [hstep.isOn_of hbegan hon] at hoff
      cases hoff
    · rw [CutShort.cons_iff, Phase.receiveOut_of_off hproper hoff hops]
      simp
    · have hends : e.ends .receive since = none := Option.eq_none_iff_forall_ne_some.2 fun o ho => by
        rw [(hstep.isOn_of_ends hops ho).1] at hoff
        cases hoff
      rw [ending_cons hbegan, hends, Option.or_none]
  cases h with
  | on hon hnone huncut =>
    by_cases he : e = .released
    · exact step_released hstep hops hon hnone huncut hbegan he
    · exact step_on hstep hops hon hnone huncut hbegan he
  | past hoff hworn huncut =>
    obtain ⟨hoff', hcut, hending⟩ := hstays hoff
    rw [Receipt.next_of_not_pending rfl _ hbound hbegan, ← hending]
    exact .past hoff' (fun hnone => (hstep.worn_stays hbound (hworn (hending ▸ hnone))).1) fun h' => huncut (hcut.1 h')
  | cut hoff hworn hnone hcut' =>
    obtain ⟨hoff', hcut, hending⟩ := hstays hoff
    rw [Receipt.next_of_not_pending rfl _ hbound hbegan]
    exact .cut hoff' (hstep.worn_stays hbound hworn).1 (hending.trans hnone) (hcut.2 hcut')

/-- A receive that is not under way any more is over, or was cut short. -/
theorem of_not_pending {n : Nat} (h : Stands count since p ⟨n, false⟩) :
    ¬ CutShort since ∧ n = delivered ((ending .receive since).getD (.error .connectionClosed)) ∨
      CutShort since ∧ ending .receive since = none ∧ n = count := by
  generalize hr : (⟨n, false⟩ : Receipt) = r at h
  cases h with
  | on => cases hr
  | past _ _ huncut => exact .inl ⟨huncut, congrArg Receipt.count hr⟩
  | cut _ _ hnone hcut => exact .inr ⟨hcut, hnone, congrArg Receipt.count hr⟩

/-- A receive that was cut short is not under way any more. -/
theorem not_pending_of_cutShort (h : Stands count since p r) (hcut : CutShort since) : r.pending = false := by
  cases h with
  | on _ _ huncut => exact absurd hcut huncut
  | past | cut => rfl

end Stands

/-- How a receive stands after all that was recorded since it began. -/
theorem Phase.Steps.stands {fd : Int} (hsteps : Phase.Steps (.due fd .receive) since p)
    (hbefore : outstanding before = []) (hown : ∀ e ∈ since, e.isBound = false)
    (hlast : ∀ cell, Event.began cell ∈ since → cell.half ≠ .receive) :
    Stands (receipt before).count since p (receipt (since ++ .began ⟨i, .receive⟩ :: before)) ∧ p.Proper := by
  induction hsteps with
  | nil => exact ⟨.on rfl rfl CutShort.not_nil, trivial⟩
  | @cons p p' e since hsteps hstep ih =>
    obtain ⟨hstands, hproper⟩ := ih (fun e' he' => hown e' (List.mem_cons_of_mem _ he'))
      fun cell hcell => hlast cell (List.mem_cons_of_mem _ hcell)
    have hout : receiveOut (since ++ .began ⟨i, .receive⟩ :: before) = receiveOut since := by
      rw [receiveOut, outstanding_append since (.began ⟨i, .receive⟩ :: before) hbefore, receiveOut]
    refine ⟨?_, hstep.proper hproper⟩
    show Stands _ _ _ ((receipt (since ++ _)).next (receiveOut (since ++ _)) e)
    rw [hout]
    exact hstands.step hstep hproper (hsteps.outstanding_eq rfl) (hown e (List.mem_cons_self ..))
      fun cell hcell => hlast cell (hcell ▸ List.mem_cons_self ..)

/-- The record before the receive that began last, and how that one stands. -/
theorem LastReceive.stands (hlast : LastReceive i h since before) (hsteps : Phase.Steps .free h p) :
    (∃ fd last, Phase.Steps .free before (.idle fd last)) ∧
      (∀ o, ending .receive since = some o ↔ Ended .receive since o) ∧
      Stands (receipt before).count since p (receipt h) := by
  rw [hlast.parts] at hsteps ⊢
  obtain ⟨q, r, hbefore, hbegin, hafter⟩ := hsteps.around
  cases hbegin with
  | begin =>
    exact ⟨⟨_, _, hbefore⟩, (hafter.ending rfl hlast.last).1,
      (hafter.stands (hbefore.outstanding_eq rfl) hlast.own hlast.last).1⟩
  | aside hmove => cases hmove

/-- So many bytes are left to be read by the receives of the present connection, none of which is under way. -/
structure Leaves (i : Nat) (h : List Event) (count : Nat) : Prop where
  none : (∀ since before, ¬ LastReceive i h since before) → count = 0
  last : ∀ since before, LastReceive i h since before → ∃ o, Ended .receive since o ∧ count = delivered o

/-- What an idle connection may read is what its last receive has left. -/
theorem Leaves.of_idle {fd : Int} {last : Option Half} (hall : ∀ e ∈ h, e.concerns i = true)
    (hsteps : Phase.Steps .free h (.idle fd last)) : Leaves i h (receipt h).count where
  none hnone := by rw [receipt_of_none hall hnone]
  last since before hlast := by
    obtain ⟨-, hended, hstands⟩ := hlast.stands hsteps
    generalize receipt h = r at hstands
    cases hstands with
    | on hon => cases hon
    | cut _ hworn => cases hworn
    | past _ hworn =>
      cases hending : ending .receive since with
      | none => cases hworn hending
      | some o => exact ⟨o, (hended o).1 hending, rfl⟩

/-! ## Handles -/

theorem Pool.read_within {pool : Pool} {seg : Segment} (h : seg.Within pool.regionLength) :
    pool.read seg = .ok (pool.bytesAt seg.offset seg.length) := by
  rw [read, place_of_within h]
  rfl

/-- The first bytes of a segment, as many as there are. -/
theorem Pool.read_front {pool : Pool} {seg : Segment} (h : seg.Within pool.regionLength) (n : Nat) :
    pool.read { seg with length := min n seg.length } = .ok ((pool.bytesAt seg.offset seg.length).take n) := by
  have hwithin : ({ seg with length := min n seg.length } : Segment).Within pool.regionLength := by
    have hle := Nat.min_le_right n seg.length
    obtain ⟨hword, hregion⟩ := h
    exact ⟨by dsimp only; omega, by dsimp only; omega⟩
  rw [read_within hwithin, bytesAt, bytesAt, ← List.map_take, List.take_range]

theorem Connection.bytes_run {m : Machine α} {seg : Segment} {bytes : List UInt8}
    (h : m.worker.pool.read seg = .ok bytes) : (Connection.bytes seg : Run α (List UInt8)) m = .ok bytes m := by
  show (Run.ofExcept (m.worker.pool.read seg) : Run α (List UInt8)) m = _
  rw [h]
  rfl

/-- A handle may read the first bytes of the receive half, so many of them or as many as there are. -/
def Machine.Shows (m : Machine α) (i : Nat) (s : Slot) (n : Nat) : Prop :=
  ∃ half tx, m.worker.pool.read s.receiveHalf = .ok half ∧ Connection.received i m = .ok (half.take n) m ∧
    Connection.buffers i m = .ok (half.take n, tx) m

/-- What a handle may read of a slot's receives. -/
structure Machine.Reads (m : Machine α) (i : Nat) (s : Slot) : Prop where
  /-- Nothing can be read while a receive is under way, nor has that one an outcome. -/
  pending : s.state = .receiving → m.Shows i s 0 ∧
    ∀ since before, LastReceive i (m.history i) since before → m.Pends ⟨i, .receive⟩ since
  /-- Nothing can be read where the connection has begun no receive. -/
  none : (∀ since before, ¬ LastReceive i (m.history i) since before) → m.Shows i s 0
  /-- What can be read is what the last receive's future tells, unless that receive was cut short. -/
  past : ∀ since before, LastReceive i (m.history i) since before → s.state ≠ .receiving → ¬ CutShort since →
    ∃ o, m.Delivers ⟨i, .receive⟩ since o ∧ m.Shows i s (delivered o)
  /-- One that was cut short tells of no bytes, and those of the one before it can be read. -/
  cut : ∀ since before, LastReceive i (m.history i) since before → CutShort since →
    m.Delivers ⟨i, .receive⟩ since (.error .connectionClosed) ∧ ∃ n, Leaves i before n ∧ m.Shows i s n

section Handles

variable {m : Machine α} {s : Slot} {o : Outcome}

theorem Machine.shows {n : Nat} (hs : m.worker.slots[i]? = some s)
    (hwithin : ∀ half, (s.segment half).Within m.worker.pool.regionLength)
    (hview : Connection.receivedView s = { s.receiveHalf with length := min n s.receiveHalf.length }) :
    m.Shows i s n := by
  have hfront := Connection.bytes_run (hview ▸ Pool.read_front (hwithin .receive) n)
  have hsend := Connection.bytes_run (Pool.read_within (Connection.within_view (hwithin .send)))
  exact ⟨_, _, Pool.read_within (hwithin .receive), (Run.bind_run (Run.slot?_run hs)).trans hfront,
    (Run.bind_run (Run.slot?_run hs)).trans ((Run.bind_run hfront).trans (Run.bind_run hsend))⟩

/-- What a future tells is how its operation ended, or that the connection is closed. -/
theorem Machine.Delivers.outcome (h : m.Delivers ⟨i, .receive⟩ since o)
    (hended : ∀ o, ending .receive since = some o ↔ Ended .receive since o) :
    (ending .receive since).getD (.error .connectionClosed) = o := by
  rcases h.ended with hone | ⟨rfl, -, hno⟩
  · rw [(hended o).2 ((hone o).2 rfl)]
    rfl
  · cases hending : ending .receive since with
    | none => rfl
    | some o => exact absurd ((hended o).1 hending) (hno o)

end Handles

variable {serve : Run.Serve α} {config : Config} {cores : Nat} {m : Machine α} {s : Slot}

/-- Whatever a worker over an honest kernel comes to, a handle may read what the last receive of its connection has
delivered, or, where that receive was cut short, what the one before it has. -/
theorem HonestFrom.reads (hmodest : Modest serve) (hdiscreet : Discreet serve)
    (h : HonestFrom serve config cores m) (hs : m.worker.slots[i]? = some s) : m.Reads i s := by
  obtain ⟨hledger, hfits⟩ := h.ledger hdiscreet
  have hwithin : ∀ half, (s.segment half).Within m.worker.pool.regionLength := by
    intro half
    rw [hledger.laid.segment i s half hs, hledger.laid.region]
    exact Layout.within hfits (hledger.laid.count ▸ (List.getElem?_eq_some_iff.1 hs).1) half
  have hcalm : Calm i (m.view [] i) s := (h.run.resting hmodest i |>.calm hs).1
  obtain ⟨p, hp, -⟩ := hcalm.stage
  have hsteps : Phase.Steps .free (m.history i) p := Phase.Steps.of_phase hp
  have hall : ∀ e ∈ m.history i, e.concerns i = true := fun e he => (List.mem_filter.1 he).2
  have hreceipt := h.run.heard hmodest hs
  have hhidden : s.state = .receiving → m.Shows i s 0 := fun hstate => Machine.shows hs hwithin (by
    rw [Nat.zero_min]
    exact if_pos hstate)
  have hcount : s.state ≠ .receiving → m.Shows i s s.receivedLength := fun hstate =>
    Machine.shows hs hwithin (if_neg hstate)
  have hidle : s.state ≠ .receiving → receipt (m.history i) = ⟨s.receivedLength, false⟩ := fun hstate => by
    have hoff : s.state.works .receive = false := Bool.eq_false_iff.2 fun hworks => hstate (Half.works_iff.1 hworks)
    rw [hreceipt, hoff]
  exact
    { pending := fun hstate => ⟨hhidden hstate, fun since before hlast => hcalm.pends hlast.parts hlast.last hstate⟩
      none := fun hnone => by
        by_cases hstate : s.state = .receiving
        · exact hhidden hstate
        · have hsame := hidle hstate
          rw [receipt_of_none hall hnone] at hsame
          have hlength : 0 = s.receivedLength := congrArg Receipt.count hsame
          rw [hlength]
          exact hcount hstate
      past := fun since before hlast hstate huncut => by
        obtain ⟨o, hdelivers⟩ := hcalm.delivers hlast.parts hlast.last hstate
        obtain ⟨-, hended, hstands⟩ := hlast.stands hsteps
        rw [hidle hstate] at hstands
        obtain ⟨-, hlength⟩ := hstands.of_not_pending.resolve_right fun hcut => huncut hcut.1
        rw [hdelivers.outcome hended] at hlength
        exact ⟨o, hdelivers, hlength ▸ hcount hstate⟩
      cut := fun since before hlast hcut => by
        obtain ⟨⟨fd, last, hbefore⟩, hended, hstands⟩ := hlast.stands hsteps
        have hstate : s.state ≠ .receiving := fun hstate => by
          have hpending := hstands.not_pending_of_cutShort hcut
          rw [hreceipt, hstate] at hpending
          cases hpending
        rw [hidle hstate] at hstands
        obtain ⟨-, hnone, hlength⟩ := hstands.of_not_pending.resolve_left fun hpast => hpast.1 hcut
        obtain ⟨o, hdelivers⟩ := hcalm.delivers hlast.parts hlast.last hstate
        obtain rfl : .error .connectionClosed = o := by
          rw [← hdelivers.outcome hended, hnone]
          rfl
        refine ⟨hdelivers, _, Leaves.of_idle (fun e he => ?_) hbefore, hlength ▸ hcount hstate⟩
        exact hall e (hlast.parts ▸ List.mem_append_right _ (List.mem_cons_of_mem _ he)) }

/-- A machine whose connection has received a byte and sent one, and was torn down while it received again. -/
def Machine.cutShort? : Option (Machine Application) :=
  small?.bind (·.played? Application.serve
    [.moves [.assign 5 none, .command, .deed 0 .receive, .command], .answer (.receive (.ofSlot 0) 5 0 1 0) 1,
      .moves [.take, .deed 0 (.send 1), .command], .answer (.send (.ofSlot 0) 5 1 1 0) 1,
      .moves [.take, .deed 0 .receive, .command, .finish]])

theorem HonestFrom.of_cutShort {m : Machine Application} (h : Machine.cutShort? = some m) :
    ∃ config, HonestFrom Application.serve config 1 m := by
  obtain ⟨_, hbuilt, hcues⟩ := Option.bind_eq_some_iff.1 h
  exact ⟨_, Reached.played (.start (Machine.freshFrom_of_built? hbuilt)) hcues⟩

theorem HonestFrom.reads_cutShort : ∃ m s,
    Machine.cutShort? = some m ∧ m.worker.slots[0]? = some s ∧ s.state = .disconnected ∧ s.receivedLength = 1 ∧
      m.Reads 0 s := by
  have hany : Machine.cutShort?.any (fun m =>
      m.worker.slots[0]?.any fun s => s.state = .disconnected ∧ s.receivedLength = 1) = true := by decide +kernel
  obtain ⟨m, hplayed, hslot⟩ := (Option.any_eq_true ..).1 hany
  obtain ⟨s, hs, hslot⟩ := (Option.any_eq_true ..).1 hslot
  obtain ⟨hstate, hlength⟩ := of_decide_eq_true hslot
  obtain ⟨_, hrun⟩ := HonestFrom.of_cutShort hplayed
  exact ⟨m, s, hplayed, hs, hstate, hlength,
    HonestFrom.reads Application.modest_serve Application.discreet_serve hrun hs⟩

/-- The receive that was cut short has ended with an error, and yet its connection can read a byte. -/
theorem not_empty_cutShort : ∃ m config since before,
    Machine.cutShort? = some m ∧ HonestFrom Application.serve config 1 m ∧ 0 ∈ m.held ∧
      LastReceive 0 (m.history 0) since before ∧ m.Delivers ⟨0, .receive⟩ since (.error .connectionClosed) ∧
      Connection.received 0 m = .ok [0] m ∧ Connection.buffers 0 m = .ok ([0], [0]) m := by
  have hany : Machine.cutShort?.any (fun m => 0 ∈ m.held ∧
      m.history 0 = [.closed (some 0) 5, .released, .queued (.receive (.ofSlot 0) 5 0 1 0)] ++
        .began ⟨0, .receive⟩ :: (m.history 0).drop 4 ∧
      m.worker.slots[0]?.any fun s => s.state = .disconnected ∧
        (m.worker.pool.read (Connection.receivedView s)).toOption = some [0] ∧
        (m.worker.pool.read (Connection.sendView s)).toOption = some [0]) = true := by decide +kernel
  obtain ⟨m, hplayed, hall⟩ := (Option.any_eq_true ..).1 hany
  obtain ⟨hheld, hhistory, hslot⟩ := of_decide_eq_true hall
  obtain ⟨s, hs, hslot⟩ := (Option.any_eq_true ..).1 hslot
  obtain ⟨hstate, hreceived, hsend⟩ := of_decide_eq_true hslot
  obtain ⟨config, hrun⟩ := HonestFrom.of_cutShort hplayed
  have hlast : LastReceive 0 (m.history 0) _ _ := ⟨hhistory, fun cell hcell => by simp at hcell, by decide⟩
  -- no answer was recorded
  have hcalm := (hrun.run.resting Application.modest_serve 0 |>.calm hs).1
  obtain ⟨o, hdelivers⟩ := hcalm.delivers hlast.parts hlast.last (by rw [hstate]; decide)
  obtain ⟨p, hp, -⟩ := hcalm.stage
  obtain ⟨-, hended, -⟩ := hlast.stands (Phase.Steps.of_phase hp)
  obtain rfl : .error .connectionClosed = o := hdelivers.outcome hended
  have hread : ∀ {seg}, (m.worker.pool.read seg).toOption = some [0] →
      (Connection.bytes seg : Run _ _) m = .ok [0] m := by
    intro seg hseg
    refine Connection.bytes_run ?_
    cases hbytes : m.worker.pool.read seg with
    | ok bytes => rw [hbytes] at hseg; exact congrArg _ (Option.some.inj hseg)
    | error e => rw [hbytes] at hseg; cases hseg
  exact ⟨m, config, _, _, hplayed, hrun, hheld, hlast, hdelivers,
    (Run.bind_run (Run.slot?_run hs)).trans (hread hreceived),
    (Run.bind_run (Run.slot?_run hs)).trans ((Run.bind_run (hread hreceived)).trans (Run.bind_run (hread hsend)))⟩

end SlotServer
