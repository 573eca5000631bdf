import SlotServer.Proofs.Lulls
import SlotServer.Proofs.Received

/-!
# Operations that are awaited

A handle begins an operation and awaits its outcome, while others are at work. The kernel answers it at most once, and
what the handle is told in the end is that answer.

- `Awaits`: what is recorded meanwhile, with the kernel's answer, kept by all that others do (`Awaits.lulls`);
- `Dormant`: no operation is awaited (`Dormant.lulls`);
- `Calm.op_of_outstanding`: the operation that a half has outstanding;
- `Machine.Grounded`: what is known of a worker in all its runs, kept by moves, answers and bytes that arrive.
-/

namespace SlotServer

variable {i n : Nat} {half other : Half} {answer? : Option Completion} {past since before : List Event}
  {ready ready' : List Completion} {x y : List Event × List Completion} {e : Event} {p : Phase} {o : Outcome}

/-! ## The record -/

/-- A socket is bound, or an operation begins. -/
def Event.begins : Event → Bool
  | .bound .. | .began _ => true
  | _ => false

theorem Event.half_of_begins (he : e.begins = false) : ∀ cell, e = .began cell → cell.half ≠ half := by
  rintro cell rfl
  cases he

theorem Event.begins_of_isCalm (he : e.isCalm = true) : e.begins = false := by
  cases e <;> first | rfl | cases he

/-- What ends well was answered. -/
theorem Event.answered_of_ends (h : e.ends half since = some (.ok n)) : ∃ c, e = .answered c ∧ c.outcome = .ok n := by
  cases e with
  | answered c =>
    unfold Event.ends at h
    dsimp only at h
    split at h
    · exact ⟨c, rfl, Option.some.inj h⟩
    · cases h
  | refused op e =>
    unfold Event.ends at h
    dsimp only at h
    split at h <;> cases h
  | _ => cases h

theorem proper_of_phase (hp : phase past = some p) : p.Proper := (@Phase.Steps.of_phaseFrom .free p past trivial hp).2

/-- The phase before an event that was recorded, and how it went on. -/
theorem phase_cons (hp : phase (e :: past) = some p) : ∃ q, phase past = some q ∧ Phase.Step q e p := by
  obtain ⟨q, hq, hnext⟩ := Option.bind_eq_some_iff.1 hp
  exact ⟨q, hq, (Phase.step_of_next (proper_of_phase hq) hnext).1⟩

/-- Others record one event at a time, and begin nothing. -/
theorem Lull.cons (hlull : Lull x y) : ∃ e, y.1 = e :: x.1 ∧ e.begins = false := by
  cases hlull with
  | note he => exact ⟨_, rfl, Event.begins_of_isCalm he⟩
  | close | take => exact ⟨_, rfl, rfl⟩

/-- Nothing is awaited of a slot: no operation of a half is to be queued or outstanding. -/
def Dormant (past : List Event) : Prop := ∀ p, phase past = some p → ∀ half, p.isOn half = false

/-- Nothing begins while others are at work. -/
theorem Dormant.lulls (h : Dormant x.1) (hlulls : Lulls x y) : Dormant y.1 := by
  induction hlulls with
  | refl => exact h
  | tail _ hlull ih =>
    intro p hp half
    obtain ⟨e, hcons, he⟩ := hlull.cons
    rw [hcons] at hp
    obtain ⟨q, hq, hstep⟩ := phase_cons hp
    refine Bool.eq_false_iff.2 fun hon => ?_
    have hoff := ih q hq half
    rw [hstep.isOn_of (Event.half_of_begins he) hon] at hoff
    cases hoff

/-- The operation of a half is awaited. `since` is what was recorded since it began, and `answer?` the kernel's answer
to it, which may be ready still. -/
structure Awaits (i : Nat) (half : Half) (answer? : Option Completion) (past : List Event) (ready : List Completion)
    (since before : List Event) : Prop where
  parts : past = since ++ .began ⟨i, half⟩ :: before
  own : ∀ e ∈ since, e.begins = false
  /-- While the operation is under way, the answer is ready if there is one. -/
  on : ∀ p, phase past = some p → p.isOn half = true → ready = answer?.toList
  /-- An operation that ended well has ended with that answer. -/
  told : ∀ n, ending half since = some (.ok n) → ∃ c, answer? = some c ∧ c.outcome = .ok n

namespace Awaits

/-- An operation that just began. -/
theorem begin (hpast : past = .began ⟨i, half⟩ :: before) (hready : ready = []) :
    Awaits i half none past ready [] before where
  parts := hpast
  own := nofun
  on _ _ _ := hready
  told := nofun

/-- No other operation has begun since. -/
theorem last (h : Awaits i half answer? past ready since before) : ∀ cell, .began cell ∈ since → cell.half ≠ other :=
  fun cell hcell => Event.half_of_begins (h.own _ hcell) cell rfl

/-- What was recorded since the operation began leads from its beginning to where it stands. -/
theorem steps (h : Awaits i half answer? past ready since before) (hp : phase past = some p) :
    ∃ fd, Phase.Steps (.due fd half) since p := by
  rw [h.parts] at hp
  obtain ⟨q, r, -, hbegin, hafter⟩ := (Phase.Steps.of_phase hp).around
  cases hbegin with
  | begin => exact ⟨_, hafter⟩
  | aside hmove => cases hmove

/-- No other half has an operation under way. -/
theorem off (h : Awaits i half answer? past ready since before) (hp : phase past = some p) (hother : other ≠ half) :
    p.isOn other = false := by
  obtain ⟨fd, hsteps⟩ := h.steps hp
  refine (hsteps.keeps (I := fun p => p.isOn other = false) (J := fun _ => True) (decide_eq_false hother.symm) h.own
    fun q e p hoff he hstep => ⟨Bool.eq_false_iff.2 fun hon => ?_, trivial⟩).1
  rw [hstep.isOn_of (Event.half_of_begins he) hon] at hoff
  cases hoff

/-- While the operation is under way it has not ended. -/
theorem unended (h : Awaits i half answer? past ready since before) (hp : phase past = some p)
    (hon : p.isOn half = true) : ending half since = none := by
  obtain ⟨fd, hsteps⟩ := h.steps hp
  obtain ⟨hiff, hoff⟩ := hsteps.ending rfl h.last
  refine Option.eq_none_iff_forall_ne_some.2 fun o ho => ?_
  rw [hoff o ((hiff o).1 ho)] at hon
  cases hon

/-- One more event is recorded. -/
theorem cons (h : Awaits i half answer? past ready since before) (he : e.begins = false)
    (hon : ∀ q p, phase past = some q → Phase.Step q e p → p.isOn half = true → ready' = answer?.toList)
    (htold : ∀ n, e.ends half since = some (.ok n) → ∃ c, answer? = some c ∧ c.outcome = .ok n) :
    Awaits i half answer? (e :: past) ready' (e :: since) before where
  parts := congrArg (e :: ·) h.parts
  own e' he' := (List.mem_cons.1 he').elim (fun hsame => hsame ▸ he) (h.own e')
  on p hp hisOn := by
    obtain ⟨q, hq, hstep⟩ := phase_cons hp
    exact hon q p hq hstep hisOn
  told n hending := by
    rw [ending_cons (Event.half_of_begins he), Option.or_eq_some_iff] at hending
    rcases hending with hbefore | ⟨-, hnow⟩
    · exact h.told n hbefore
    · exact htold n hnow

/-- While others are at work, the operation goes on or ends, and if it ends well then with the kernel's answer. -/
theorem lull (h : Awaits i half answer? x.1 x.2 since before) (hlull : Lull x y) (hp : phase y.1 = some p) :
    ∃ since, Awaits i half answer? y.1 y.2 since before := by
  cases hlull with
  | @note past ready e he =>
    have hbegins := Event.begins_of_isCalm he
    refine ⟨_, h.cons hbegins (fun q p hq hstep hon => ?_) fun n hends => ?_⟩
    · exact h.on q hq (hstep.isOn_of (Event.half_of_begins hbegins) hon)
    · obtain ⟨c, rfl, -⟩ := Event.answered_of_ends hends
      cases he
  | close hhalf =>
    refine ⟨_, h.cons rfl (fun q p hq hstep hon => ?_) nofun⟩
    cases hstep with
    | take hsome =>
      rw [hhalf] at hsome
      cases hsome
    | close => cases hon
    | aside hmove => cases hmove
  | @take past ready c =>
    obtain ⟨q, hq, hstep⟩ := phase_cons hp
    refine ⟨_, h.cons rfl (fun q p hq hstep hon => ?_) fun n hends => ?_⟩
    · cases hstep with
      | answer =>
        rw [Phase.isOn_answer] at hon
        cases hon
      | closed => cases hon
      | aside hmove => cases hmove
    · -- what ends the operation is the answer that was ready
      obtain ⟨fd, hsteps⟩ := h.steps hq
      have hon := (hstep.isOn_of_ends (hsteps.outstanding_eq rfl) hends).1
      have hone : c :: ready = answer?.toList := h.on q hq hon
      obtain ⟨c₁, hsame, houtcome⟩ := Event.answered_of_ends hends
      obtain rfl := Event.answered.inj hsame
      cases answer? with
      | none => cases hone
      | some c' =>
        obtain rfl : c = c' := List.head_eq_of_cons_eq hone
        exact ⟨c, rfl, houtcome⟩

/-- The same for all that others do. -/
theorem lulls (h : Awaits i half answer? x.1 x.2 since before) (hlulls : Lulls x y) (hp : phase y.1 = some p) :
    ∃ since, Awaits i half answer? y.1 y.2 since before := by
  induction hlulls generalizing p with
  | refl => exact ⟨since, h⟩
  | @tail y z _ hlull ih =>
    obtain ⟨e, hcons, -⟩ := hlull.cons
    obtain ⟨q, hq, -⟩ : ∃ q, phase y.1 = some q ∧ Phase.Step q e p := phase_cons (hcons ▸ hp)
    obtain ⟨since', h'⟩ := ih hq
    exact h'.lull hlull hp

/-- An operation under way for which nothing is ready was not answered. -/
theorem unanswered (h : Awaits i half answer? past [] since before) (hp : phase past = some p)
    (hon : p.isOn half = true) : answer? = none := by
  have hnone : [] = answer?.toList := h.on p hp hon
  cases answer? with
  | none => rfl
  | some c => cases hnone

/-- The operation that is awaited is answered. -/
theorem answered (h : Awaits i half answer? past ready since before) (hp : phase past = some p)
    (hon : p.isOn half = true) (c : Completion) : Awaits i half (some c) past [c] since before where
  parts := h.parts
  own := h.own
  on _ _ _ := rfl
  told n hending := by
    rw [h.unended hp hon] at hending
    cases hending

/-- Another operation is answered. -/
theorem passed (h : Awaits i half answer? past ready since before) (hp : phase past = some p)
    (hoff : p.isOn half = false) (ready' : List Completion) : Awaits i half answer? past ready' since before :=
  { h with
    on := fun q hq hon => by
      obtain rfl : p = q := Option.some.inj (hp.symm.trans hq)
      rw [hoff] at hon
      cases hon }

/-- A receive that is awaited is the last that began. -/
theorem lastReceive (h : Awaits i .receive answer? past ready since before) : LastReceive i past since before where
  parts := h.parts
  last := h.last
  own e he := by
    have hbegins := h.own e he
    cases e <;> first | rfl | cases hbegins

/-- A receive that ended well has left its bytes to be read. -/
theorem receipt (h : Awaits i .receive answer? past ready since before) (hp : phase past = some p)
    (hending : ending .receive since = some (.ok n)) : receipt past = ⟨n, false⟩ := by
  obtain ⟨-, -, hstands⟩ := h.lastReceive.stands (Phase.Steps.of_phase hp)
  generalize SlotServer.receipt past = r at hstands
  cases hstands with
  | on _ hnone | cut _ _ hnone =>
    rw [hending] at hnone
    cases hnone
  | past =>
    rw [hending]
    rfl

end Awaits

/-! ## Slots -/

section Slots

variable {v : View} {s : Slot} {op : Op} {due : List Command}

/-- An operation that a slot works on is under way. -/
theorem Underway.isOn (h : Underway i s half p due) : p.isOn half = true := by
  rcases h with ⟨rfl, -⟩ | ⟨rfl, -⟩
  · exact decide_eq_true rfl
  · exact decide_eq_true (Slot.half?_halfOp s half i)

/-- What a half has outstanding is the operation that its slot works on. -/
theorem Calm.op_of_outstanding (h : Calm i v s) (hone : outstanding v.history = [op]) (hhalf : op.half? = some half) :
    ∃ p, phase v.history = some p ∧ p.isOn half = true ∧ s.state = half.working ∧ op = s.halfOp half i := by
  obtain ⟨p, hp, hstage⟩ := h.stage
  have hops : p.ops = [op] := (outstanding_of_phase hp).symm.trans hone
  have hproper := proper_of_phase hp
  cases p with
  | busy op' =>
    obtain rfl : op' = op := List.head_eq_of_cons_eq hops
    have hunderway : ∀ other, Underway i s other (.busy op') v.commands → half = other ∧ op' = s.halfOp other i := by
      rintro other (⟨hdue, -⟩ | ⟨hbusy, -⟩)
      · cases hdue
      · cases hbusy
        exact ⟨Option.some.inj (hhalf.symm.trans (Slot.half?_halfOp s other i)), rfl⟩
    refine ⟨_, hp, decide_eq_true hhalf, ?_⟩
    rw [Stage] at hstage
    cases hstate : s.state <;> rw [hstate] at hstage
    case receiving =>
      obtain ⟨rfl, hop⟩ := hunderway .receive hstage
      exact ⟨rfl, hop⟩
    case sending =>
      obtain ⟨rfl, hop⟩ := hunderway .send hstage
      exact ⟨rfl, hop⟩
    case disconnecting => rcases hstage with ⟨hrests, -⟩ | ⟨hclosing, -⟩ <;> contradiction
    all_goals cases hstage.1
  | closing op' =>
    obtain rfl : op' = op := List.head_eq_of_cons_eq hops
    rw [show op'.half? = none from hproper] at hhalf
    cases hhalf
  | _ => cases hops

/-- A slot does not work on a half whose operation is not under way. -/
theorem Calm.not_working (h : Calm i v s) (hp : phase v.history = some p) (hoff : p.isOn half = false) :
    s.state ≠ half.working := by
  intro hstate
  obtain ⟨q, hq, hstage⟩ := h.stage
  obtain rfl : p = q := Option.some.inj (hp.symm.trans hq)
  rw [((stage_working hstate).1 hstage).isOn] at hoff
  cases hoff

/-- While a close is outstanding, no half has an operation under way. -/
theorem Calm.off_of_outstanding (h : Calm i v s) (hone : outstanding v.history = [op]) (hhalf : op.half? = none) :
    ∃ p, phase v.history = some p ∧ ∀ half, p.isOn half = false := by
  obtain ⟨p, hp, -⟩ := h.stage
  have hops : p.ops = [op] := (outstanding_of_phase hp).symm.trans hone
  have hproper := proper_of_phase hp
  refine ⟨p, hp, fun half => ?_⟩
  cases p with
  | busy op' =>
    obtain rfl : op' = op := List.head_eq_of_cons_eq hops
    exact absurd hhalf hproper
  | closing => rfl
  | _ => cases hops

end Slots

/-! ## Workers -/

/-- What is known of a worker over an honest kernel in all its runs. -/
structure Machine.Grounded (g : Layout) (m : Machine Application) : Prop where
  fits : g.Fits
  aware : m.All (fun i v => Resting i v ∧ Aware i v) []
  moored : m.All Moored []
  ledger : Ledger g m

/-- A call of a handle began an operation. -/
structure Machine.Begun (g : Layout) (m : Machine Application) (i : Nat) (half : Half) (m' : Machine Application) :
    Prop where
  grounded : m'.Grounded g
  held : i ∈ m'.held
  history : m'.history i = .began ⟨i, half⟩ :: m.history i
  ready : m'.answersFor [] i = []
  working : ∃ s, m'.worker.slots[i]? = some s ∧ s.state = half.working

namespace Machine.Grounded

variable {g : Layout} {m m' : Machine Application} {s : Slot} {op : Op} {c : Completion}

theorem resting (h : m.Grounded g) : m.All Resting [] := fun i => (h.aware i).1

theorem calm (h : m.Grounded g) (hs : m.worker.slots[i]? = some s) :
    Calm i (m.view [] i) s ∧ (m.worker.exited = true → s.state = .disconnected) := (h.resting i).calm hs

/-- A worker that was just built, with no more slots than there are numbers of 32 bits. -/
theorem of_freshFrom {cores : Nat} {config : Config} (h : m.FreshFrom config cores)
    (hsize : m.worker.slots.length ≤ 0x100000000) :
    m.Grounded (config.layout cores m.worker.pool.bufIndex) := by
  obtain ⟨hledger, hfits⟩ := h.ledger
  exact ⟨hfits, fun i => ⟨Resting.of_fresh h.fresh i, Aware.of_fresh h.fresh i⟩, Moored.of_starts ⟨h.fresh, hsize⟩,
    hledger⟩

/-- The slot of a connection that has a handle is not free. -/
theorem slot_of_held (h : m.Grounded g) (hheld : i ∈ m.held) :
    ∃ s, m.worker.slots[i]? = some s ∧ i < g.count ∧ i ∉ m.worker.free := by
  have hhandles : 0 < (m.view [] i).handles := List.count_pos_iff.2 hheld
  rcases h.moored i with ⟨s, hsettled⟩ | hmissing
  case inr =>
    rw [hmissing.handles] at hhandles
    cases hhandles
  have hs : m.worker.slots[i]? = some s := hsettled.here
  refine ⟨s, hs, h.ledger.laid.count ▸ (List.getElem?_eq_some_iff.1 hs).1, fun hfree => ?_⟩
  obtain ⟨-, -, hnone, -⟩ := hsettled.free_of_places (List.count_pos_iff.2 hfree)
  rw [hnone] at hhandles
  cases hhandles

/-- What an honest kernel's worker comes to, where leases are right. -/
theorem step (h : m.Grounded g) (hstep : HonestStep Application.serve m m') (hmoored : m'.All Moored []) :
    m'.Grounded g where
  fits := h.fits
  aware := Aware.step Application.modest_serve h.aware hstep
  moored := hmoored
  ledger := h.ledger.step Application.discreet_serve h.fits hstep

/-- Whatever a worker is made to do. -/
theorem move (h : m.Grounded g) {move : Move} (hwhole : move.isWhole = true) (hallowed : move.Allowed m)
    (hrun : move.run Application.serve m = .ok () m') : m'.Grounded g :=
  h.step (.move move hallowed hrun) (((wild Application.modest_serve).move h.moored hwhole hallowed).of_ok hrun)

/-- Whatever happens around it. -/
theorem around (h : m.Grounded g) (kernel : Kernel) (app : Application) (hready : kernel.ready = m.kernel.ready) :
    Machine.Grounded g { m with kernel, app } :=
  h.step (.around kernel app hready) (h.moored.congr fun j => m.view_kernel [] j kernel hready)

/-- An operation is answered. -/
theorem answer (h : m.Grounded g) (result : Int32) (flags : UInt32) (howed : m.Owed op)
    (hresult : result ≠ Int32.minValue) :
    Machine.Grounded g { m with kernel := m.kernel.inject ⟨op.ctx, result, flags⟩ } := by
  refine h.step (.answer op result flags howed) fun j => ?_
  rw [Machine.view_inject]
  split
  case isFalse => exact h.moored j
  refine (h.moored j).imp (fun ⟨s, hsettled⟩ => ⟨s, { hsettled with answers := fun c hc => ?_ }⟩)
    fun hmissing => { hmissing with }
  rcases List.mem_append.1 hc with hc | hc
  · exact hsettled.answers c hc
  · obtain rfl := List.mem_singleton.1 hc
    exact hresult

/-- Bytes arrive. -/
theorem put (h : m.Grounded g) (offset : Nat) (data : Array UInt8) :
    Machine.Grounded g { m with worker := { m.worker with pool := m.worker.pool.put offset data } } where
  fits := h.fits
  aware := h.aware
  moored := h.moored
  ledger := h.ledger.congr rfl ⟨rfl, rfl, rfl⟩ rfl

/-- Whatever a handle does. -/
theorem deed (h : m.Grounded g) (d : Deed) (hheld : i ∈ m.held) (hrun : d.run i m = .ok () m') : m'.Grounded g :=
  have hwhole : (Move.deed i d).isWhole = true := rfl
  h.move hwhole hheld hrun

/-! ### Operations that are owed -/

/-- The operation of a half that is owed is under way, and it is the one that its slot works on. -/
theorem owed (h : m.Grounded g) (howed : m.Owed op) (hhalf : op.half? = some half) :
    ∃ s p, m.worker.slots[op.ctx.slot]? = some s ∧ phase (m.history op.ctx.slot) = some p ∧ p.isOn half = true ∧
      op = s.halfOp half op.ctx.slot ∧ m.answersFor [] op.ctx.slot = [] := by
  obtain ⟨s, hcalm, -, hone, hnone⟩ := Resting.owed h.resting howed
  obtain ⟨p, hp, hon, -, hop⟩ := hcalm.op_of_outstanding hone hhalf
  exact ⟨s, p, hcalm.here, hp, hon, hop, hnone⟩

section Places

variable {ctx : Context} {fd : Int} {offset length : Nat} {bufIndex : UInt16}

/-- A receive takes the whole half. -/
theorem receive_owed (h : m.Grounded g) (howed : m.Owed (.receive ctx fd offset length bufIndex)) :
    offset = g.start ctx.slot .receive ∧ length = g.receiveLength := by
  obtain ⟨s, p, hs, -, -, hop, -⟩ := h.owed howed rfl
  have hhalf : s.receiveHalf = g.half ctx.slot .receive := h.ledger.laid.segment _ s .receive hs
  have hlength : low32 g.receiveLength = g.receiveLength := h.fits.length .receive
  obtain ⟨-, -, hoffset, hsame, -⟩ := Op.receive.inj hop
  exact ⟨hoffset.trans (congrArg Segment.offset hhalf),
    hsame.trans ((congrArg (fun seg => low32 seg.length) hhalf).trans hlength)⟩

/-- A send takes as many bytes from the half's first on as were asked for. -/
theorem send_owed (h : m.Grounded g) (howed : m.Owed (.send ctx fd offset length bufIndex)) :
    offset = g.start ctx.slot .send ∧ length = (sendAsked ctx.slot m.trace).getD 0 := by
  obtain ⟨s, p, hs, -, -, hop, -⟩ := h.owed howed rfl
  have hhalf : s.sendHalf = g.half ctx.slot .send := h.ledger.laid.segment _ s .send hs
  have hasked : s.sendLength = (sendAsked ctx.slot m.trace).getD 0 := (h.ledger.sends _ s hs).1
  have hle : s.sendLength ≤ g.sendLength := (h.ledger.sends _ s hs).2
  have hlength : low32 g.sendLength = g.sendLength := h.fits.length .send
  obtain ⟨-, -, hoffset, hsame, -⟩ := Op.send.inj hop
  refine ⟨hoffset.trans (congrArg Segment.offset hhalf), hsame.trans ?_⟩
  rw [← hasked]
  unfold low32 at hlength ⊢
  omega

end Places

/-! ### Calls of a handle -/

section Calls

variable {data : Array UInt8}

theorem within (h : m.Grounded g) (hs : m.worker.slots[i]? = some s) (half : Half) :
    (g.half i half).Within m.worker.pool.regionLength := by
  rw [h.ledger.laid.region]
  exact Layout.within h.fits (h.ledger.laid.count ▸ (List.getElem?_eq_some_iff.1 hs).1) half

/-- What a receive has delivered can be read. -/
theorem received (h : m.Grounded g) (hs : m.worker.slots[i]? = some s) (hreceipt : receipt (m.history i) = ⟨n, false⟩)
    (hn : n ≤ g.receiveLength) :
    Connection.received i m = .ok (m.worker.pool.bytesAt (g.start i .receive) n) m := by
  obtain ⟨pending, hhears⟩ := (h.aware i).2.hears hs
  have hsame : (⟨n, false⟩ : Receipt) = ⟨s.receivedLength, pending⟩ := hreceipt.symm.trans hhears.receipt
  obtain ⟨rfl, rfl⟩ : n = s.receivedLength ∧ false = pending := by cases hsame; exact ⟨rfl, rfl⟩
  have hhalf : s.receiveHalf = g.half i .receive := h.ledger.laid.segment i s .receive hs
  have hstate : s.state ≠ .receiving := fun hstate => by
    have hworks := hhears.works
    rw [hstate] at hworks
    cases hworks
  have hview : Connection.receivedView s = { g.half i .receive with length := s.receivedLength } := by
    rw [Connection.receivedView, if_neg hstate, hhalf]
    exact congrArg (Segment.mk _ _) (Nat.min_eq_left hn)
  refine (Run.bind_run (Run.slot?_run hs)).trans (Connection.bytes_run ?_)
  have hwhole : (s.segment .receive).Within m.worker.pool.regionLength :=
    h.ledger.laid.segment i s .receive hs ▸ h.within hs .receive
  have hwithin : (Connection.view s .receive).Within m.worker.pool.regionLength := Connection.within_view hwhole
  rw [show Connection.receivedView s = Connection.view s .receive from rfl] at hview ⊢
  rw [Pool.read_within hwithin, hview]
  rfl

/-- Without a send under way, the whole send half is in sight. -/
theorem sendView (h : m.Grounded g) (hs : m.worker.slots[i]? = some s) (hstate : s.state ≠ .sending) :
    Connection.sendView s = g.half i .send := (if_neg hstate).trans (h.ledger.laid.segment i s .send hs)

theorem sendBuffer (h : m.Grounded g) (hs : m.worker.slots[i]? = some s) (hstate : s.state ≠ .sending) :
    Connection.sendBuffer i m = .ok (m.worker.pool.bytesAt (g.start i .send) g.sendLength) m := by
  refine (Run.bind_run (Run.slot?_run hs)).trans (Connection.bytes_run ?_)
  rw [h.sendView hs hstate, Pool.read_within (h.within hs .send)]
  rfl

theorem sendCapacity (h : m.Grounded g) (hs : m.worker.slots[i]? = some s) :
    Connection.sendCapacity i m = .ok g.sendLength m := by
  have hhalf : s.sendHalf = g.half i .send := h.ledger.laid.segment i s .send hs
  refine (Run.bind_run (Run.slot?_run hs)).trans ?_
  show EStateM.Result.ok s.sendHalf.length m = _
  rw [hhalf]
  rfl

/-- Bytes that fit are put into the send half. -/
theorem fill (h : m.Grounded g) (hs : m.worker.slots[i]? = some s) (hstate : s.state ≠ .sending)
    (hsize : data.size ≤ g.sendLength) :
    Connection.fill i data m = .ok (data.size, g.sendLength)
      { m with worker := { m.worker with pool := m.worker.pool.put (g.start i .send) data } } := by
  have hwrite : m.worker.pool.write (g.half i .send) data =
      .ok (data.size, m.worker.pool.put (g.start i .send) data) := by
    rw [Pool.write, Pool.place_of_within (h.within hs .send)]
    have htake : data.take (g.half i .send).length = data := Array.extract_eq_self_of_le hsize
    show Except.ok _ = _
    rw [htake]
    rfl
  refine (Run.bind_run (Run.slot?_run hs)).trans ?_
  dsimp only
  rw [h.sendView hs hstate]
  refine (Run.bind_run (show (Run.worker : Run Application Worker) m = .ok m.worker m from rfl)).trans ?_
  rw [hwrite]
  rfl

/-- A poll finds nothing, or the outcome. An operation that ended well has ended with the kernel's answer. -/
theorem polled (h : m.Grounded g) (hs : m.worker.slots[i]? = some s)
    (hawaits : Awaits i half answer? (m.history i) ready since before) (waker : Waker) :
    (∃ m', Connection.pollFuture waker (.awaiting ⟨i, half⟩) m = .ok (.pending, .awaiting ⟨i, half⟩) m') ∨
      ∃ o, Connection.pollFuture waker (.awaiting ⟨i, half⟩) m = .ok (.ready o, .awaiting ⟨i, half⟩) m ∧
        ∀ n, o = .ok n → ending half since = some (.ok n) := by
  have hcalm := (h.calm hs).1
  by_cases hstate : s.state = half.working
  · obtain ⟨m', hrun, -⟩ := (hcalm.pends hawaits.parts hawaits.last hstate).polled waker
    exact .inl ⟨m', hrun⟩
  · obtain ⟨o, hdelivers⟩ := hcalm.delivers hawaits.parts hawaits.last hstate
    refine .inr ⟨o, hdelivers.polled waker, ?_⟩
    rintro n rfl
    rcases hdelivers.ended with hone | ⟨hclosed, -⟩
    · exact ((hcalm.told_since hawaits.parts hawaits.last).2 _).2 ((hone _).2 rfl)
    · cases hclosed

/-- The loop has not come to its end where a connection is idle, and no completion is ready for it. -/
theorem of_idle (h : m.Grounded g) (hs : m.worker.slots[i]? = some s) (hidle : s.state.isIdle = true) :
    m.worker.exited = false ∧ m.answersFor [] i = [] := by
  obtain ⟨hcalm, hover⟩ := h.calm hs
  have hexited : (m.view [] i).exited = false :=
    Calm.exited_of_live hover (SlotState.ne_disconnected_of_isIdle hidle)
  obtain ⟨-, last, hp, -⟩ := hcalm.of_idle hidle
  exact ⟨hexited, hcalm.answers_nil hexited hp rfl⟩

/-- A call that begins an operation leaves the worker grounded and the handle alive. -/
theorem begun (h : m.Grounded g) (hs : m.worker.slots[i]? = some s) (hidle : s.state.isIdle = true)
    (hheld : i ∈ m.held) {s' : Slot} (hstate : s'.state = half.working) (d : Deed) (hrun : d.run i m = .ok () m')
    (hview : m'.view [] i = (m.view [] i).begin i half s') : m.Begun g i half m' where
  grounded := h.deed d hheld hrun
  held := by
    have hhandles : m'.held.count i = m.held.count i := congrArg View.handles hview
    exact List.count_pos_iff.1 (hhandles ▸ List.count_pos_iff.2 hheld)
  history := congrArg View.history hview
  ready := by
    rw [Machine.answersFor, hview]
    exact (h.of_idle hs hidle).2
  working := ⟨s', congrArg View.slot? hview, hstate⟩

/-- A receive begins. -/
theorem receives (h : m.Grounded g) (hs : m.worker.slots[i]? = some s) (hheld : i ∈ m.held)
    (hstart : s.state ∈ Slot.startsFrom .receive) :
    ∃ m', Connection.receive i m = .ok (.awaiting ⟨i, .receive⟩) m' ∧ m.Begun g i .receive m' := by
  have hidle := Slot.isIdle_of_startsFrom hstart
  have hcalm := (h.calm hs).1
  obtain ⟨b, m', hrun, rfl, hview⟩ := Machine.All.leads h.resting (x := Connection.receive i)
    (Q := fun b v' => b = .awaiting ⟨i, .receive⟩ ∧ v' = (m.view [] i).begin i .receive (s.begin 0 .receive))
    (fun R hquiet =>
      Leads.receive hcalm.here (fun _ => ⟨(h.of_idle hs hidle).1, .inl hquiet, rfl, rfl⟩) (absurd hstart))
    hcalm hidle
  exact ⟨m', hrun, h.begun hs hidle hheld (Slot.state_begin ..) .receive (Run.bind_run hrun) hview⟩

/-- A send of bytes that fit begins. The bytes stay as they are. -/
theorem sends (h : m.Grounded g) (hs : m.worker.slots[i]? = some s) (hheld : i ∈ m.held)
    (hstart : s.state ∈ Slot.startsFrom .send) (hn : n ≤ g.sendLength) :
    ∃ m', Connection.send i n m = .ok (.ok (.awaiting ⟨i, .send⟩)) m' ∧ m.Begun g i .send m' ∧
      (sendAsked i m'.trace).getD 0 = n ∧ ∀ place, m'.worker.pool.bytes place = m.worker.pool.bytes place := by
  have hidle := Slot.isIdle_of_startsFrom hstart
  have hcalm := (h.calm hs).1
  have hhalf : s.sendHalf = g.half i .send := h.ledger.laid.segment i s .send hs
  obtain ⟨b, m', hrun, rfl, hview⟩ := Machine.All.leads h.resting (x := Connection.send i n)
    (Q := fun b v' => b = .ok (.awaiting ⟨i, .send⟩) ∧ v' = (m.view [] i).begin i .send (s.begin n .send))
    (fun R hquiet => Leads.send hcalm.here (fun _ _ => ⟨(h.of_idle hs hidle).1, .inl hquiet, rfl, rfl⟩) (by
      rintro (hlong | hmem)
      · rw [hhalf] at hlong
        exact absurd hn (Nat.not_le.2 hlong)
      · exact absurd hstart hmem))
    hcalm hidle
  have hbegun : m.Begun g i .send m' := h.begun hs hidle hheld (Slot.state_begin ..) (.send n) (Run.bind_run hrun) hview
  have hs' : m'.worker.slots[i]? = some (s.begin n .send) := congrArg View.slot? hview
  -- to a handle of the next slot the call is one of others
  have hkept := Harmless.send (K := fun _ => True) (Nat.ne_of_lt (Nat.lt_succ_self i)) n [] m _ m' hrun
  exact ⟨m', hrun, hbegun, (hbegun.grounded.ledger.sends i _ hs').1.symm, fun place => hkept.bytes place trivial⟩

end Calls

end Machine.Grounded

/-- A poll right after an operation began finds nothing. -/
theorem Machine.Begun.pends {g : Layout} {m m' : Machine Application} (h : m.Begun g i half m') (waker : Waker) :
    ∃ m'', Connection.pollFuture waker (.awaiting ⟨i, half⟩) m' = .ok (.pending, .awaiting ⟨i, half⟩) m'' := by
  obtain ⟨s, hs, hstate⟩ := h.working
  obtain ⟨hcalm, -⟩ := h.grounded.calm hs
  have hhistory : m'.history i = [] ++ .began ⟨i, half⟩ :: m.history i := h.history
  obtain ⟨m'', hrun, -⟩ := (hcalm.pends hhistory nofun hstate).polled waker
  exact ⟨m'', hrun⟩

end SlotServer
