import SlotServer.Proofs.Ledger
import SlotServer.Proofs.Tokens

/-!
# Who uses which bytes

The kernel works on the halves of a region while handles read and write them. Under an honest kernel the two never meet:
a half whose operation is under way is out of its handle's sight.

- `Op.Addresses`: the bytes that an operation reads or writes;
- `Machine.Addressed`: where the operations that were queued work;
- `Machine.due`: the operations that the inbox will have queued;
- `HonestFrom.partitioned`: what is outstanding, what is due and what handles see lies apart.
-/

namespace SlotServer

variable {α : Type} {config : Config} {cores : Nat} {m : Machine α} {serve : Run.Serve α}

namespace Op

/-- The segment that an operation works on. A close works on none. -/
def segment? : Op → Option Segment
  | .receive _ _ offset length bufIndex | .send _ _ offset length bufIndex => some ⟨bufIndex, offset, length⟩
  | .close .. => none

/-- The operation reads or writes the byte. -/
def Addresses (op : Op) (byte : Nat) : Prop := ∃ seg, op.segment? = some seg ∧ seg.Holds byte

end Op

/-! ## Sends that are asked for -/

/-- A send that is due to be queued has been asked for. -/
theorem sendAsked_isSome {g : Layout} {i : Nat} {fd : Int} {h : List Event} (hentries : Entries (Event.Proper g) h)
    (hsteps : Phase.Steps .free (h.filter (·.concerns i)) (.due fd .send)) : (sendAsked i h).isSome = true := by
  induction h with
  | nil => cases hsteps
  | cons e h ih =>
    obtain ⟨hproper, holder⟩ := entries_cons.1 hentries
    rw [List.filter_cons] at hsteps
    split at hsteps
    case isFalse hother =>
      have hrest := ih holder hsteps
      cases e with
      | began cell =>
        have hcell : cell ≠ ⟨i, .send⟩ := by
          rintro rfl
          exact hother (decide_eq_true rfl)
        rw [sendAsked, if_neg hcell]
        exact hrest
      | bound j fd' =>
        have hj : j ≠ i := by
          rintro rfl
          exact hother (decide_eq_true rfl)
        rw [sendAsked, if_neg hj]
        exact hrest
      | _ => exact hrest
    case isTrue hself =>
      generalize hp : Phase.due fd .send = p at hsteps
      cases hsteps with
      | cons hbefore hstep =>
        cases hstep with
        | @begin _ _ cell =>
          obtain ⟨j, half⟩ := cell
          obtain rfl : j = i := of_decide_eq_true hself
          cases hp
          exact hproper
        | hangUp =>
          subst hp
          exact ih holder hbefore
        | aside hmove =>
          subst hp
          cases e with
          | bound | began => cases hmove
          | _ => exact ih holder hbefore
        | @answer op c =>
          unfold Phase.answer at hp
          split at hp
          · cases hp
          · split at hp <;> cases hp
          · split at hp <;> cases hp
        | letGo =>
          rename_i q
          cases q <;> cases hp
        | _ => cases hp

namespace Calm

variable {i : Nat} {s : Slot} {newer older : List Event}

/-- At no time has a slot's record left the phases. -/
theorem steps_of_older (h : Calm i (m.view [] i) s) (heq : m.trace = newer ++ older) :
    ∃ p, Phase.Steps .free (older.filter (·.concerns i)) p := by
  obtain ⟨p, hp, -⟩ := h.stage
  have hsteps : Phase.Steps .free (m.history i) p := Phase.Steps.of_phase hp
  rw [Machine.history, heq, List.filter_append] at hsteps
  obtain ⟨q, hbefore, -⟩ := hsteps.split
  exact ⟨q, hbefore⟩

/-- At no time has a slot more than one operation outstanding. -/
theorem one_outstanding (h : Calm i (m.view [] i) s) (heq : m.trace = newer ++ older) :
    ((outstanding older).filter (·.ctx.slot = i)).length ≤ 1 := by
  obtain ⟨p, hsteps⟩ := h.steps_of_older heq
  rw [← outstanding_concerns, hsteps.outstanding_eq rfl]
  cases p <;> simp [Phase.ops]

/-- A send that was queued had been asked for. -/
theorem sendAsked_of_queued {g : Layout} {op : Op} (h : Calm i (m.view [] i) s)
    (hentries : Entries (Event.Proper g) m.trace) (heq : m.trace = newer ++ .queued op :: older)
    (hslot : op.ctx.slot = i) (hop : op.half? = some .send) : (sendAsked i older).isSome = true := by
  have hself : (Event.queued op).concerns i = true := decide_eq_true hslot
  have holder : Entries (Event.Proper g) older := fun newer' b older' heq' =>
    hentries (newer ++ .queued op :: newer') b older' (by rw [heq, heq', List.append_assoc]; rfl)
  obtain ⟨p, hsteps⟩ := h.steps_of_older heq
  rw [List.filter_cons, if_pos hself] at hsteps
  cases hsteps with
  | cons hbefore hstep =>
    cases hstep with
    | @take op half hhalf =>
      obtain rfl : half = .send := Option.some.inj (hhalf.symm.trans hop)
      exact sendAsked_isSome holder hbefore
    | close _ hnone =>
      rw [hnone] at hop
      cases hop
    | aside hmove => cases hmove

end Calm

/-! ## What lies apart -/

namespace Machine

/-- The operations that the commands of the inbox will have queued. -/
def due (m : Machine α) : List Op := m.worker.inbox.filterMap fun
  | .accept _ => none
  | .receive i => m.worker.slots[i]?.map (·.halfOp .receive i)
  | .send i => m.worker.slots[i]?.map (·.halfOp .send i)
  | .disconnect i => m.worker.slots[i]?.map (·.closeOp i)

end Machine

/-- What a handle sees is in a half whose operation is not under way. -/
theorem Connection.of_view {s : Slot} {half : Half} {byte : Nat} (h : (Connection.view s half).Holds byte) :
    s.state ≠ half.working ∧ (s.segment half).Holds byte := by
  obtain ⟨hle, hlt⟩ := h
  obtain ⟨hoffset, ⟨-, hlength⟩ | ⟨hstate, hlength⟩⟩ := Connection.view_cases s half
  · omega
  · refine ⟨hstate, ?_, ?_⟩ <;> omega

/-- Where no two members have the same number, any two have different ones. -/
theorem pairwise_of_filter {β : Type} {f : β → Nat} {l : List β}
    (h : ∀ b ∈ l, (l.filter (f · = f b)).length ≤ 1) : l.Pairwise (f · ≠ f ·) := by
  induction l with
  | nil => exact .nil
  | cons b l ih =>
    refine List.pairwise_cons.2 ⟨fun c hc heq => ?_, ih fun c hc => ?_⟩
    · have hone := h b (List.mem_cons_self ..)
      have hmem : c ∈ l.filter (f · = f b) := List.mem_filter.2 ⟨hc, decide_eq_true heq.symm⟩
      rw [List.filter_cons, if_pos (decide_eq_true rfl), List.length_cons] at hone
      have := List.length_pos_of_mem hmem
      omega
    · have hone := h c (List.mem_cons_of_mem _ hc)
      rw [List.filter_cons] at hone
      split at hone
      · rw [List.length_cons] at hone
        omega
      · exact hone

/-- Each operation that was queued is one over the halves of a slot: a receive over the whole half, and a send over as
many bytes from the half's first on as the slot's send was asked for. -/
def Machine.Addressed (g : Layout) (m : Machine α) : Prop :=
  ∀ newer op older, m.trace = newer ++ .queued op :: older → ∃ i, i < g.count ∧ op.ctx = .ofSlot i ∧ op.ctx.slot = i ∧
    match op with
    | .receive _ _ offset length bufIndex => (⟨bufIndex, offset, length⟩ : Segment) = g.half i .receive
    | .send _ _ offset length bufIndex =>
      (⟨bufIndex, offset, length⟩ : Segment) = { g.half i .send with length } ∧ length ≤ g.sendLength ∧
        sendAsked i older = some length
    | .close .. => True

/-- What was queued works within the halves of its slot. -/
theorem Machine.Addressed.holds {g : Layout} (h : m.Addressed g) {op : Op} (hop : .queued op ∈ m.trace) :
    ∃ i, i < g.count ∧ op.ctx.slot = i ∧ ∀ byte, op.Addresses byte → ∃ half, (g.half i half).Holds byte := by
  obtain ⟨newer, older, heq⟩ := List.append_of_mem hop
  obtain ⟨i, hi, -, hslot, hkind⟩ := h newer op older heq
  refine ⟨i, hi, hslot, fun byte ⟨seg, hseg, hle, hlt⟩ => ?_⟩
  cases op with
  | receive ctx fd offset length bufIndex =>
    cases hseg
    exact ⟨.receive, hkind ▸ ⟨hle, hlt⟩⟩
  | send ctx fd offset length bufIndex =>
    cases hseg
    obtain ⟨hseg, hlength, -⟩ := hkind
    have hstart : offset = (g.half i .send).offset := congrArg Segment.offset hseg
    refine ⟨.send, hstart ▸ hle, Nat.lt_of_lt_of_le hlt ?_⟩
    rw [hstart]
    exact Nat.add_le_add_left hlength _
  | close ctx fd => cases hseg

/-- What a handle of the slot sees, it gets as it is, and no operation that is due or outstanding works on that. -/
structure Machine.Sees (m : Machine α) (i : Nat) (s : Slot) : Prop where
  received : Connection.received i m =
    .ok (m.worker.pool.bytesAt (Connection.receivedView s).offset (Connection.receivedView s).length) m
  sendBuffer : Connection.sendBuffer i m =
    .ok (m.worker.pool.bytesAt (Connection.sendView s).offset (Connection.sendView s).length) m
  /-- Together they are seen just as each of them is. -/
  buffers : Connection.buffers i m =
    .ok (m.worker.pool.bytesAt (Connection.receivedView s).offset (Connection.receivedView s).length,
      m.worker.pool.bytesAt (Connection.sendView s).offset (Connection.sendView s).length) m
  views : ∀ byte, (Connection.receivedView s).Holds byte → ¬ (Connection.sendView s).Holds byte
  free : ∀ byte, (Connection.receivedView s).Holds byte ∨ (Connection.sendView s).Holds byte →
    ∀ op, op ∈ m.due ∨ op ∈ outstanding m.trace → ¬ op.Addresses byte

/-- What the kernel works on and what handles see lies apart. -/
structure Machine.Partitioned (g : Layout) (m : Machine α) : Prop where
  laid : m.worker.LaidOut g
  addressed : m.Addressed g
  /-- At no time do two operations that are outstanding meet. -/
  apart : ∀ newer older, m.trace = newer ++ older →
    (outstanding older).Pairwise fun op op' => ∀ byte, op.Addresses byte → ¬ op'.Addresses byte
  sees : ∀ (i : Nat) (s : Slot), m.worker.slots[i]? = some s → m.Sees i s

namespace Machine

variable {i : Nat} {s : Slot} {op : Op}

/-- A slot has a half under way, or is being closed, or has nothing outstanding and no command for a half. -/
theorem Tokens.kinds (h : m.Tokens i s) :
    (∃ half, s.state = half.working ∧ m.OneToken i (half.command i) (s.halfOp half i)) ∨
      m.OneToken i (.disconnect i) (s.closeOp i) ∨
      m.unanswered i = [] ∧ ∀ c ∈ m.commandsFor i, c = .accept i := by
  rw [Tokens] at h
  cases hstate : s.state <;> rw [hstate] at h
  case receiving => exact .inl ⟨.receive, rfl, h⟩
  case sending => exact .inl ⟨.send, rfl, h⟩
  case disconnecting => exact .inr (.inl h)
  case accepting =>
    refine .inr (.inr ⟨h.2, fun c hc => ?_⟩)
    rw [h.1] at hc
    exact List.mem_singleton.1 hc
  case disconnected | accepted | received | sent =>
    refine .inr (.inr ⟨h.2.2, fun c hc => ?_⟩)
    rw [h.2.1] at hc
    cases hc

theorem OneToken.unanswered {c : Command} {op' : Op} (h : m.OneToken i c op) (hop : op' ∈ m.unanswered i) :
    op' = op := by
  rcases h with ⟨-, hops⟩ | ⟨-, hops⟩
  · rw [hops] at hop
    cases hop
  · rw [hops] at hop
    exact List.mem_singleton.1 hop

theorem OneToken.commands {c c' : Command} (h : m.OneToken i c op) (hc : c' ∈ m.commandsFor i) : c' = c := by
  rcases h with ⟨hcommands, -⟩ | ⟨hcommands, -⟩
  · rw [hcommands] at hc
    exact List.mem_singleton.1 hc
  · rw [hcommands] at hc
    cases hc

/-- The operation that a slot has outstanding is that of its state. -/
theorem Tokens.unanswered (h : m.Tokens i s) (hop : op ∈ m.unanswered i) :
    (∃ half, s.state = half.working ∧ op = s.halfOp half i) ∨ op = s.closeOp i := by
  rcases h.kinds with ⟨half, hstate, hone⟩ | hone | ⟨hnone, -⟩
  · exact .inl ⟨half, hstate, hone.unanswered hop⟩
  · exact .inr (hone.unanswered hop)
  · rw [hnone] at hop
    cases hop

/-- A half whose command waits in the inbox is under way. -/
theorem Tokens.working (half : Half) (h : m.Tokens i s) (hc : half.command i ∈ m.worker.inbox) :
    s.state = half.working := by
  have hmem : half.command i ∈ m.commandsFor i := List.mem_filter.2 ⟨hc, decide_eq_true (half.slot_command i)⟩
  rcases h.kinds with ⟨other, hstate, hone⟩ | hone | ⟨-, haccept⟩
  · have hsame := hone.commands hmem
    cases half <;> cases other <;> first | exact hstate | cases hsame
  · have hsame := hone.commands hmem
    cases half <;> cases hsame
  · have hsame := haccept _ hmem
    cases half <;> cases hsame

end Machine

/-- An operation of a half works within the half. -/
theorem Slot.holds_of_halfOp {s : Slot} {half : Half} {i byte : Nat} (hlength : s.sendLength ≤ s.sendHalf.length)
    (h : (s.halfOp half i).Addresses byte) : (s.segment half).Holds byte := by
  obtain ⟨seg, hseg, hle, hlt⟩ := h
  cases half with
  | receive =>
    cases hseg
    have := Nat.mod_le s.receiveHalf.length 0x100000000
    exact ⟨hle, Nat.lt_of_lt_of_le hlt (Nat.add_le_add_left this _)⟩
  | send =>
    cases hseg
    have := Nat.mod_le s.sendLength 0x100000000
    exact ⟨hle, Nat.lt_of_lt_of_le hlt (Nat.add_le_add_left (Nat.le_trans this hlength) _)⟩

namespace Ledger

variable {g : Layout} {i byte : Nat} {s : Slot} {op : Op}

theorem slot_of_lt (h : Ledger g m) (hi : i < g.count) : ∃ s, m.worker.slots[i]? = some s := by
  rw [← h.laid.count] at hi
  exact ⟨_, List.getElem?_eq_getElem hi⟩

theorem addressed (hsize : g.count ≤ 0x100000000) (h : Ledger g m) (hall : m.All Resting []) : m.Addressed g := by
  intro newer op older heq
  obtain ⟨i, hi, hle, hover⟩ := h.entries newer _ older heq
  have hslot : (Context.ofSlot i).slot = i := by
    rw [Context.slot_ofSlot, Nat.mod_eq_of_lt (Nat.lt_of_lt_of_le hi hsize)]
  cases op with
  | receive ctx fd offset length bufIndex =>
    obtain ⟨rfl, hseg⟩ := hover
    exact ⟨i, hi, rfl, hslot, hseg⟩
  | close ctx fd =>
    obtain rfl : ctx = .ofSlot i := hover
    exact ⟨i, hi, rfl, hslot, trivial⟩
  | send ctx fd offset length bufIndex =>
    obtain ⟨rfl, hseg⟩ := hover
    obtain ⟨s, hs⟩ := h.slot_of_lt hi
    rcases hall i with ⟨s', hcalm, -⟩ | habsent
    · obtain ⟨asked, hasked⟩ := Option.isSome_iff_exists.1
        (hcalm.sendAsked_of_queued h.entries heq hslot rfl)
      rw [hasked] at hseg hle
      obtain rfl : length = asked := congrArg Segment.length hseg
      exact ⟨i, hi, rfl, hslot, hseg, hle, hasked⟩
    · rw [show m.worker.slots[i]? = none from habsent.slot] at hs
      cases hs

/-- An operation that is due or outstanding works on a half that is under way. -/
theorem working (h : Ledger g m) (haddressed : m.Addressed g)
    (htokens : ∀ i s, m.worker.slots[i]? = some s → m.Tokens i s) (hop : op ∈ m.due ∨ op ∈ outstanding m.trace)
    (hbyte : op.Addresses byte) :
    ∃ i s half, m.worker.slots[i]? = some s ∧ s.state = half.working ∧ (g.half i half).Holds byte := by
  have hhalf : ∀ (i : Nat) (s : Slot) (half : Half), m.worker.slots[i]? = some s → s.state = half.working →
      op = s.halfOp half i →
      ∃ i s half, m.worker.slots[i]? = some s ∧ s.state = half.working ∧ (g.half i half).Holds byte := by
    intro i s half hs hstate heq
    have hsend : s.sendHalf = g.half i .send := h.laid.segment i s .send hs
    have hle : s.sendLength ≤ s.sendHalf.length := by
      rw [hsend]
      exact (h.sends i s hs).2
    refine ⟨i, s, half, hs, hstate, ?_⟩
    rw [← h.laid.segment i s half hs]
    exact Slot.holds_of_halfOp hle (heq ▸ hbyte)
  have hclose : ∀ (s : Slot) i, op ≠ s.closeOp i := by
    rintro s i rfl
    obtain ⟨seg, hseg, -⟩ := hbyte
    cases hseg
  rcases hop with hdue | hout
  · obtain ⟨c, hc, hcommand⟩ := List.mem_filterMap.1 hdue
    cases c with
    | accept i => cases hcommand
    | receive i =>
      obtain ⟨s, hs, rfl⟩ := Option.map_eq_some_iff.1 hcommand
      exact hhalf i s .receive hs ((htokens i s hs).working .receive hc) rfl
    | send i =>
      obtain ⟨s, hs, rfl⟩ := Option.map_eq_some_iff.1 hcommand
      exact hhalf i s .send hs ((htokens i s hs).working .send hc) rfl
    | disconnect i =>
      obtain ⟨s, hs, rfl⟩ := Option.map_eq_some_iff.1 hcommand
      exact absurd rfl (hclose s i)
  · obtain ⟨newer, older, heq⟩ := List.append_of_mem (mem_outstanding hout)
    obtain ⟨i, hi, -, hslot, -⟩ := haddressed newer op older heq
    obtain ⟨s, hs⟩ := h.slot_of_lt hi
    have hmem : op ∈ m.unanswered i := List.mem_filter.2 ⟨hout, decide_eq_true hslot⟩
    rcases (htokens i s hs).unanswered hmem with ⟨half, hstate, hop⟩ | hop
    · exact hhalf i s half hs hstate hop
    · exact absurd hop (hclose s i)

/-- Operations that are outstanding together are those of different slots, and meet at no byte. -/
theorem apart (h : Ledger g m) (haddressed : m.Addressed g) (hall : m.All Resting []) {newer older : List Event}
    (heq : m.trace = newer ++ older) :
    (outstanding older).Pairwise fun op op' => ∀ byte, op.Addresses byte → ¬ op'.Addresses byte := by
  have hqueued : ∀ op ∈ outstanding older, .queued op ∈ m.trace := fun op hop =>
    heq ▸ List.mem_append_right _ (mem_outstanding hop)
  have hslots : (outstanding older).Pairwise fun op op' => op.ctx.slot ≠ op'.ctx.slot := by
    refine pairwise_of_filter fun op hop => ?_
    obtain ⟨i, hi, hslot, -⟩ := haddressed.holds (hqueued op hop)
    obtain ⟨s, hs⟩ := h.slot_of_lt hi
    rw [hslot]
    rcases hall i with ⟨s', hcalm, -⟩ | habsent
    · exact hcalm.one_outstanding heq
    · rw [show m.worker.slots[i]? = none from habsent.slot] at hs
      cases hs
  refine hslots.imp_of_mem fun {op op'} hop hop' hne byte hbyte hbyte' => ?_
  obtain ⟨i, -, hslot, hin⟩ := haddressed.holds (hqueued op hop)
  obtain ⟨j, -, hslot', hin'⟩ := haddressed.holds (hqueued op' hop')
  obtain ⟨half, hholds⟩ := hin byte hbyte
  obtain ⟨half', hholds'⟩ := hin' byte hbyte'
  rw [hslot, hslot', (Layout.apart hholds hholds').1] at hne
  exact hne rfl

theorem sees (hfits : g.Fits) (h : Ledger g m) (haddressed : m.Addressed g)
    (htokens : ∀ i s, m.worker.slots[i]? = some s → m.Tokens i s) (hs : m.worker.slots[i]? = some s) : m.Sees i s := by
  have hview : ∀ half byte, (Connection.view s half).Holds byte →
      s.state ≠ half.working ∧ (g.half i half).Holds byte := by
    intro half byte hbyte
    rw [← h.laid.segment i s half hs]
    exact Connection.of_view hbyte
  have hread : ∀ half, m.worker.pool.read (Connection.view s half) =
      .ok (m.worker.pool.bytesAt (Connection.view s half).offset (Connection.view s half).length) := by
    intro half
    have hi : i < g.count := by
      rw [← h.laid.count]
      exact (List.getElem?_eq_some_iff.1 hs).1
    have hwithin : (s.segment half).Within m.worker.pool.regionLength := by
      rw [h.laid.segment i s half hs, h.laid.region]
      exact Layout.within hfits hi half
    rw [Pool.read, Pool.place_of_within (Connection.within_view hwithin)]
    rfl
  have hrun : ∀ half, (Connection.bytes (Connection.view s half) : Run α (List UInt8)) m =
      .ok (m.worker.pool.bytesAt (Connection.view s half).offset (Connection.view s half).length) m := by
    intro half
    show (Run.ofExcept (m.worker.pool.read (Connection.view s half)) : Run α (List UInt8)) m = _
    rw [hread]
    rfl
  exact
    { received := (Run.bind_run (Run.slot?_run hs)).trans (hrun .receive)
      sendBuffer := (Run.bind_run (Run.slot?_run hs)).trans (hrun .send)
      buffers := (Run.bind_run (Run.slot?_run hs)).trans
        ((Run.bind_run (hrun .receive)).trans (Run.bind_run (hrun .send)))
      views := fun byte hreceived hsend => by
        have := (Layout.apart (hview .receive byte hreceived).2 (hview .send byte hsend).2).2
        cases this
      free := fun byte hbyte op hop haddresses => by
        obtain ⟨j, t, other, ht, hworking, hholds⟩ := h.working haddressed htokens hop haddresses
        have hclash : ∀ half, ¬ (Connection.view s half).Holds byte := by
          intro half hseen
          obtain ⟨hstate, hhalf⟩ := hview half byte hseen
          obtain ⟨rfl, rfl⟩ := Layout.apart hhalf hholds
          obtain rfl := Option.some.inj (hs.symm.trans ht)
          exact hstate hworking
        exact hbyte.elim (hclash .receive) (hclash .send) }

end Ledger

/-- Wherever a worker over an honest kernel comes to, its region is cut into halves that tile it, operations work on the
halves of their slots, and no two of them, nor one of them and a handle, meet at a byte. -/
theorem HonestFrom.partitioned (hmodest : Modest serve) (hdiscreet : Discreet serve)
    (h : HonestFrom serve config cores m) (hsize : config.slotsPerWorker cores ≤ 0x100000000) :
    (m.layout config cores).Tiles ∧ (m.layout config cores).Fits ∧ m.Partitioned (m.layout config cores) := by
  obtain ⟨hledger, hfits⟩ := h.ledger hdiscreet
  have hall := h.run.resting hmodest
  have haddressed := hledger.addressed hsize hall
  have htokens : ∀ i s, m.worker.slots[i]? = some s → m.Tokens i s := fun i s => h.run.tokens hmodest
  exact ⟨(m.layout config cores).tiles, hfits, hledger.laid, haddressed, fun _ _ => hledger.apart haddressed hall,
    fun i s hs => hledger.sees hfits haddressed htokens hs⟩

/-- Two slots, with three bytes to receive and two to send each. -/
def Config.pair : Config := { backlog := 2, workers := 1, receiveLength := 3, sendLength := 2, useNagle := true }

theorem HonestFrom.partitioned_pair : ∃ m,
    (Machine.built? Config.pair 1 ({ service := .keep } : Application)).bind (·.after? Application.serve
      [.assign 5 none, .assign 6 none, .command, .command, .deed 0 .receive, .deed 1 (.send 1), .command, .command]) =
        some m ∧
      outstanding m.trace = [.receive (.ofSlot 0) 5 0 3 0, .send (.ofSlot 1) 6 8 1 0] ∧
      Config.pair.slotsPerWorker 1 ≤ 0x100000000 ∧
      (m.layout Config.pair 1).Tiles ∧ (m.layout Config.pair 1).Fits ∧ m.Partitioned (m.layout Config.pair 1) := by
  have hany : ((Machine.built? Config.pair 1 ({ service := .keep } : Application)).bind (·.after? Application.serve
      [.assign 5 none, .assign 6 none, .command, .command, .deed 0 .receive, .deed 1 (.send 1), .command,
        .command])).any
        (fun m => outstanding m.trace = [.receive (.ofSlot 0) 5 0 3 0, .send (.ofSlot 1) 6 8 1 0]) = true := by
    decide +kernel
  have hsize : Config.pair.slotsPerWorker 1 ≤ 0x100000000 := by decide
  obtain ⟨m, hafter, hout⟩ := (Option.any_eq_true ..).1 hany
  obtain ⟨m₀, hbuilt, hmoves⟩ := Option.bind_eq_some_iff.1 hafter
  have hrun : HonestFrom Application.serve Config.pair 1 m :=
    Reached.after (fun _ => True) (.start (Machine.freshFrom_of_built? hbuilt))
      (fun _ hallowed hrun => .move _ hallowed hrun) (fun _ _ => trivial) hmoves
  exact ⟨m, hafter, of_decide_eq_true hout, hsize,
    HonestFrom.partitioned Application.modest_serve Application.discreet_serve hrun hsize⟩

end SlotServer
