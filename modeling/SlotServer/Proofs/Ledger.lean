import SlotServer.Proofs.HonestRuns
import SlotServer.Proofs.Layout
import SlotServer.Proofs.LoopChanges

/-!
# What operations are queued over

Whatever the kernel answers, a slot stays where it was laid out, and the operations that are queued for it work on its
halves: a receive on the whole half, and a send on as many bytes as were asked for.

- `sendAsked`: what the record tells of the length of a slot's send;
- `Entries`: something holds of every entry of a record;
- `Ledger`: how slots and record agree, which every change keeps (`Ledger.change`);
- `HonestFrom`: the runs under an honest kernel that begin with a worker from a configuration.
-/

namespace SlotServer

variable {α : Type}

/-- The length in which a send was asked for. -/
def Event.asked? : Event → Option Nat
  | .asked length => some length
  | _ => none

/-- The length that was asked for when the slot began its last send, since a socket was bound to it. -/
def sendAsked (i : Nat) : List Event → Option Nat
  | [] => none
  | e :: h =>
    match e with
    | .began cell => if cell = ⟨i, .send⟩ then h.head?.bind Event.asked? else sendAsked i h
    | .bound j _ => if j = i then none else sendAsked i h
    | _ => sendAsked i h

/-- Something holds of every entry of a list and what comes after it. -/
def Entries {β : Type} (P : β → List β → Prop) (l : List β) : Prop :=
  ∀ newer b older, l = newer ++ b :: older → P b older

theorem entries_cons {β : Type} {P : β → List β → Prop} {b : β} {l : List β} :
    Entries P (b :: l) ↔ P b l ∧ Entries P l := by
  constructor
  · intro h
    exact ⟨h [] b l rfl, fun newer c older heq => h (b :: newer) c older (by rw [heq]; rfl)⟩
  · rintro ⟨hb, hl⟩ newer c older heq
    cases newer with
    | nil =>
      cases heq
      exact hb
    | cons d newer =>
      cases heq
      exact hl newer c older rfl

/-- The operation is one of the slot's, over the slot's halves. A send takes as many bytes as were asked for. -/
def Layout.Over (g : Layout) (i asked : Nat) : Op → Prop
  | .receive ctx _ offset length bufIndex =>
    ctx = .ofSlot i ∧ (⟨bufIndex, offset, length⟩ : Segment) = g.half i .receive
  | .send ctx _ offset length bufIndex =>
    ctx = .ofSlot i ∧ (⟨bufIndex, offset, length⟩ : Segment) = { g.half i .send with length := asked }
  | .close ctx _ => ctx = .ofSlot i

/-- What a record says of an operation that was queued, and of a send that began. -/
def Event.Proper (g : Layout) (e : Event) (before : List Event) : Prop :=
  match e with
  | .queued op => ∃ i, i < g.count ∧ (sendAsked i before).getD 0 ≤ g.sendLength ∧
      g.Over i ((sendAsked i before).getD 0) op
  | .began ⟨i, .send⟩ => (sendAsked i (.began ⟨i, .send⟩ :: before)).isSome = true
  | _ => True

/-- Whatever the kernel does, the slots lie over the layout, and operations are queued over the slots' halves. -/
structure Ledger (g : Layout) (m : Machine α) : Prop where
  laid : m.worker.LaidOut g
  sends : ∀ (i : Nat) (s : Slot), m.worker.slots[i]? = some s →
    s.sendLength = (sendAsked i m.trace).getD 0 ∧ s.sendLength ≤ g.sendLength
  entries : Entries (Event.Proper g) m.trace

theorem Worker.LaidOut.setSlot {g : Layout} {w : Worker} {i : Nat} {s t : Slot} (h : w.LaidOut g)
    (hs : w.slots[i]? = some s) (hindex : t.index = s.index) (hsegment : t.segment = s.segment) :
    (w.setSlot i t).LaidOut g := by
  have hslot : ∀ j u, (w.setSlot i t).slots[j]? = some u → w.slots[j]? = some u ∨ j = i ∧ u = t := by
    intro j u hu
    rw [Worker.setSlot, List.getElem?_set] at hu
    split at hu
    · rename_i hij
      split at hu <;> cases hu
      exact .inr ⟨hij.symm, rfl⟩
    · exact .inl hu
  refine ⟨?_, h.region, h.bufIndex, fun j u hu => ?_, fun j u half hu => ?_⟩
  · rw [Worker.setSlot, List.length_set, h.count]
  · rcases hslot j u hu with hu | ⟨rfl, rfl⟩
    · exact h.index j u hu
    · rw [hindex]
      exact h.index _ s hs
  · rcases hslot j u hu with hu | ⟨rfl, rfl⟩
    · exact h.segment j u half hu
    · rw [hsegment]
      exact h.segment _ s half hs

namespace Ledger

variable {g : Layout} {part : Part} {m m' : Machine α} {i : Nat} {s t : Slot}

/-- Slots that lie over the same halves have the same kind of ledger, while the record tells nothing new of them. -/
theorem congr (h : Ledger g m) (hslots : m'.worker.slots = m.worker.slots)
    (hpool : m.worker.pool.Alike m'.worker.pool) (htrace : m'.trace = m.trace) : Ledger g m' := by
  obtain ⟨⟨hcount, hregion, hindex, hindices, hsegments⟩, hsends, hentries⟩ := h
  refine ⟨⟨?_, ?_, ?_, ?_, ?_⟩, ?_, ?_⟩
  · rw [hslots, hcount]
  · rw [← hregion, Pool.regionLength, hpool.segmentLength, hpool.segmentCount]
    rfl
  · rw [hpool.bufIndex, hindex]
  · rw [hslots]
    exact hindices
  · rw [hslots]
    exact hsegments
  · rw [hslots, htrace]
    exact hsends
  · rw [htrace]
    exact hentries

theorem note (h : Ledger g m) {e : Event} (hasked : ∀ i, sendAsked i (e :: m.trace) = sendAsked i m.trace)
    (hproper : e.Proper g m.trace) : Ledger g { m with trace := e :: m.trace } where
  laid := h.laid
  sends i s hs := by
    rw [hasked]
    exact h.sends i s hs
  entries := entries_cons.2 ⟨hproper, h.entries⟩

/-- A slot changes over its halves, together with what the record tells of it. -/
theorem put {trace : List Event} (h : Ledger g m) (hs : m.worker.slots[i]? = some s) (hindex : t.index = s.index)
    (hsegment : t.segment = s.segment) (hsend : t.sendLength = (sendAsked i trace).getD 0 ∧ t.sendLength ≤ g.sendLength)
    (hothers : ∀ j, j ≠ i → sendAsked j trace = sendAsked j m.trace) (hentries : Entries (Event.Proper g) trace) :
    Ledger g { m with worker := m.worker.setSlot i t, trace } where
  laid := h.laid.setSlot hs hindex hsegment
  sends j u hu := by
    change (m.worker.slots.set i t)[j]? = some u at hu
    rw [List.getElem?_set] at hu
    split at hu
    · rename_i hij
      split at hu <;> cases hu
      subst hij
      exact hsend
    · rename_i hij
      rw [hothers j (Ne.symm hij)]
      exact h.sends j u hu
  entries := hentries

theorem of_asks (hfits : g.Fits) (h : Ledger g m) (hs : m.worker.slots[i]? = some s) {op : Op} (hasks : s.Asks i op) :
    (Event.queued op).Proper g m.trace := by
  obtain ⟨hsend, hle⟩ := h.sends i s hs
  have hi : i < g.count := by
    rw [← h.laid.count]
    exact (List.getElem?_eq_some_iff.1 hs).1
  refine ⟨i, hi, hsend ▸ hle, ?_⟩
  rcases hasks with ⟨half, rfl⟩ | rfl
  · cases half with
    | receive =>
      have hhalf : s.receiveHalf = g.half i .receive := h.laid.segment i s .receive hs
      refine ⟨rfl, ?_⟩
      show (⟨_, s.receiveHalf.offset, low32 s.receiveHalf.length⟩ : Segment) = _
      rw [hhalf]
      exact congrArg (Segment.mk _ _) (hfits.length .receive)
    | send =>
      have hhalf : s.sendHalf = g.half i .send := h.laid.segment i s .send hs
      refine ⟨rfl, ?_⟩
      show (⟨s.sendHalf.bufIndex, s.sendHalf.offset, low32 s.sendLength⟩ : Segment) = _
      have hsmall : low32 s.sendLength = s.sendLength := by
        have hlength : low32 g.sendLength = g.sendLength := hfits.length .send
        unfold low32 at hlength ⊢
        omega
      rw [hsmall, hsend, hhalf]
  · show Context.ofSlot s.index = .ofSlot i
    rw [h.laid.index i s hs, Context.ofSlot, low32, Nat.mod_mod]
    rfl

/-- Every change keeps the ledger. -/
theorem change (hfits : g.Fits) (h : Ledger g m) (hchange : Change part m m') : Ledger g m' := by
  cases hchange with
  | @remark e he =>
    refine h.note (fun i => ?_) ?_
    · cases e <;> first | rfl | cases he
    · cases e <;> first | exact absurd he Bool.false_ne_true | trivial
  | aside hslots _ _ hpool htrace => exact h.congr hslots hpool htrace
  | slot hs halike =>
    refine h.put hs halike.index halike.segment ?_ (fun _ _ => rfl) h.entries
    rw [halike.sendLength]
    exact h.sends _ _ hs
  | @bind i s fd peer hs =>
    refine h.put hs rfl rfl ⟨?_, Nat.zero_le _⟩ (fun j hj => if_neg hj.symm) (entries_cons.2 ⟨trivial, h.entries⟩)
    show 0 = (if i = i then none else sendAsked i m.trace).getD 0
    rw [if_pos rfl]
    rfl
  | @receive i s hs =>
    have hasked : ∀ j, sendAsked j (.began ⟨i, .receive⟩ :: m.trace) = sendAsked j m.trace :=
      fun j => if_neg fun heq => by cases heq
    refine h.put hs rfl rfl ?_ (fun j _ => hasked j) (entries_cons.2 ⟨trivial, h.entries⟩)
    rw [hasked]
    exact h.sends i s hs
  | @send i length s hs hlength =>
    have hhalf : s.sendHalf = g.half i .send := h.laid.segment i s .send hs
    have hself : sendAsked i (.began ⟨i, .send⟩ :: .asked length :: m.trace) = some length := if_pos rfl
    refine h.put hs rfl rfl ⟨?_, ?_⟩ (fun j hj => if_neg fun heq => ?_) ?_
    · rw [hself]
      rfl
    · rw [hhalf] at hlength
      exact hlength
    · cases heq
      exact hj rfl
    · exact entries_cons.2 ⟨by rw [Event.Proper, hself]; rfl, entries_cons.2 ⟨trivial, h.entries⟩⟩
  | push answer _ hs hasks =>
    cases answer with
    | ok _ => exact (h.note (fun _ => rfl) (h.of_asks hfits hs hasks)).congr rfl ⟨rfl, rfl, rfl⟩ rfl
    | error e => exact (h.note (e := .refused _ e) (fun _ => rfl) trivial).congr rfl ⟨rfl, rfl, rfl⟩ rfl
  | submit | rung => exact h.note (fun _ => rfl) trivial
  | handOver => exact (h.note (e := .rung) (fun _ => rfl) trivial).congr rfl ⟨rfl, rfl, rfl⟩ rfl
  | deregister => exact (h.note (e := .unregistered) (fun _ => rfl) trivial).congr rfl ⟨rfl, rfl, rfl⟩ rfl
  | release => exact h.note (fun _ => rfl) trivial

theorem changes (hfits : g.Fits) (h : Ledger g m) (hchanges : Changes part m m') : Ledger g m' := by
  induction hchanges with
  | refl => exact h
  | tail _ hchange ih => exact ih.change hfits hchange

end Ledger

/-! ## Runs -/

namespace Machine

variable {config : Config} {cores : Nat} {m : Machine α}

/-- The layout of a machine's region. -/
abbrev layout (m : Machine α) (config : Config) (cores : Nat) : Layout := config.layout cores m.worker.pool.bufIndex

theorem FreshFrom.ledger (h : m.FreshFrom config cores) :
    Ledger (m.layout config cores) m ∧ (m.layout config cores).Fits := by
  obtain ⟨id, k, -, hbuild⟩ := h.built
  obtain ⟨hlaid, hfits⟩ := Worker.laidOut_of_build hbuild
  obtain ⟨-, -, haside⟩ := Worker.new_of_build hbuild
  have hasked : ∀ i es, (∀ e ∈ es, Event.Aside e) → sendAsked i es = none := by
    intro i es hes
    induction es with
    | nil => rfl
    | cons e es ih =>
      have hrest := ih fun e' he' => hes e' (List.mem_cons_of_mem _ he')
      cases e with
      | bound j fd =>
        have hj := hes _ (List.mem_cons_self ..) j
        simp [Event.concerns] at hj
      | began cell =>
        have hj := hes _ (List.mem_cons_self ..) cell.slot
        simp [Event.concerns] at hj
      | _ => exact hrest
  refine ⟨⟨hlaid, fun i s hs => ?_, fun newer e older heq => ?_⟩, hfits⟩
  · rw [hasked i _ haside, (h.fresh.new.slots i s hs).eq]
    exact ⟨rfl, Nat.zero_le _⟩
  · have he := haside e (heq ▸ List.mem_append_right _ (List.mem_cons_self ..))
    cases e with
    | queued op =>
      have hop := he op.ctx.slot
      simp [Event.concerns] at hop
    | began cell =>
      have hcell := he cell.slot
      simp [Event.concerns] at hcell
    | _ => trivial

end Machine

variable {config : Config} {cores : Nat} {m m' : Machine α} {serve : Run.Serve α}

/-- Whatever happens at a worker keeps the ledger. -/
theorem Ledger.step {g : Layout} (hserve : Discreet serve) (hfits : g.Fits) (h : Ledger g m)
    (hstep : HonestStep serve m m') : Ledger g m' := by
  cases hstep with
  | move move hallowed hrun =>
    rcases Move.changes hserve hallowed hrun with hchanges | hchanges
    · exact h.changes hfits hchanges
    · have hexit : Ledger g m.exit := h.congr rfl ⟨rfl, rfl, rfl⟩ rfl
      exact hexit.changes hfits hchanges
  | answer => exact h.congr rfl ⟨rfl, rfl, rfl⟩ rfl
  | around => exact h.congr rfl ⟨rfl, rfl, rfl⟩ rfl

/-- A run under an honest kernel that began with a worker from a configuration. -/
abbrev HonestFrom (serve : Run.Serve α) (config : Config) (cores : Nat) : Machine α → Prop :=
  Reached (Machine.FreshFrom config cores) (HonestStep serve)

namespace HonestFrom

theorem run (h : HonestFrom serve config cores m) : HonestRun serve m := by
  induction h with
  | start h => exact .start h.fresh
  | step _ hstep ih => exact .step ih hstep

theorem ledger (hserve : Discreet serve) (h : HonestFrom serve config cores m) :
    Ledger (m.layout config cores) m ∧ (m.layout config cores).Fits := by
  refine Reached.keeps h (fun _ => Machine.FreshFrom.ledger) fun m m' ⟨hledger, hfits⟩ hstep => ?_
  have hledger' := hledger.step hserve hfits hstep
  have hlayout : m'.layout config cores = m.layout config cores := by
    rw [Machine.layout, hledger'.laid.bufIndex]
    rfl
  rw [hlayout]
  exact ⟨hledger', hfits⟩

end HonestFrom

end SlotServer
