import SlotServer.Proofs.FeralRuns

/-!
# What a completion leaves alone

Wherever a worker over a feral kernel comes to, between turns or within one, a completion works on one slot. What it
does beside that is little: it counts, it may push that slot's close, and it may free that slot.

- `FeralTurn`: where a completion may find the worker;
- `ClosesOnce`: the kernel was not called, or but for one close;
- `Completion.Framed`: what a completion may do, and `FeralTurn.route_framed`: that it does no more;
- `FeralTurn.not_framed_long`: contexts of more than 32 bits are cut to them, and so one that is no slot's moves a slot.
-/

namespace SlotServer

variable {α : Type} {serve : Run.Serve α} {m m' : Machine α} {c : Completion}

/-! ## Within a turn -/

/-- A machine that a worker over a feral kernel comes to, between what it is made to do or within a turn, up to where
the turn's completions are at their slots. -/
inductive FeralTurn (serve : Run.Serve α) : Machine α → Prop
  | between {m : Machine α} (h : FeralRun serve m) : FeralTurn serve m
  /-- A turn begins. -/
  | opened {m m' : Machine α} (h : FeralRun serve m) (hexited : m.worker.exited = false)
    (hrun : Run.openTurn m = .ok () m') : FeralTurn serve m'
  /-- The kernel is called. Any completions may become ready, and any operations may fail from now on. -/
  | called {m : Machine α} (h : FeralTurn serve m) (kernel : Kernel) : FeralTurn serve { m with kernel }
  /-- Something is recorded that is of no slot. -/
  | noted {m : Machine α} (h : FeralTurn serve m) (event : Event) (haside : event.Aside) :
    FeralTurn serve { m with trace := event :: m.trace }
  /-- A completion is taken to its slot. -/
  | routed {m m' : Machine α} {c : Completion} (h : FeralTurn serve m) (hrun : Run.route c m = .ok () m') :
    FeralTurn serve m'

theorem FeralTurn.afloat (hserve : Modest serve) (h : FeralTurn serve m) : m.All (Muted Afloat) [] := by
  induction h with
  | between h => exact fun i => ((h.steady hserve).moored i).afloat
  | opened h hexited hrun =>
    obtain ⟨m₁, hopen, hsteady, -⟩ := (h.steady hserve).openTurn hserve hexited (Run.not_balks_of_openTurn hrun)
    rw [hrun] at hopen
    cases hopen
    exact fun i => (hsteady.moored i).afloat
  | called _ kernel ih => exact ih
  | @noted m _ event haside ih =>
    intro i
    rw [m.view_record, haside i, if_neg Bool.false_ne_true]
    exact ih i
  | routed _ hrun ih => exact (ih.absorbed hrun).2

/-- There are no more slots than numbers of 32 bits, so that a slot's context names it. -/
theorem Machine.All.slot_ofSlot {i : Nat} (h : m.All (Muted Afloat) []) (hi : i < m.worker.slots.length) :
    (Context.ofSlot i).slot = i := by
  rcases h i with ⟨s, htallied⟩ | hmissing
  · exact htallied.slot_ofSlot
  · exact absurd hi (Nat.not_lt.2 (List.getElem?_eq_none_iff.1 hmissing.slot))

/-! ## The frame -/

/-- The kernel was not called, or but for the close of a slot, once. Where it did not take this, the slot's own
descriptor was closed at once. -/
inductive ClosesOnce (i : Nat) (fd : Int) (since : List Event) : Prop
  | none (hcalls : calls since = [])
  | queued (hcalls : calls since = [.queued (.close (.ofSlot i) fd)])
  | refused {e : Error} (hcalls : calls since = Confined.cuts i fd ++ [.refused (.close (.ofSlot i) fd) e])

theorem Settles.closesOnce {i n : Nat} {fd : Int} {s : Slot} {since : List Event} (h : Settles i fd s since n) :
    ClosesOnce i fd since ∧ n ≤ 1 := by
  cases h with
  | idle _ _ _ hcalls hn => exact ⟨.none hcalls, hn ▸ Nat.zero_le 1⟩
  | closing _ _ hcalls hn => exact ⟨.queued hcalls, hn ▸ Nat.zero_le 1⟩
  | closed _ _ hcalls hn => exact ⟨.refused hcalls, hn⟩

/-- Whatever a slot waits for, its end calls the kernel but for one close and frees the slot once. -/
theorem Completion.Ends.closesOnce {i n : Nat} {s s' : Slot} {since : List Event} (h : c.Ends i s s' since n)
    (hpending : s.state.isPending = true) : ClosesOnce i s.fd since ∧ n ≤ 1 := by
  cases hstate : s.state with
  | receiving => exact (h.operation .receive hstate).settles.closesOnce
  | sending => exact (h.operation .send hstate).settles.closesOnce
  | disconnecting =>
    obtain ⟨-, hmute, hn⟩ := h.close hstate
    exact ⟨.none hmute.calls, hn⟩
  | _ =>
    rw [hstate] at hpending
    cases hpending

/-- What a completion may do, for the slot `i` that its context names. -/
structure Completion.Framed (c : Completion) (i : Nat) (m m' : Machine α) : Prop where
  run : Run.route c m = .ok () m'
  /-- Where the slot waits for a completion, nothing but the slot and the counters changes, and the slot may be freed,
  once. The kernel is not called, or but for one close of the slot. -/
  waiting : ∀ s : Slot, m.worker.slots[i]? = some s → s.state.isPending = true →
    ∃ since n, m.Touched i since n m' ∧ ClosesOnce i s.fd since ∧ n ≤ 1
  /-- Elsewhere the completion is counted, and nothing else changes. -/
  stray : (∀ s : Slot, m.worker.slots[i]? = some s → s.state.isPending = false) → m' = m.miscounted c
  /-- The context of a slot names this slot, -/
  own : ∀ j < m.worker.slots.length, c.ctx = .ofSlot j → i = j
  /-- and one of 32 bits is that of the slot that it names. -/
  named : c.ctx.raw.toNat < 0x100000000 → c.ctx = .ofSlot i

theorem Context.eq_ofSlot {ctx : Context} (h : ctx.raw.toNat < 0x100000000) : ctx = .ofSlot ctx.slot := by
  obtain ⟨raw⟩ := ctx
  change raw.toNat < 0x100000000 at h
  refine congrArg Context.mk (UInt64.toNat_inj.1 ?_)
  simp only [slot, UInt64.toNat_ofNat']
  omega

theorem Context.raw_ofSlot_lt (i : Nat) : (Context.ofSlot i).raw.toNat < 0x100000000 := by
  simp only [ofSlot, UInt64.toNat_ofNat']
  omega

/-- A completion touches no more than the slot whose number the low 32 bits of its context are. -/
theorem FeralTurn.route_framed (hserve : Modest serve) (h : FeralTurn serve m) (hc : c.result ≠ Int32.minValue) :
    ∃ m', c.Framed c.ctx.slot m m' := by
  obtain ⟨m', habsorbed, -⟩ := (h.afloat hserve).route_absorbed (c := c) fun hstumbles => hc hstumbles.1
  refine ⟨m', habsorbed.run, fun s hs hpending => ?_, habsorbed.stray, fun j hj hown => ?_, Context.eq_ofSlot⟩
  · obtain ⟨s', since, n, -, htouched, hends⟩ := habsorbed.waiting s hs hpending
    obtain ⟨hcloses, hn⟩ := hends.closesOnce hpending
    exact ⟨since, n, htouched, hcloses, hn⟩
  · rw [hown]
    exact (h.afloat hserve).slot_ofSlot hj

/-- A byte comes for the connection that waits for it. -/
theorem FeralTurn.route_framed_receiving : ∃ m m' : Machine Application, Machine.waiting? = some m ∧
    (⟨.ofSlot 0, 1, 0⟩ : Completion).Framed 0 m m' := by
  have hany : Machine.waiting?.isSome = true := by decide +kernel
  obtain ⟨m, hwaiting⟩ := Option.isSome_iff_exists.1 hany
  obtain ⟨m', hframed⟩ := FeralTurn.route_framed (c := ⟨.ofSlot 0, 1, 0⟩) Application.modest_serve
    (.between (.of_waiting? hwaiting)) (by decide)
  exact ⟨m, m', hwaiting, hframed⟩

/-- Not every completion whose context is no slot's is only counted. -/
theorem FeralTurn.not_framed_long : ¬∀ (m : Machine Application) (c : Completion), FeralTurn Application.serve m →
    c.result ≠ Int32.minValue → (∀ i, c.ctx ≠ .ofSlot i) → Run.route c m = .ok () (m.miscounted c) := by
  intro hcounted
  have hany : Machine.waiting?.any (fun m =>
      match Run.route ⟨⟨0x100000000⟩, 1, 0⟩ m with
      | .ok _ m' => decide (m'.worker.slots.map (·.state) ≠ m.worker.slots.map (·.state))
      | .error _ _ => false) = true := by decide +kernel
  obtain ⟨m, hwaiting, hmoved⟩ := (Option.any_eq_true ..).1 hany
  have hlong : ∀ i, (⟨0x100000000⟩ : Context) ≠ .ofSlot i := fun i heq =>
    absurd (Context.raw_ofSlot_lt i) (by rw [← heq]; decide)
  rw [hcounted m ⟨⟨0x100000000⟩, 1, 0⟩ (.between (.of_waiting? hwaiting)) (by decide) hlong] at hmoved
  exact of_decide_eq_true hmoved rfl

end SlotServer
