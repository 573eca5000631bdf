import SlotServer.Proofs.Ended
import SlotServer.Proofs.Strides

/-!
# What a completion touches

A completion works on the slot that its context names. What it does beside that is on record: the kernel is called only
with what the record tells of, and the slot may be put among the free ones.

- `calls`, `Kernel.replay`: the calls of the kernel that a record tells of, and what they make of a kernel;
- `Machine.Touched`: nothing but one slot, the counters and the queue of free slots differs, and the kernel as the
  record tells;
- `Confined`: a program that touches one slot only, with a rule for each way to put programs together;
- `Settles`, `Half.Ends`: what becomes of a connection, and of an operation that has ended;
- `Confined.working`, `Confined.closing`: what a completion does at a slot that waits for one;
- `Machine.miscounted`, `Run.route_miscounted`: what it does where none is waited for;
- `Run.route_minValue`: the one result that a slot cannot take.
-/

namespace SlotServer

variable {α β γ : Type}

/-! ## What is on record -/

/-- The event tells of a call of the kernel. -/
def Event.isCall : Event → Bool
  | queued _ | refused .. | closed .. => true
  | _ => false

/-- The calls of the kernel that a record tells of, the latest first. -/
def calls (h : List Event) : List Event := h.filter (·.isCall)

theorem calls_append (h h' : List Event) : calls (h ++ h') = calls h ++ calls h' := List.filter_append ..

/-- The kernel after the calls that a record tells of. -/
def Kernel.replay (k : Kernel) : List Event → Kernel
  | [] => k
  | e :: h =>
    match e with
    | .queued op | .refused op _ => ((k.replay h).push op).2
    | .closed _ fd => { k.replay h with sockets := (k.replay h).sockets.close fd }
    | _ => k.replay h

theorem Kernel.replay_append (k : Kernel) (h h' : List Event) : k.replay (h ++ h') = (k.replay h').replay h := by
  induction h with
  | nil => rfl
  | cons e h ih => cases e <;> simp only [List.cons_append, replay, ih]

/-- Only the calls matter. -/
theorem Kernel.replay_calls (k : Kernel) (h : List Event) : k.replay (calls h) = k.replay h := by
  induction h with
  | nil => rfl
  | cons e h ih =>
    cases e with
    | queued op => exact congrArg (fun k : Kernel => (k.push op).2) ih
    | refused op _ => exact congrArg (fun k : Kernel => (k.push op).2) ih
    | closed _ fd => exact congrArg (fun k : Kernel => { k with sockets := k.sockets.close fd }) ih
    | _ => exact ih

/-- Without a call the kernel is as it was. -/
theorem Kernel.replay_of_calls_nil (k : Kernel) {h : List Event} (hnone : calls h = []) : k.replay h = k := by
  rw [← k.replay_calls, hnone]
  rfl

/-- What was recorded tells of no call of the kernel, and of nobody who was woken. -/
structure Mute (since : List Event) : Prop where
  calls : calls since = []
  woken : ∀ half, wokenAt half since = []

theorem Mute.nil : Mute [] := ⟨rfl, fun _ => rfl⟩

theorem Mute.said (level : LogLevel) (line : String) : Mute [.said level line] := ⟨rfl, fun _ => rfl⟩

theorem Mute.append {since since' : List Event} (h : Mute since) (h' : Mute since') : Mute (since ++ since') where
  calls := by rw [calls_append, h.calls, h'.calls]; rfl
  woken half := by rw [wokenAt_append, h.woken, h'.woken]; rfl

/-- Nothing but the slot, the counters and the queue of free slots differs, into which the slot was put so many times,
and the kernel as the events tell. These concern no other slot. -/
structure Machine.Touched (i : Nat) (since : List Event) (n : Nat) (m m' : Machine α) : Prop where
  size : m'.worker.slots.length = m.worker.slots.length
  others : ∀ j, j ≠ i → m'.worker.slots[j]? = m.worker.slots[j]?
  worker : m'.worker =
    { m.worker with slots := m'.worker.slots, counters := m'.worker.counters, free := m'.worker.free }
  free : m'.worker.free = m.worker.free ++ List.replicate n i
  kernel : m'.kernel = m.kernel.replay since
  app : m'.app = m.app
  held : m'.held = m.held
  trace : m'.trace = since ++ m.trace
  concerns : ∀ e ∈ since, ∀ j, j ≠ i → e.concerns j = false

namespace Machine.Touched

variable {i n n' : Nat} {since since' : List Event} {m m' m'' : Machine α}

theorem refl (m : Machine α) : m.Touched i [] 0 m :=
  ⟨rfl, fun _ _ => rfl, rfl, (List.append_nil _).symm, rfl, rfl, rfl, rfl, nofun⟩

theorem trans (h : m.Touched i since n m') (h' : m'.Touched i since' n' m'') :
    m.Touched i (since' ++ since) (n + n') m'' where
  size := h'.size.trans h.size
  others j hj := (h'.others j hj).trans (h.others j hj)
  worker := by
    rw [h'.worker, h.worker]
  free := by
    rw [h'.free, h.free, List.append_assoc, List.replicate_append_replicate]
  kernel := by
    rw [h'.kernel, h.kernel, Kernel.replay_append]
  app := h'.app.trans h.app
  held := h'.held.trans h.held
  trace := by
    rw [h'.trace, h.trace, List.append_assoc]
  concerns e he := (List.mem_append.1 he).elim (h'.concerns e) (h.concerns e)

theorem setSlot (m : Machine α) (i : Nat) (s : Slot) : m.Touched i [] 0 { m with worker := m.worker.setSlot i s } :=
  { refl m with
    size := List.length_set
    others := fun _ hj => List.getElem?_set_ne hj.symm
    worker := rfl }

theorem bump (m : Machine α) (counter : Counter) (k : UInt64) :
    m.Touched i [] 0 { m with worker := m.worker.bump counter k } := { refl m with worker := rfl }

/-- Something is recorded that is no call of the kernel. -/
theorem record (m : Machine α) {e : Event} (he : ∀ j, j ≠ i → e.concerns j = false) (hcall : e.isCall = false) :
    m.Touched i [e] 0 { m with trace := e :: m.trace } :=
  { refl m with
    kernel := by
      refine (m.kernel.replay_of_calls_nil ?_).symm
      rw [calls, List.filter_cons_of_neg (by rw [hcall]; exact nofun)]
      rfl
    trace := rfl
    concerns := fun e' he' => by
      obtain rfl := List.mem_singleton.1 he'
      exact he }

end Machine.Touched

/-! ## Programs that touch one slot -/

/-- Started where the slot is `s`, the program touches that slot only. Where it comes to an answer, this, the slot, what
was recorded and how often the slot was freed are as `Q` allows; `before` and `frees` are what there was already. -/
def Confined (i : Nat) (x : Run α β) (s : Slot) (before : List Event) (frees : Nat)
    (Q : β → Slot → List Event → Nat → Prop) : Prop :=
  ∀ (m : Machine α) b m', m.worker.slots[i]? = some s → x m = .ok b m' →
    ∃ s' since n, m'.worker.slots[i]? = some s' ∧ m.Touched i since n m' ∧ Q b s' (since ++ before) (frees + n)

namespace Confined

variable {i frees : Nat} {s : Slot} {before : List Event}

section Rules

variable {x : Run α β} {Q : β → Slot → List Event → Nat → Prop}

theorem mono {Q' : β → Slot → List Event → Nat → Prop} (h : Confined i x s before frees Q)
    (hQ : ∀ b s' since n, Q b s' since n → Q' b s' since n) : Confined i x s before frees Q' := by
  intro m b m' hs hrun
  obtain ⟨s', since, n, hs', htouched, hq⟩ := h m b m' hs hrun
  exact ⟨s', since, n, hs', htouched, hQ b s' _ _ hq⟩

theorem bind {k : β → Run α γ} {Q : γ → Slot → List Event → Nat → Prop}
    (h : Confined i x s before frees fun b s' before' frees' => Confined i (k b) s' before' frees' Q) :
    Confined i (x >>= k) s before frees Q := by
  intro m c m'' hs hrun
  obtain ⟨b, m', hx, hk⟩ := Run.of_bind hrun
  obtain ⟨s', since, n, hs', htouched, hnext⟩ := h m b m' hs hx
  obtain ⟨s'', since', n', hs'', htouched', hq⟩ := hnext m' c m'' hs' hk
  refine ⟨s'', since' ++ since, n + n', hs'', htouched.trans htouched', ?_⟩
  rwa [List.append_assoc, ← Nat.add_assoc]

/-- A program that comes to one answer, touches the slot in one way and does not free it. -/
theorem of_run (since : List Event) {b : β} {s' : Slot}
    (hx : ∀ m : Machine α, m.worker.slots[i]? = some s →
      ∃ m', x m = .ok b m' ∧ m'.worker.slots[i]? = some s' ∧ m.Touched i since 0 m')
    (h : Q b s' (since ++ before) frees) : Confined i x s before frees Q := by
  intro m c m' hs hrun
  obtain ⟨m₁, hone, hs', htouched⟩ := hx m hs
  rw [hone] at hrun
  cases hrun
  exact ⟨s', since, 0, hs', htouched, h⟩

theorem pure {b : β} (h : Q b s before frees) : Confined i (Pure.pure b : Run α β) s before frees Q :=
  of_run [] (fun m hs => ⟨m, rfl, hs, .refl m⟩) h

/-- A program that is at fault comes to nothing. -/
theorem throw {fault : Fault} : Confined i (MonadExcept.throw fault : Run α β) s before frees Q :=
  fun _ _ _ _ hrun => nomatch hrun

theorem slot? {Q : Option Slot → Slot → List Event → Nat → Prop} (h : Q (some s) s before frees) :
    Confined i (Run.slot? i : Run α (Option Slot)) s before frees Q :=
  of_run [] (fun m hs => ⟨m, Run.slot?_run hs, hs, .refl m⟩) h

theorem setSlot {s' : Slot} {Q : Unit → Slot → List Event → Nat → Prop} (h : Q () s' before frees) :
    Confined i (Run.modifyWorker (·.setSlot i s') : Run α Unit) s before frees Q :=
  of_run [] (fun m hs => ⟨_, rfl,
    List.getElem?_set_self (List.getElem?_eq_some_iff.1 hs).1, .setSlot m i s'⟩) h

/-- A step of the slot, which answers by itself what becomes of it. -/
theorem stepSlot {f : Slot.Step β} {Q : Except Error β → Slot → List Event → Nat → Prop}
    (h : Q (f s).1 (f s).2 before frees) :
    Confined i (Run.stepSlot i f : Run α (Except Error β)) s before frees Q :=
  bind (slot? (bind (setSlot (pure h))))

end Rules

section Changes

variable {Q : Unit → Slot → List Event → Nat → Prop}

theorem record {e : Event} (he : ∀ j, j ≠ i → e.concerns j = false) (hcall : e.isCall = false)
    (h : Q () s (e :: before) frees) : Confined i (Run.record e : Run α Unit) s before frees Q :=
  of_run [e] (fun m hs => ⟨_, rfl, hs, .record m he hcall⟩) h

theorem say {level : LogLevel} {message : String} (h : ∀ line, Q () s (.said level line :: before) frees) :
    Confined i (Run.say level message : Run α Unit) s before frees Q := by
  intro m b m' hs hrun
  obtain ⟨line, hsay⟩ := Run.say_run level message m
  rw [hsay] at hrun
  cases hrun
  exact ⟨s, [.said level line], 0, hs, .record m (fun _ _ => rfl) rfl, h line⟩

theorem bump {counter : Counter} {k : UInt64} (h : Q () s before frees) :
    Confined i (Run.bump counter k : Run α Unit) s before frees Q :=
  of_run [] (fun m hs => ⟨_, rfl, hs, .bump m counter k⟩) h

end Changes

/-! ## Calls of the kernel -/

/-- An operation of the slot for the kernel. -/
theorem queue {op : Op} {Q : Except Error Unit → Slot → List Event → Nat → Prop} (hop : op.ctx.slot = i)
    (h : ∀ answer, Q answer s (.ofPush op answer :: before) frees) :
    Confined i (Run.queue op : Run α (Except Error Unit)) s before frees Q := by
  intro m b m' hs hrun
  rw [Run.queue_run] at hrun
  cases hrun
  have hconcerns : ∀ j, j ≠ i → (Event.ofPush op (m.kernel.push op).1).concerns j = false := fun j hj => by
    have hslot : decide (op.ctx.slot = j) = false := decide_eq_false (hop ▸ hj.symm)
    cases (m.kernel.push op).1 <;> exact hslot
  have hkernel : (m.kernel.push op).2 = m.kernel.replay [.ofPush op (m.kernel.push op).1] := by
    cases (m.kernel.push op).1 <;> rfl
  refine ⟨s, [.ofPush op (m.kernel.push op).1], 0, hs, ?_, h _⟩
  exact
    { Machine.Touched.refl m with
      kernel := hkernel
      trace := rfl
      concerns := fun e he => by
        obtain rfl := List.mem_singleton.1 he
        exact hconcerns }

/-- How it is recorded that a slot's descriptor was closed at once. A negative one is none. -/
def cuts (i : Nat) (fd : Int) : List Event := if 0 ≤ fd then [.closed (some i) fd] else []

theorem calls_cuts (i : Nat) (fd : Int) : calls (cuts i fd) = cuts i fd := by
  unfold cuts
  split <;> rfl

theorem wokenAt_cuts (half : Half) (i : Nat) (fd : Int) : wokenAt half (cuts i fd) = [] := by
  unfold cuts
  split <;> rfl

theorem closeNow {fd : Int} {Q : Unit → Slot → List Event → Nat → Prop} (h : Q () s (cuts i fd ++ before) frees) :
    Confined i (Run.closeNow (some i) fd : Run α Unit) s before frees Q := by
  unfold cuts at h
  unfold Run.closeNow
  by_cases hfd : 0 ≤ fd
  · rw [if_pos hfd] at h ⊢
    refine of_run [.closed (some i) fd] (fun m hs => ⟨_, rfl, hs, ?_⟩) h
    exact
      { Machine.Touched.refl m with
        trace := rfl
        kernel := rfl
        concerns := fun e he j hj => by
          obtain rfl := List.mem_singleton.1 he
          exact decide_eq_false hj.symm }
  · rw [if_neg hfd] at h ⊢
    exact pure h

/-! ## Slots that are freed -/

/-- The slot is put among the free ones, unless these are too many. -/
theorem pushFree {Q : Bool → Slot → List Event → Nat → Prop} (h : ∀ done n, n ≤ 1 → Q done s before (frees + n)) :
    Confined i (Run.pushFree i : Run α Bool) s before frees Q := by
  intro m done m' hs hrun
  rw [Run.pushFree_run] at hrun
  split at hrun
  · cases hrun
    exact ⟨s, [], 0, hs, .refl m, h false 0 (Nat.zero_le 1)⟩
  · cases hrun
    exact ⟨s, [], 1, hs, { Machine.Touched.refl m with worker := rfl, free := rfl }, h true 1 (Nat.le_refl 1)⟩

/-- A lease is given back. The slot may be freed, once. -/
theorem release {Q : Unit → Slot → List Event → Nat → Prop}
    (h : ∀ since n, Mute since → n ≤ 1 → Q () { s with leases := s.leases - 1 } (since ++ before) (frees + n)) :
    Confined i (Run.release i : Run α Unit) s before frees Q := by
  refine bind (slot? (bind (setSlot ?_)))
  split
  · exact throw
  · exact pure (h [] 0 .nil (Nat.zero_le 1))
  · refine bind (pushFree fun done n hn => ?_)
    cases done with
    | false => exact say fun line => h [_] n (.said _ line) hn
    | true => exact pure (h [] n .nil hn)

/-- A slot that is disconnecting is closed past the queue. -/
theorem closeSlot {Q : Unit → Slot → List Event → Nat → Prop} (hstate : s.state = .disconnecting)
    (h : ∀ since n, Mute since → n ≤ 1 →
      Q () { s.unbound with leases := s.leases - 1 } (since ++ (cuts i s.fd ++ before)) (frees + n)) :
    Confined i (Run.closeSlot i : Run α Unit) s before frees Q := by
  refine bind (stepSlot ?_)
  rw [Slot.finishDisconnect_ok hstate]
  exact bind (closeNow (bind (bump (release h))))

end Confined

/-! ## Connections that are given up -/

/-- What becomes of a connection over a descriptor: it is left idle to its handle, or its close is queued, or the kernel
does not take the close, and the socket is closed at once. -/
inductive Settles (i : Nat) (fd : Int) (s' : Slot) (since : List Event) (n : Nat) : Prop
  | idle (hstate : s'.state.isIdle = true) (hattached : s'.attached = true) (hfd : s'.fd = fd)
    (hcalls : calls since = []) (hn : n = 0)
  | closing (hstate : s'.state = .disconnecting) (hfd : s'.fd = fd)
    (hcalls : calls since = [.queued (.close (.ofSlot i) fd)]) (hn : n = 0)
  | closed {e : Error} (hstate : s'.state = .disconnected) (hfd : s'.fd = -1)
    (hcalls : calls since = Confined.cuts i fd ++ [.refused (.close (.ofSlot i) fd) e]) (hn : n ≤ 1)

/-- The cells do not matter, nor what was recorded beside of the calls. -/
theorem Settles.congr {i n : Nat} {fd : Int} {s s' : Slot} {since since' : List Event} (h : Settles i fd s since n)
    (hstate : s'.state = s.state) (hattached : s'.attached = s.attached) (hfd : s'.fd = s.fd)
    (hcalls : calls since' = calls since) : Settles i fd s' since' n := by
  cases h with
  | idle hidle htrue hsame hnone hn =>
    exact .idle (hstate ▸ hidle) (hattached.trans htrue) (hfd.trans hsame) (hcalls.trans hnone) hn
  | closing hclosing hsame hone hn =>
    exact .closing (hstate.trans hclosing) (hfd.trans hsame) (hcalls.trans hone) hn
  | closed hclosed hnone hboth hn =>
    exact .closed (hstate.trans hclosed) (hfd.trans hnone) (hcalls.trans hboth) hn

/-- Nor does what was recorded before without a call. -/
theorem Settles.append {i n : Nat} {fd : Int} {s : Slot} {since before : List Event} (h : Settles i fd s since n)
    (hmute : Mute before) : Settles i fd s (since ++ before) n := by
  apply h.congr rfl rfl rfl
  rw [calls_append, hmute.calls, List.append_nil]

/-- What becomes of an operation that has ended: its cell has the outcome, who waits for it is woken, and nobody else;
the cell of the other half is as it was. -/
structure Half.Ends (half : Half) (o : Outcome) (i : Nat) (s s' : Slot) (since : List Event) (n : Nat) : Prop where
  settles : Settles i s.fd s' since n
  outcome : (Connection.cell s' half).outcome? = some o
  woken : wokenAt half since = (Connection.cell s half).registered.toList
  other : ∀ other, other ≠ half → Connection.cell s' other = Connection.cell s other ∧ wokenAt other since = []

/-- What a completion does at a slot that waits for one: the operation of the slot ends, or the slot is free of its
socket and of the lease that this had. -/
structure Completion.Ends (c : Completion) (i : Nat) (s s' : Slot) (since : List Event) (n : Nat) : Prop where
  operation : ∀ half : Half, s.state = half.working → half.Ends c.outcome i s s' since n
  close : s.state = .disconnecting → s' = { s.unbound with leases := s.leases - 1 } ∧ Mute since ∧ n ≤ 1

theorem Completion.Ends.of_half {c : Completion} {i n : Nat} {s s' : Slot} {since : List Event} (half : Half)
    (hstate : s.state = half.working) (h : half.Ends c.outcome i s s' since n) : c.Ends i s s' since n where
  operation other hother := by
    obtain rfl : half = other := by
      rw [hstate] at hother
      cases half <;> cases other <;> first | rfl | cases hother
    exact h
  close hclose := by
    rw [hstate] at hclose
    cases half <;> cases hclose

namespace Confined

variable {i frees : Nat} {half : Half} {s t : Slot} {before : List Event}

/-- The close of a slot that is disconnecting is queued. If the kernel does not take it, the slot is closed at once. -/
theorem issueClose {Q : Unit → Slot → List Event → Nat → Prop} (hindex : s.index = i)
    (hslot : (Context.ofSlot i).slot = i) (hstate : s.state = .disconnecting)
    (h : ∀ s' since n, Settles i s.fd s' since n → (∀ half, Connection.cell s' half = Connection.cell s half) →
      (∀ half, wokenAt half since = []) → Q () s' (since ++ before) (frees + n)) :
    Confined i (Run.issueClose i : Run α Unit) s before frees Q := by
  refine bind (slot? ?_)
  dsimp only
  rw [hindex]
  refine bind (queue hslot fun answer => ?_)
  cases answer with
  | ok _ =>
    exact pure (h s [.queued (s.closeOp i)] 0 (.closing hstate rfl rfl rfl) (fun _ => rfl) fun _ => rfl)
  | error e =>
    refine bind (say fun line => closeSlot hstate fun since n hmute hn => ?_)
    have hcells : ∀ half, Connection.cell { s.unbound with leases := s.leases - 1 } half = Connection.cell s half := by
      rintro ⟨⟩ <;> rfl
    have hafter := h { s.unbound with leases := s.leases - 1 }
      (since ++ (cuts i s.fd ++ [.said .warn line, .refused (s.closeOp i) e])) n
      (.closed (e := e) rfl rfl ?_ hn) hcells fun half => ?_
    · rw [List.append_assoc, List.append_assoc] at hafter
      exact hafter
    · rw [calls_append, calls_append, hmute.calls, calls_cuts]
      rfl
    · rw [wokenAt_append, wokenAt_append, hmute.woken, wokenAt_cuts]
      rfl

/-- The cell of a half is completed, and who waits for it is woken. -/
theorem completeCell {o : Outcome} {Q : Unit → Slot → List Event → Nat → Prop}
    (h : ∀ c since, c.outcome? = some o → calls since = [] →
      wokenAt half since = (Connection.cell s half).registered.toList →
      (∀ other, other ≠ half → wokenAt other since = []) →
      Q () (Connection.setCell s c half) (since ++ before) frees) :
    Confined i (Run.completeCell ⟨i, half⟩ (Slot.completeHalf half o) : Run α Unit) s before frees Q := by
  refine bind (slot? ?_)
  dsimp only
  unfold Slot.completeHalf
  cases hdone : (Connection.cell s half).complete o with
  | error fault => exact bind throw
  | ok done =>
    obtain ⟨waker, c⟩ := done
    refine bind (pure (bind (setSlot ?_)))
    have hwaker := Cell.complete_registered hdone
    have houtcome := Cell.outcome?_complete hdone
    subst hwaker
    cases hleft : (Connection.cell s half).registered with
    | none => exact pure (h c [] houtcome rfl (by rw [hleft]; rfl) fun _ _ => rfl)
    | some w =>
      have hconcerns : ∀ j, j ≠ i → (Event.woke ⟨i, half⟩ w).concerns j = false := fun j hj => decide_eq_false hj.symm
      refine record hconcerns rfl (h c [.woke ⟨i, half⟩ w] houtcome rfl ?_ fun other hne => ?_)
      · rw [hleft]
        exact if_pos rfl
      · exact if_neg fun heq => hne heq.symm

/-- The cell of an operation is completed after its connection was settled. -/
theorem complete {o : Outcome} (hsettles : Settles i s.fd t before frees)
    (hcells : ∀ half, Connection.cell t half = Connection.cell s half) (hwoken : ∀ half, wokenAt half before = []) :
    Confined i (Run.completeCell ⟨i, half⟩ (Slot.completeHalf half o) : Run α Unit) t before frees
      fun _ s' since n => half.Ends o i s s' since n := by
  refine completeCell fun c since houtcome hcalls hself hothers => ?_
  refine ⟨?_, ?_, ?_, fun other hother => ⟨?_, ?_⟩⟩
  · apply hsettles.congr (Slot.state_setCell ..) (Slot.attached_setCell ..) (Slot.fd_setCell ..)
    rw [calls_append, hcalls, List.nil_append]
  · rw [Slot.cell_setCell_self]
    exact houtcome
  · rw [wokenAt_append, hself, hwoken, hcells, List.append_nil]
  · rw [Slot.cell_setCell_of_ne t c hother, hcells]
  · rw [wokenAt_append, hothers other hother, hwoken]
    rfl

/-- An operation has ended badly: the socket is closed, and whoever waits is told. -/
theorem failed {o : Outcome} (hindex : t.index = i) (hslot : (Context.ofSlot i).slot = i)
    (hstate : t.state = .disconnecting) (hfd : t.fd = s.fd)
    (hcells : ∀ half, Connection.cell t half = Connection.cell s half) (hmute : Mute before) :
    Confined i (do
      Run.issueClose i
      Run.completeCell ⟨i, half⟩ (Slot.completeHalf half o) : Run α Unit) t before 0
      fun _ s' since n => half.Ends o i s s' since n := by
  refine bind (issueClose hindex hslot hstate fun t' since n hsettles hsame hwoken => ?_)
  refine complete ?_ (fun half => (hsame half).trans (hcells half)) fun half => ?_
  · rw [← hfd, Nat.zero_add]
    exact hsettles.append hmute
  · rw [wokenAt_append, hwoken, hmute.woken]
    rfl

/-- An operation has ended well: a connection without a handle is closed, and whoever waits is told. -/
theorem delivered {o : Outcome} (hindex : t.index = i) (hslot : (Context.ofSlot i).slot = i)
    (hstate : t.state.isIdle = true) (hfd : t.fd = s.fd)
    (hcells : ∀ half, Connection.cell t half = Connection.cell s half) (hmute : Mute before) :
    Confined i (do
      if !((← Run.slot? i).any (·.attached)) then Run.disconnect i
      Run.completeCell ⟨i, half⟩ (Slot.completeHalf half o) : Run α Unit) t before 0
      fun _ s' since n => half.Ends o i s s' since n := by
  refine bind (slot? ?_)
  show Confined i (if (!t.attached) = true then _ else _ : Run α Unit) t before 0 _
  cases hattached : t.attached with
  | false =>
    refine bind (bind (stepSlot ?_))
    rw [Slot.startDisconnect, Slot.advance_of_mem (SlotState.mem_of_isIdle hstate)]
    refine issueClose (s := { t with state := .disconnecting }) hindex hslot rfl
      fun t' since n hsettles hsame hwoken => ?_
    refine complete ?_ (fun half => (hsame half).trans (hcells half)) fun half => ?_
    · rw [← hfd, Nat.zero_add]
      exact hsettles.append hmute
    · rw [wokenAt_append, hwoken, hmute.woken]
      rfl
  | true => exact complete (.idle hstate hattached hfd hmute.calls rfl) hcells hmute.woken

/-! ## Completions -/

/-- An error number. The least result has none. -/
theorem errnoOf {result : Int32} {Q : Int32 → Slot → List Event → Nat → Prop} (h : Q (-result) s before frees) :
    Confined i (Run.errnoOf result : Run α Int32) s before frees Q := by
  unfold Run.errnoOf
  split
  · exact throw
  · exact pure h

variable {c : Completion}

/-- A receive has ended. -/
theorem onReceive (hindex : s.index = i) (hslot : (Context.ofSlot i).slot = i) (hstate : s.state = .receiving)
    (hmute : Mute before) :
    Confined i (Run.onReceive i c.result : Run α Unit) s before 0
      fun _ s' since n => Half.receive.Ends c.outcome i s s' since n := by
  unfold Run.onReceive
  by_cases hresult : c.result ≤ 0
  · rw [if_pos hresult]
    refine bind (stepSlot ?_)
    rw [Slot.abortReceive_ok hstate]
    dsimp only
    split
    · rename_i hneg
      have hout : c.outcome = .error (.io (-c.result)) := if_pos hneg
      rw [hout]
      refine bind (errnoOf (bind (say fun line => bind (bump ?_))))
      exact failed hindex hslot rfl rfl (by rintro ⟨⟩ <;> rfl) ((Mute.said .debug line).append hmute)
    · rename_i hneg
      have hout : c.outcome = .ok 0 := by
        rw [Completion.outcome, if_neg hneg, Int32.le_antisymm hresult (Int32.not_lt.1 hneg)]
        rfl
      rw [hout]
      exact bind (bump (failed hindex hslot rfl rfl (by rintro ⟨⟩ <;> rfl) hmute))
  · rw [if_neg hresult]
    refine bind (stepSlot ?_)
    have hout : c.outcome = .ok c.result.toInt.toNat := if_neg fun hneg => hresult (Int32.le_of_lt hneg)
    rw [Slot.finishReceive_ok hstate, hout]
    exact bind (bump (bind (bump (delivered hindex hslot rfl rfl (by rintro ⟨⟩ <;> rfl) hmute))))

/-- A send has ended. -/
theorem onSend (hindex : s.index = i) (hslot : (Context.ofSlot i).slot = i) (hstate : s.state = .sending)
    (hmute : Mute before) :
    Confined i (Run.onSend i c.result : Run α Unit) s before 0
      fun _ s' since n => Half.send.Ends c.outcome i s s' since n := by
  unfold Run.onSend
  by_cases hresult : c.result < 0
  · have hout : c.outcome = .error (.io (-c.result)) := if_pos hresult
    rw [if_pos hresult, hout]
    refine bind (stepSlot ?_)
    rw [Slot.abortSend_ok hstate]
    refine bind (errnoOf (bind (say fun line => bind (bump ?_))))
    exact failed hindex hslot rfl rfl (by rintro ⟨⟩ <;> rfl) ((Mute.said .debug line).append hmute)
  · have hout : c.outcome = .ok c.result.toInt.toNat := if_neg hresult
    rw [if_neg hresult, hout]
    refine bind (stepSlot ?_)
    rw [Slot.finishSend_ok hstate]
    exact bind (bump (bind (bump (delivered hindex hslot rfl rfl (by rintro ⟨⟩ <;> rfl) hmute))))

/-- A close has ended: the slot is free of its socket and of the lease that it had. -/
theorem onClose (hstate : s.state = .disconnecting) (hmute : Mute before) :
    Confined i (Run.onClose i c.result : Run α Unit) s before 0 fun _ s' since n =>
      s' = { s.unbound with leases := s.leases - 1 } ∧ Mute since ∧ n ≤ 1 := by
  have hsettle : ∀ before, Mute before → Confined i (Run.settleClose i : Run α Unit) s before 0 fun _ s' since n =>
      s' = { s.unbound with leases := s.leases - 1 } ∧ Mute since ∧ n ≤ 1 := by
    intro before hmute
    refine bind (stepSlot ?_)
    rw [Slot.finishDisconnect_ok hstate]
    refine bind (bump (bind (say fun line => release fun since n hsince hn => ⟨rfl, ?_, ?_⟩)))
    · exact hsince.append ((Mute.said .trace line).append hmute)
    · omega
  rw [Run.onClose_eq]
  split
  · exact bind (errnoOf (bind (say fun line => hsettle _ ((Mute.said .debug line).append hmute))))
  · exact hsettle before hmute

/-- A completion is taken to a slot that waits for one. -/
theorem route (hc : c.ctx.slot = i) (hindex : s.index = i) (hslot : (Context.ofSlot i).slot = i)
    (hpending : s.state.isPending = true) :
    Confined i (Run.route c : Run α Unit) s [] 0 fun _ s' since n => c.Ends i s s' since n := by
  subst hc
  have hmute : Mute [.answered c] := ⟨rfl, fun _ => rfl⟩
  refine bind (record (fun j hj => decide_eq_false hj.symm) rfl (bind (slot? ?_)))
  dsimp only
  cases hstate : s.state with
  | receiving =>
    exact (onReceive hindex hslot hstate hmute).mono fun _ s' since n hends => .of_half .receive hstate hends
  | sending =>
    exact (onSend hindex hslot hstate hmute).mono fun _ s' since n hends => .of_half .send hstate hends
  | disconnecting =>
    refine (onClose hstate hmute).mono fun _ s' since n hends => ⟨fun half hhalf => ?_, fun _ => hends⟩
    rw [hstate] at hhalf
    cases half <;> cases hhalf
  | _ =>
    rw [hstate] at hpending
    cases hpending

end Confined

/-! ## Completions at the machine -/

variable {m : Machine α} {c : Completion}

/-- What is said of a completion that no slot waits for. -/
def Machine.stray (m : Machine α) (c : Completion) : String :=
  match m.worker.slots[c.ctx.slot]? with
  | none => s!"completion for unknown slot {c.ctx.slot}"
  | some s => s!"unexpected completion ({c.result}) for slot {c.ctx.slot} in state {s.state.name}"

/-- The machine after a completion that no slot waits for: it is counted, and a line is written. -/
def Machine.miscounted (m : Machine α) (c : Completion) : Machine α :=
  { m with
    worker := m.worker.bump .violations 1
    trace := .said .error s!"worker {m.worker.id}: {m.stray c}" :: .answered c :: m.trace }

/-- The machine after a completion was recorded. -/
def Machine.noting (m : Machine α) (c : Completion) : Machine α := { m with trace := .answered c :: m.trace }

theorem Run.route_noting (m : Machine α) (c : Completion) : Run.route c m = Run.conclude c (m.noting c) := rfl

/-- A completion that no slot waits for is counted. -/
theorem Run.route_miscounted (h : ∀ s : Slot, m.worker.slots[c.ctx.slot]? = some s → s.state.isPending = false) :
    Run.route c m = .ok () (m.miscounted c) := by
  rw [route_noting]
  unfold Machine.miscounted Machine.stray
  cases hs : m.worker.slots[c.ctx.slot]? with
  | none => exact (bind_run (slot?_run_none (m := m.noting c) hs)).trans rfl
  | some s =>
    refine (bind_run (slot?_run (m := m.noting c) hs)).trans ?_
    have hidle := h s hs
    dsimp only
    cases hstate : s.state <;> rw [hstate] at hidle <;> first | rfl | cases hidle

/-- The least result has no error number: a slot that waits for a completion cannot take it. -/
theorem Run.route_minValue {s : Slot} (hs : m.worker.slots[c.ctx.slot]? = some s) (hpending : s.state.isPending = true)
    (hc : c.result = Int32.minValue) : ∃ m', Run.route c m = .error .negOverflow m' := by
  have hslot : (m.noting c).worker.slots[c.ctx.slot]? = some s := hs
  rw [route_noting]
  refine Exists.imp (fun _ => (bind_run (slot?_run hslot)).trans) ?_
  dsimp only
  rw [hc]
  cases hstate : s.state with
  | receiving =>
    refine Exists.imp (fun _ => (bind_run (stepSlot_run hslot)).trans) ?_
    rw [Slot.abortReceive_ok hstate]
    exact ⟨_, rfl⟩
  | sending =>
    refine Exists.imp (fun _ => (bind_run (stepSlot_run hslot)).trans) ?_
    rw [Slot.abortSend_ok hstate]
    exact ⟨_, rfl⟩
  | disconnecting => exact ⟨_, rfl⟩
  | _ =>
    rw [hstate] at hpending
    cases hpending

end SlotServer
