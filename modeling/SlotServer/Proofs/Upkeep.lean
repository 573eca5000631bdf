import Mathlib.Data.List.Basic
import SlotServer.Proofs.Deeds
import SlotServer.Proofs.Tenancies

/-!
# What is kept up

Few programs of a worker bind a socket or give a connection to the handler. All others keep the tenancies and leave no
slot with another socket; and when a slot lets go of its socket, a close is counted.

- `Upkeep`: what such a program keeps of a machine;
- `Tidy`: a program keeps it, with a rule for each way to put programs together;
- `Tidy.submit`, `Tidy.deed`: the calls of acceptors and handles.

The kernel's count of unanswered operations is kept too, by all but those who take completions out. It is asked for only
where `strict` says so: a handler may be known to act on its own connection only, and no more than that.
-/

namespace SlotServer

variable {α β γ : Type}

/-! ## Slots and counts -/

namespace Slot

/-- A socket is bound to the slot. -/
def isBound (s : Slot) : Bool := s.state ≠ .disconnected

/-- The slot goes on without getting a socket. -/
structure Wanes (s s' : Slot) : Prop where
  index : s'.index = s.index
  free : s.state = .disconnected → s'.state = .disconnected
  gone : s.state.isOver = true → s'.state.isOver = true
  fresh : s'.state = .accepting → s.state = .accepting

/-- The slot goes on with the socket that it has, or without one. -/
structure Stays (s s' : Slot) : Prop extends Wanes s s' where
  bound : s'.isBound = s.isBound

namespace Stays

variable {s t : Slot}

theorem of_state (hindex : t.index = s.index) (hstate : t.state = s.state) : s.Stays t where
  index := hindex
  free := hstate.trans
  gone := fun h => hstate ▸ h
  fresh := hstate.symm.trans
  bound := by rw [isBound, hstate, isBound]

theorem rfl {s : Slot} : s.Stays s := .of_state (Eq.refl _) (Eq.refl _)

/-- A step among the states with a socket that is not being closed. -/
theorem advance {allowed : List SlotState} {next : SlotState} (h : s.Stays t)
    (hallowed : ∀ state ∈ allowed, state.isOver = false) (hnext : next ≠ .disconnected) (hfresh : next ≠ .accepting) :
    s.Stays (t.advance allowed next).2 := by
  by_cases hmem : t.state ∈ allowed
  · rw [advance_of_mem hmem]
    have hover := hallowed _ hmem
    have hbound : t.isBound = true := by
      refine decide_eq_true fun hstate => ?_
      rw [hstate] at hover
      cases hover
    exact
      { index := h.index
        free := fun hs => by
          rw [h.free hs] at hover
          cases hover
        gone := fun hs => by
          rw [h.gone hs] at hover
          cases hover
        fresh := fun hs => absurd hs hfresh
        bound := by rw [← h.bound, hbound]; exact decide_eq_true hnext }
  · rw [advance_of_not_mem hmem]
    exact h

theorem abortHalf (half : Half) (s : Slot) : s.Stays (s.abortHalf half).2 := by
  cases half with
  | receive =>
    exact advance (s := s) (t := { s with receivedLength := 0 }) (.of_state (Eq.refl _) (Eq.refl _)) (by decide) nofun
      nofun
  | send => exact advance .rfl (by decide) nofun nofun

theorem finishReceive (n : Nat) (s : Slot) : s.Stays (s.finishReceive n).2 :=
  advance (s := s) (t := { s with receivedLength := n }) (.of_state (Eq.refl _) (Eq.refl _)) (by decide) nofun nofun

theorem begin {half : Half} {s : Slot} (hstart : s.state ∈ startsFrom half) (length : Nat) :
    s.Stays (s.begin length half) := by
  have hidle := isIdle_of_startsFrom hstart
  have hbound : s.isBound = true := decide_eq_true (SlotState.ne_disconnected_of_isIdle hidle)
  exact
    { index := s.index_begin length half
      free := fun hs => absurd hs (SlotState.ne_disconnected_of_isIdle hidle)
      gone := fun hs => by
        rw [SlotState.isOver_of_isIdle hidle] at hs
        cases hs
      fresh := fun hs => by
        rw [state_begin] at hs
        cases half <;> cases hs
      bound := by
        rw [hbound, isBound, state_begin]
        exact decide_eq_true half.working_ne_disconnected }

theorem setCell (s : Slot) (c : Cell) (half : Half) : s.Stays (Connection.setCell s c half) :=
  .of_state (by cases half <;> exact Eq.refl _) (s.state_setCell c half)

theorem completeHalf {s s' : Slot} {half : Half} {outcome : Outcome} {waker : Option Waker}
    (h : s.completeHalf half outcome = .ok (waker, s')) : s.Stays s' := by
  obtain ⟨c, -, -, rfl⟩ := completeHalf_ok h
  exact setCell s c half

end Stays

theorem wanes_unbound (s : Slot) : s.Wanes s.unbound := ⟨rfl, fun _ => rfl, fun _ => rfl, nofun⟩

theorem Wanes.trans {s t u : Slot} (h : s.Wanes t) (h' : t.Wanes u) : s.Wanes u where
  index := h'.index.trans h.index
  free hs := h'.free (h.free hs)
  gone hs := h'.gone (h.gone hs)
  fresh hs := h.fresh (h'.fresh hs)

end Slot

namespace Worker

/-- The slots that a socket is bound to. -/
def inUse (w : Worker) : List Nat := (List.range w.slots.length).filter fun i => w.slots[i]?.any (·.isBound)

/-- The closes that were counted, and those that are to come. -/
def account (w : Worker) : UInt64 := w.counters.disconnects + UInt64.ofNat (w.slots.countP (·.isBound))

theorem mem_inUse {w : Worker} {i : Nat} :
    i ∈ w.inUse ↔ ∃ s : Slot, w.slots[i]? = some s ∧ s.state ≠ .disconnected := by
  unfold inUse
  rw [List.mem_filter, List.mem_range, Option.any_eq_true]
  constructor
  · rintro ⟨-, s, hs, hbound⟩
    exact ⟨s, hs, of_decide_eq_true hbound⟩
  · rintro ⟨s, hs, hstate⟩
    exact ⟨(List.getElem?_eq_some_iff.1 hs).1, s, hs, decide_eq_true hstate⟩

theorem nodup_inUse (w : Worker) : w.inUse.Nodup := List.nodup_range.filter _

/-- Places of a list are as many as entries. -/
theorem length_filter_range {δ : Type} (p : δ → Bool) (l : List δ) :
    ((List.range l.length).filter fun i => l[i]?.any p).length = l.countP p := by
  induction l with
  | nil => rfl
  | cons d l ih =>
    have hrest : ((List.range l.length).map (· + 1)).filter (fun i => (d :: l)[i]?.any p) =
        ((List.range l.length).filter fun i => l[i]?.any p).map (· + 1) := by
      rw [List.filter_map]
      rfl
    rw [List.length_cons, List.range_succ_eq_map, List.filter_cons, List.countP_cons, ← ih]
    show (if Option.any p (some d) = true then _ else _ : List Nat).length = _
    rw [show List.map Nat.succ (List.range l.length) = (List.range l.length).map (· + 1) from rfl, hrest]
    cases hd : p d <;> simp [hd]

theorem length_inUse (w : Worker) : w.inUse.length = w.slots.countP (·.isBound) :=
  length_filter_range _ w.slots

/-- Another slot in the place of an old one counts for it. -/
theorem countP_setSlot {w : Worker} {i : Nat} {s t : Slot} (hs : w.slots[i]? = some s) :
    (w.setSlot i t).slots.countP (·.isBound) + s.isBound.toNat = w.slots.countP (·.isBound) + t.isBound.toNat := by
  obtain ⟨hi, rfl⟩ := List.getElem?_eq_some_iff.1 hs
  have hset : (w.setSlot i t).slots.countP (·.isBound) = w.slots.countP (·.isBound) -
      (if w.slots[i].isBound = true then 1 else 0) + if t.isBound = true then 1 else 0 :=
    List.countP_set (p := Slot.isBound) hi
  rw [hset]
  cases hb : w.slots[i].isBound with
  | false => cases t.isBound <;> rfl
  | true =>
    have hpos : 0 < w.slots.countP (·.isBound) := List.countP_pos_iff.2 ⟨_, List.getElem_mem hi, hb⟩
    cases t.isBound
    · exact Nat.sub_add_cancel hpos
    · exact congrArg (· + 1) (Nat.sub_add_cancel hpos)

theorem account_setSlot {w : Worker} {i : Nat} {s t : Slot} (hs : w.slots[i]? = some s)
    (hbound : t.isBound = s.isBound) : (w.setSlot i t).account = w.account := by
  have hcount := countP_setSlot (t := t) hs
  rw [hbound] at hcount
  rw [account, account, Nat.add_right_cancel hcount]
  rfl

/-- A slot that lets go of its socket leaves a close to be counted. -/
theorem account_unbound {w : Worker} {i : Nat} {s t : Slot} (hs : w.slots[i]? = some s) (hbound : s.isBound = true)
    (hfree : t.isBound = false) : (w.setSlot i t).account + 1 = w.account := by
  have hcount := countP_setSlot (t := t) hs
  rw [hbound, hfree] at hcount
  have hone : (w.setSlot i t).slots.countP (·.isBound) + 1 = w.slots.countP (·.isBound) := hcount
  rw [account, account, ← hone, UInt64.ofNat_add, ← UInt64.add_assoc]
  rfl

/-- A slot that gets a socket has its close to come. -/
theorem account_bound {w : Worker} {i : Nat} {s t : Slot} (hs : w.slots[i]? = some s) (hfree : s.isBound = false)
    (hbound : t.isBound = true) : (w.setSlot i t).account = w.account + 1 := by
  have hcount := countP_setSlot (t := t) hs
  rw [hbound, hfree] at hcount
  have hone : (w.setSlot i t).slots.countP (·.isBound) = w.slots.countP (·.isBound) + 1 := hcount
  rw [account, account, hone, UInt64.ofNat_add, ← UInt64.add_assoc]
  rfl

end Worker

/-! ## Upkeep -/

namespace Machine

/-- What the record tells of tenancies. -/
def services (m : Machine α) : List Event := m.trace.filter (·.isService)

/-- The kernel counts as many unanswered operations as the record tells of, if it did before. -/
structure Even (m m' : Machine α) : Prop where
  accounting : m'.kernel.accounting = m.kernel.accounting
  inflight : m'.kernel.inflight + (outstanding m.trace).length = m.kernel.inflight + (outstanding m'.trace).length

theorem Even.trans {m m' m'' : Machine α} (h : m.Even m') (h' : m'.Even m'') : m.Even m'' where
  accounting := h'.accounting.trans h.accounting
  inflight := by
    have hbefore := h.inflight
    have hafter := h'.inflight
    omega

end Machine

/-- What is kept of a machine while no socket comes and no connection is given to the handler. So many closes more were
counted, or are to come, than slots let go of their sockets. -/
structure Upkeep (strict : Bool) (n : UInt64) (m m' : Machine α) : Prop where
  services : m'.services = m.services
  accepts : m'.worker.counters.accepts = m.worker.counters.accepts
  account : m'.worker.account = m.worker.account + n
  size : m'.worker.slots.length = m.worker.slots.length
  slots : ∀ (i : Nat) (s s' : Slot), m.worker.slots[i]? = some s → m'.worker.slots[i]? = some s' → s.Wanes s'
  held : m'.held.Sublist m.held
  stopping : m'.worker.stopping = m.worker.stopping
  deadline : m'.worker.deadline = m.worker.deadline
  even : strict = true → m.Even m'

/-- A worker whose slots stay the same, and in as much of the rest as matters here. -/
structure Worker.Similar (w w' : Worker) : Prop where
  slots : w'.slots = w.slots
  accepts : w'.counters.accepts = w.counters.accepts
  disconnects : w'.counters.disconnects = w.counters.disconnects
  stopping : w'.stopping = w.stopping
  deadline : w'.deadline = w.deadline

namespace Upkeep

variable {strict : Bool} {n n' : UInt64} {m m' m'' : Machine α}

theorem trans (h : Upkeep strict n m m') (h' : Upkeep strict n' m' m'') : Upkeep strict (n + n') m m'' where
  services := h'.services.trans h.services
  accepts := h'.accepts.trans h.accepts
  account := by rw [h'.account, h.account, UInt64.add_assoc]
  size := h'.size.trans h.size
  slots i s s'' hs hs'' := by
    have hi : i < m'.worker.slots.length := by
      rw [h.size]
      exact (List.getElem?_eq_some_iff.1 hs).1
    have hs' := List.getElem?_eq_getElem hi
    exact (h.slots i s _ hs hs').trans (h'.slots i _ s'' hs' hs'')
  held := h'.held.trans h.held
  stopping := h'.stopping.trans h.stopping
  deadline := h'.deadline.trans h.deadline
  even := fun hstrict => (h.even hstrict).trans (h'.even hstrict)

/-- Upkeep after a change that has nothing to be counted. -/
theorem andThen (h : Upkeep strict 0 m m') (h' : Upkeep strict n m' m'') : Upkeep strict n m m'' := by
  have hboth := h.trans h'
  rwa [UInt64.zero_add] at hboth

/-- Nothing of the slots changed. -/
theorem of_similar (hworker : m.worker.Similar m'.worker) (hservices : m'.services = m.services)
    (hheld : m'.held.Sublist m.held) (heven : strict = true → m.Even m') : Upkeep strict 0 m m' where
  services := hservices
  accepts := hworker.accepts
  account := by rw [Worker.account, hworker.disconnects, hworker.slots, UInt64.add_zero]; rfl
  size := congrArg List.length hworker.slots
  slots i s s' hs hs' := by
    rw [hworker.slots, hs] at hs'
    obtain rfl := Option.some.inj hs'
    exact Slot.Stays.rfl.toWanes
  held := hheld
  stopping := hworker.stopping
  deadline := hworker.deadline
  even := heven

theorem refl (m : Machine α) : Upkeep strict 0 m m :=
  of_similar ⟨rfl, rfl, rfl, rfl, rfl⟩ rfl (.refl _) fun _ => ⟨rfl, rfl⟩

/-- A slot is put in the place of one that it comes from. -/
theorem setSlot {i : Nat} {s t : Slot} (hs : m.worker.slots[i]? = some s) (hwanes : s.Wanes t)
    (haccount : (m.worker.setSlot i t).account = m.worker.account + n) :
    Upkeep strict n m { m with worker := m.worker.setSlot i t } where
  services := rfl
  accepts := rfl
  account := haccount
  size := List.length_set
  slots j u u' hu hu' := by
    change (m.worker.slots.set i t)[j]? = some u' at hu'
    rw [List.getElem?_set] at hu'
    split at hu'
    · rename_i hij
      subst hij
      split at hu' <;> cases hu'
      obtain rfl := Option.some.inj (hs.symm.trans hu)
      exact hwanes
    · obtain rfl := Option.some.inj (hu.symm.trans hu')
      exact Slot.Stays.rfl.toWanes
  held := .refl _
  stopping := rfl
  deadline := rfl
  even := fun _ => ⟨rfl, rfl⟩

theorem stays {i : Nat} {s t : Slot} (hs : m.worker.slots[i]? = some s) (hstays : s.Stays t) :
    Upkeep strict 0 m { m with worker := m.worker.setSlot i t } :=
  setSlot hs hstays.toWanes (by rw [Worker.account_setSlot hs hstays.bound, UInt64.add_zero])

/-- A slot lets go of its socket. -/
theorem unbound {i : Nat} {s : Slot} (hs : m.worker.slots[i]? = some s) (hlive : s.state ≠ .disconnected) :
    Upkeep strict (-1) m { m with worker := m.worker.setSlot i s.unbound } := by
  refine setSlot hs s.wanes_unbound ?_
  rw [← Worker.account_unbound (t := s.unbound) hs (decide_eq_true hlive) rfl, UInt64.add_assoc]
  exact (UInt64.add_zero _).symm

end Upkeep

/-- From the machine, the program does nothing but upkeep. -/
def TidyAt (strict : Bool) (n : UInt64) (x : Run α β) (m : Machine α) : Prop :=
  ∀ b m', x m = .ok b m' → Upkeep strict n m m'

/-- The program does nothing but upkeep. -/
def Tidy (strict : Bool) (n : UInt64) (x : Run α β) : Prop := ∀ m, TidyAt strict n x m

namespace TidyAt

variable {strict : Bool} {n n' : UInt64} {m m' : Machine α}

theorem of_run {x : Run α β} {b : β} (hrun : x m = .ok b m') (h : Upkeep strict n m m') : TidyAt strict n x m := by
  intro b' m'' hrun'
  rw [hrun] at hrun'
  cases hrun'
  exact h

theorem pure (b : β) : TidyAt strict 0 (Pure.pure b : Run α β) m := .of_run rfl (.refl m)

theorem bind {x : Run α β} {k : β → Run α γ} (hx : TidyAt strict n x m)
    (hk : ∀ b m', x m = .ok b m' → TidyAt strict n' (k b) m') : TidyAt strict (n + n') (x >>= k) m := by
  intro c m'' hrun
  obtain ⟨b, m', hm, hrest⟩ := Run.of_bind hrun
  exact (hx b m' hm).trans (hk b m' hm c m'' hrest)

/-- A program that changes nothing that is counted, and another one after it. -/
theorem andThen {x : Run α β} {k : β → Run α γ} (hx : TidyAt strict 0 x m) (hk : ∀ b, Tidy strict n (k b)) :
    TidyAt strict n (x >>= k) m := by
  have hboth := hx.bind fun b m' _ => hk b m'
  rwa [UInt64.zero_add] at hboth

end TidyAt

/-- The event neither tells of tenancies nor of operations. -/
def Event.isPlain : Event → Bool
  | .bound .. | .served _ | .queued _ | .answered _ | .released => false
  | _ => true

namespace Tidy

variable {strict : Bool} {n : UInt64} {i : Nat}

/-! ## Programs put together -/

theorem pure (b : β) : Tidy strict 0 (Pure.pure b : Run α β) := fun _ => .pure b

theorem throw (fault : Fault) : Tidy strict n (MonadExcept.throw fault : Run α β) := fun _ _ _ hrun => by cases hrun

theorem bind {x : Run α β} {k : β → Run α γ} (hx : Tidy strict 0 x) (hk : ∀ b, Tidy strict n (k b)) :
    Tidy strict n (x >>= k) := fun m => (hx m).andThen hk

theorem get : Tidy strict 0 (MonadState.get : Run α (Machine α)) := fun m => .of_run rfl (.refl m)

theorem worker : Tidy strict 0 (Run.worker : Run α Worker) := fun m => .of_run rfl (.refl m)

theorem slot? : Tidy strict 0 (Run.slot? i : Run α (Option Slot)) := fun m => .of_run rfl (.refl m)

theorem ofExcept (y : Except Fault β) : Tidy strict 0 (Run.ofExcept y : Run α β) := by
  cases y with
  | ok b => exact pure b
  | error fault => exact throw fault

/-- A program that looks at a slot. -/
theorem look {f : Option Slot → Run α β} (hnone : Tidy strict n (f none))
    (hsome : ∀ m s, m.worker.slots[i]? = some s → TidyAt strict n (f (some s)) m) :
    Tidy strict n (Run.slot? i >>= f) := by
  intro m
  show TidyAt strict n (fun m => f m.worker.slots[i]? m) m
  cases hs : m.worker.slots[i]? with
  | none => exact fun b m' hrun => hnone m b m' (by dsimp only at hrun; rwa [hs] at hrun)
  | some s => exact fun b m' hrun => hsome m s hs b m' (by dsimp only at hrun; rwa [hs] at hrun)

theorem forM {l : List γ} {f : γ → Run α PUnit} (hf : ∀ c, Tidy strict 0 (f c)) : Tidy strict 0 (l.forM f) := by
  induction l with
  | nil => exact pure _
  | cons c l ih => exact bind (hf c) fun _ => ih

/-! ## Single changes -/

theorem record {e : Event} (he : e.isPlain = true) : Tidy strict 0 (Run.record e : Run α Unit) := by
  intro m
  have hservice : e.isService = false := by cases e <;> first | rfl | cases he
  have hout : outstanding (e :: m.trace) = outstanding m.trace := by cases e <;> first | rfl | cases he
  refine .of_run rfl (.of_similar ⟨rfl, rfl, rfl, rfl, rfl⟩ ?_ (.refl _) fun _ => ⟨rfl, ?_⟩)
  · exact List.filter_cons_of_neg (by rw [hservice]; exact Bool.false_ne_true)
  · dsimp only
    rw [hout]

theorem say {level : LogLevel} {message : String} : Tidy strict 0 (Run.say level message : Run α Unit) :=
  bind worker fun _ => record rfl

theorem modifyWorker {f : Worker → Worker} (hf : ∀ w : Worker, w.Similar (f w)) :
    Tidy strict 0 (Run.modifyWorker f : Run α Unit) :=
  fun m => .of_run rfl (.of_similar (hf m.worker) rfl (.refl _) fun _ => ⟨rfl, rfl⟩)

theorem bump {counter : Counter} {k : UInt64} (haccepts : counter ≠ .accepts) (hcloses : counter ≠ .disconnects) :
    Tidy strict 0 (Run.bump counter k : Run α Unit) := by
  refine modifyWorker fun w => ?_
  cases counter with
  | accepts => exact absurd rfl haccepts
  | disconnects => exact absurd rfl hcloses
  | _ => exact ⟨rfl, rfl, rfl, rfl, rfl⟩

/-- A close is counted. -/
theorem bumpClose {k : Unit → Run α β} (hk : Tidy strict 0 (k ())) :
    Tidy strict 1 (Run.bump .disconnects 1 >>= k) := by
  intro m b m' hrun
  have hcounted : Upkeep strict 1 m { m with worker := m.worker.bump .disconnects 1 } :=
    { services := rfl
      accepts := rfl
      account := by
        show m.worker.counters.disconnects + 1 + _ = m.worker.account + 1
        rw [Worker.account, UInt64.add_assoc, UInt64.add_comm 1, ← UInt64.add_assoc]
        rfl
      size := rfl
      slots := fun i s s' hs hs' => by
        obtain rfl := Option.some.inj (hs.symm.trans hs')
        exact Slot.Stays.rfl.toWanes
      held := .refl _
      stopping := rfl
      deadline := rfl
      even := fun _ => ⟨rfl, rfl⟩ }
  have hboth : Upkeep strict (1 + 0) m m' := hcounted.trans (hk _ b m' hrun)
  rwa [UInt64.add_zero] at hboth

/-- A call of the kernel that neither queues nor takes out anything. -/
theorem kernel {f : Kernel → β × Kernel}
    (hf : strict = true → ∀ k, (f k).2.accounting = k.accounting ∧ (f k).2.inflight = k.inflight) :
    Tidy strict 0 (Run.kernel f : Run α β) := fun m =>
  .of_run rfl (.of_similar ⟨rfl, rfl, rfl, rfl, rfl⟩ rfl (.refl _) fun hstrict =>
    ⟨(hf hstrict m.kernel).1, congrArg (· + (outstanding m.trace).length) (hf hstrict m.kernel).2⟩)

theorem ask (call : Call) : Tidy strict 0 (Run.kernel (·.ask call) : Run α (Except Error Unit)) :=
  kernel fun _ _ => ⟨rfl, rfl⟩

theorem modifyKernel {f : Kernel → Kernel}
    (hf : ∀ k, (f k).accounting = k.accounting ∧ (f k).inflight = k.inflight) :
    Tidy strict 0 (Run.modifyKernel f : Run α Unit) := fun m =>
  .of_run rfl (.of_similar ⟨rfl, rfl, rfl, rfl, rfl⟩ rfl (.refl _) fun _ =>
    ⟨(hf m.kernel).1, congrArg (· + (outstanding m.trace).length) (hf m.kernel).2⟩)

theorem modifyApp (f : α → α) : Tidy strict 0 (Run.modifyApp f : Run α Unit) :=
  fun _ => .of_run rfl (.of_similar ⟨rfl, rfl, rfl, rfl, rfl⟩ rfl (.refl _) fun _ => ⟨rfl, rfl⟩)

/-- A slot is put in the place of one that it comes from. -/
theorem setSlot {m : Machine α} {s t : Slot} (hs : m.worker.slots[i]? = some s) (hstays : s.Stays t) :
    TidyAt strict 0 (Run.modifyWorker (·.setSlot i t) : Run α Unit) m := .of_run rfl (.stays hs hstays)

theorem modifySlot {f : Slot → Slot} (hf : ∀ s : Slot, s.Stays (f s)) :
    Tidy strict 0 (Run.modifySlot i f : Run α Unit) := by
  intro m
  have hrun : (Run.modifySlot i f : Run α Unit) m = .ok ()
      { m with worker := { m.worker with slots := m.worker.slots.modify i f } } := rfl
  cases hs : m.worker.slots[i]? with
  | none =>
    rw [List.modify_eq_self (List.getElem?_eq_none_iff.1 hs)] at hrun
    exact .of_run hrun (.refl m)
  | some s =>
    rw [List.modify_eq_set, hs] at hrun
    exact .of_run hrun (.stays hs (hf s))

/-- A step of a slot, and what hangs on its answer. -/
theorem step {f : Slot.Step γ} {k : Except Error γ → Run α β} (hnone : Tidy strict n (k (.error .noFreeSlot)))
    (hsome : ∀ m s, m.worker.slots[i]? = some s → ∀ answer s', f s = (answer, s') →
      TidyAt strict n (fun m => k answer { m with worker := m.worker.setSlot i s' }) m) :
    Tidy strict n (Run.stepSlot i f >>= k) := by
  intro m
  cases hs : m.worker.slots[i]? with
  | none => exact fun b m' hrun => hnone m b m' ((Run.bind_run (Run.stepSlot_run_none hs)).symm.trans hrun)
  | some s => exact fun b m' hrun => hsome m s hs _ _ rfl b m' ((Run.bind_run (Run.stepSlot_run hs)).symm.trans hrun)

/-- A step of a slot that goes on with its socket. -/
theorem stepSlot {f : Slot.Step β} (hf : ∀ s : Slot, s.Stays (f s).2) :
    Tidy strict 0 (Run.stepSlot i f : Run α (Except Error β)) :=
  look (pure _) fun _ s hs => (setSlot hs (hf s)).andThen fun _ => pure _

/-- A slot lets go of its socket, and its close is counted. -/
theorem stepUnbound {k : Except Error Int → Run α β} (herror : ∀ e, Tidy strict 0 (k (.error e)))
    (hok : ∀ fd, Tidy strict 1 (k (.ok fd))) : Tidy strict 0 (Run.stepSlot i Slot.finishDisconnect >>= k) := by
  refine step (herror _) fun m s hs answer s' hstep => ?_
  by_cases hstate : s.state = .disconnecting
  · cases (Slot.finishDisconnect_ok hstate).symm.trans hstep
    intro b m' hrun
    have hlive : s.state ≠ .disconnected := hstate ▸ nofun
    have hboth : Upkeep strict (-1 + 1) m m' := (Upkeep.unbound hs hlive).trans (hok s.fd _ b m' hrun)
    rwa [show (-1 : UInt64) + 1 = 0 from rfl] at hboth
  · have hrefused : s.finishDisconnect = (.error s.wrongState, s) := by
      rw [Slot.finishDisconnect, Slot.transition_of_not_mem fun hmem => hstate (List.mem_singleton.1 hmem)]
    cases hrefused.symm.trans hstep
    exact fun b m' hrun => (Upkeep.stays hs .rfl).andThen (herror _ _ b m' hrun)

/-! ## Calls of acceptors -/

theorem acquire : Tidy strict 0 (Run.acquire : Run α (Option Nat)) := by
  refine bind worker fun w => ?_
  split
  · exact pure _
  · cases w.free with
    | nil => exact pure _
    | cons i free => exact bind (modifyWorker fun _ => ⟨rfl, rfl, rfl, rfl, rfl⟩) fun _ => pure _

theorem pushFree : Tidy strict 0 (Run.pushFree i : Run α Bool) := by
  refine bind worker fun w => ?_
  split
  · exact pure _
  · exact bind (modifyWorker fun _ => ⟨rfl, rfl, rfl, rfl, rfl⟩) fun _ => pure _

theorem release : Tidy strict 0 (Run.release i : Run α Unit) := by
  refine look (pure _) fun m s hs => (setSlot (t := s.releaseLease.2) hs (.of_state rfl rfl)).andThen fun _ => ?_
  split
  · exact throw _
  · exact pure _
  · refine bind pushFree fun placed => ?_
    split
    · exact say
    · exact pure _

theorem closeNow {slot : Option Nat} {fd : Int} : Tidy strict 0 (Run.closeNow slot fd : Run α Unit) := by
  unfold Run.closeNow
  split
  · exact bind (record rfl) fun _ => modifyKernel fun _ => ⟨rfl, rfl⟩
  · exact pure _

theorem closeSlot : Tidy strict 0 (Run.closeSlot i : Run α Unit) :=
  stepUnbound (fun _ => pure _) fun _ => bind closeNow fun _ => bumpClose release

theorem wake {cell : CellName} {waker : Option Waker} : Tidy strict 0 (Run.wake cell waker : Run α Unit) := by
  cases waker with
  | none => exact pure _
  | some w => exact record rfl

theorem completeCell (half : Half) (outcome : Outcome) :
    Tidy strict 0 (Run.completeCell ⟨i, half⟩ (Slot.completeHalf half outcome) : Run α Unit) := by
  refine look (pure _) fun m s hs b m' hrun => ?_
  obtain ⟨done, m₁, hdone, hrest⟩ := Run.of_bind hrun
  cases hcomplete : s.completeHalf half outcome with
  | error fault =>
    rw [hcomplete] at hdone
    cases hdone
  | ok done' =>
    rw [hcomplete] at hdone
    cases hdone
    exact ((setSlot hs (.completeHalf hcomplete)).andThen fun _ => wake) b m' hrest

theorem failHalf (half : Half) : Tidy strict 0 (Run.failHalf half i : Run α Unit) := by
  refine bind (stepSlot (.abortHalf half)) fun answer => ?_
  cases answer with
  | error e => exact pure _
  | ok _ => exact bind closeSlot fun _ => completeCell _ _

theorem failCommand (c : Command) : Tidy strict 0 (Run.failCommand c : Run α Unit) := by
  cases c with
  | accept i =>
    refine bind say fun _ => bind (stepSlot fun s => .advance .rfl (by decide) nofun nofun) fun answer => ?_
    cases answer with
    | error e => exact pure _
    | ok _ => exact closeSlot
  | receive i => exact bind say fun _ => failHalf .receive
  | send i => exact bind say fun _ => failHalf .send
  | disconnect i => exact bind say fun _ => closeSlot

theorem popCommand : Tidy strict 0 (Run.popCommand : Run α (Option Command)) := by
  refine bind worker fun w => ?_
  cases w.inbox with
  | nil => exact pure _
  | cons c inbox => exact bind (modifyWorker fun _ => ⟨rfl, rfl, rfl, rfl, rfl⟩) fun _ => pure _

theorem failUpTo (n : Nat) : Tidy strict 0 (Run.failUpTo n : Run α Unit) := by
  induction n with
  | zero => exact pure _
  | succ n ih =>
    refine bind popCommand fun c => ?_
    cases c with
    | none => exact pure _
    | some c => exact bind (failCommand c) fun _ => ih

theorem failOrphans : Tidy strict 0 (Run.failOrphans : Run α Unit) := bind worker fun _ => failUpTo _

theorem enqueue (c : Command) : Tidy strict 0 (Run.enqueue c : Run α Bool) := by
  refine bind worker fun w => ?_
  split
  · exact pure _
  · exact bind (modifyWorker fun _ => ⟨rfl, rfl, rfl, rfl, rfl⟩) fun _ => pure _

theorem ring : Tidy strict 0 (Run.ring : Run α (Except Error Unit)) := bind (record rfl) fun _ => ask _

theorem settle : Tidy strict 0 (Run.settle : Run α Unit) := by
  refine bind worker fun w => ?_
  split
  · exact failOrphans
  · exact pure _

theorem submit (c : Command) : Tidy strict 0 (Run.submit c : Run α Unit) := by
  refine bind (enqueue c) fun placed => ?_
  cases placed with
  | true =>
    refine bind ring fun answer => ?_
    cases answer with
    | error e => exact bind say fun _ => settle
    | ok _ => exact settle
  | false =>
    refine bind worker fun w => ?_
    split
    · exact failCommand c
    · exact throw _

/-! ## Calls of handles -/

theorem detach : Tidy strict 0 (Run.detach i : Run α Unit) := by
  refine bind slot? fun here => ?_
  split
  · refine bind (modifySlot fun _ => .of_state rfl rfl) fun _ =>
      bind (stepSlot fun s => .advance .rfl (by decide) nofun nofun) fun answer => ?_
    cases answer with
    | error e => exact release
    | ok _ => exact bind (submit _) fun _ => release
  · exact pure _

theorem drop : Tidy strict 0 (Connection.drop i : Run α Unit) := by
  have hletGo : Tidy strict 0 (modify fun m => { m with held := m.held.erase i } : Run α Unit) := fun m =>
    .of_run rfl (.of_similar ⟨rfl, rfl, rfl, rfl, rfl⟩ rfl (List.erase_sublist ..) fun _ => ⟨rfl, rfl⟩)
  exact bind hletGo fun _ => detach

theorem receive : Tidy strict 0 (Connection.receive i : Run α OperationFuture) := by
  have hbegin : ∀ s : Slot, s.Stays s.startReceive.2 := fun s => by
    rw [Slot.startReceive_eq]
    split
    · exact .begin ‹_› 0
    · exact .rfl
  refine bind (stepSlot hbegin) fun answer => ?_
  cases answer with
  | error e => exact pure _
  | ok _ => exact bind (record rfl) fun _ => bind (submit _) fun _ => pure _

theorem send (length : Nat) : Tidy strict 0 (Connection.send i length : Run α (Except Error OperationFuture)) := by
  have hbegin : ∀ s : Slot, s.Stays (s.startSend length).2 := fun s => by
    rw [Slot.startSend_eq]
    split
    · exact .rfl
    split
    · exact .begin ‹_› length
    · exact .rfl
  refine bind (stepSlot hbegin) fun answer => ?_
  cases answer with
  | error e => exact pure _
  | ok _ => exact bind (record rfl) fun _ => bind (record rfl) fun _ => bind (submit _) fun _ => pure _

theorem pollFuture (waker : Waker) (future : OperationFuture) :
    Tidy strict 0 (Connection.pollFuture waker future : Run α (Poll Outcome × OperationFuture)) := by
  cases future with
  | refused e => exact pure _
  | awaiting name =>
    refine look (pure _) fun m s hs => ?_
    dsimp only
    cases hpoll : (Connection.cell s name.half).poll waker with
    | mk answer c =>
      refine (setSlot hs (.setCell s c name.half)).andThen fun _ => ?_
      cases answer with
      | pending => exact bind (record rfl) fun _ => pure _
      | ready outcome => exact pure _

theorem bytes (seg : Segment) : Tidy strict 0 (Connection.bytes seg : Run α (List UInt8)) :=
  bind worker fun _ => ofExcept _

theorem fill (data : Array UInt8) : Tidy strict 0 (Connection.fill i data : Run α (Nat × Nat)) := by
  refine bind slot? fun here => ?_
  cases here with
  | none => exact pure _
  | some s =>
    refine bind worker fun w => bind (ofExcept _) fun done => ?_
    exact bind (modifyWorker fun _ => ⟨rfl, rfl, rfl, rfl, rfl⟩) fun _ => pure _

/-- Every call of a handle. -/
theorem deed (d : Deed) : Tidy strict 0 (d.run i : Run α Unit) := by
  cases d with
  | receive => exact bind receive fun _ => pure _
  | send length => exact bind (send length) fun _ => pure _
  | poll half waker => exact bind (pollFuture waker _) fun _ => pure _
  | readReceived =>
    refine bind (bind slot? fun here => ?_) fun _ => pure _
    cases here with
    | none => exact pure _
    | some s => exact bytes _
  | readSend =>
    refine bind (bind slot? fun here => ?_) fun _ => pure _
    cases here with
    | none => exact pure _
    | some s => exact bytes _
  | fill data => exact bind (fill data) fun _ => pure _
  | drop => exact drop

end Tidy

end SlotServer
