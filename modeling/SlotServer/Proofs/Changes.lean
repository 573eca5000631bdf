import Mathlib.Logic.Relation
import SlotServer.Proofs.Deeds
import SlotServer.Proofs.Halves

/-!
# What a program changes

Every program of a worker is a row of few kinds of changes. What each kind keeps, every program keeps, whatever the
kernel answers and whoever calls.

- `Change`: the kinds of changes, and `Changes`: a row of them. Which there are hangs on the `Part` that they are of;
- `Makes`: a program makes such changes only, with a rule for each way to put programs together;
- `Makes.assign`, `Makes.deed`: the calls of acceptors and handles.
-/

namespace SlotServer

variable {α β γ : Type}

/-- The event p for nothing that changes together with it. -/
def Event.isRemark : Event → Bool
  | answered _ | polled | closed .. | hungUp .. | hastened .. | served _ | started | awaited .. | woke ..
  | said .. => true
  | registered _ | unregistered | released | bound .. => false
  | queued _ | refused .. | submitted _ | rung | asked _ | began _ => false

/-- What the record says of an operation that the kernel was given. -/
def Event.ofPush (op : Op) : Except Error Unit → Event
  | .ok _ => .queued op
  | .error e => .refused op e

/-- The slot lies over the same segment, and its last send is of the same length. -/
structure Slot.Alike (s s' : Slot) : Prop where
  index : s'.index = s.index
  segment : s'.segment = s.segment
  sendLength : s'.sendLength = s.sendLength

namespace Slot

theorem alike_advance {s t : Slot} (h : s.Alike t) (allowed : List SlotState) (next : SlotState) :
    s.Alike (t.advance allowed next).2 := by
  by_cases hmem : t.state ∈ allowed
  · rw [advance_of_mem hmem]
    exact ⟨h.index, h.segment, h.sendLength⟩
  · rw [advance_of_not_mem hmem]
    exact h

theorem Alike.rfl {s : Slot} : s.Alike s := ⟨Eq.refl _, Eq.refl _, Eq.refl _⟩

theorem alike_finishDisconnect (s : Slot) : s.Alike s.finishDisconnect.2 := by
  by_cases hstate : s.state = .disconnecting
  · rw [finishDisconnect_ok hstate]
    exact ⟨Eq.refl _, Eq.refl _, Eq.refl _⟩
  · rw [finishDisconnect, transition_of_not_mem (by simpa using hstate)]
    exact .rfl

theorem alike_abortHalf (half : Half) (s : Slot) : s.Alike (s.abortHalf half).2 := by
  cases half with
  | receive =>
    exact alike_advance (s := s) (t := { s with receivedLength := 0 }) ⟨Eq.refl _, Eq.refl _, Eq.refl _⟩ _ _
  | send => exact alike_advance .rfl _ _

theorem alike_finishReceive (n : Nat) (s : Slot) : s.Alike (s.finishReceive n).2 :=
  alike_advance (s := s) (t := { s with receivedLength := n }) ⟨Eq.refl _, Eq.refl _, Eq.refl _⟩ _ _

theorem alike_setCell (s : Slot) (c : Cell) (half : Half) : s.Alike (Connection.setCell s c half) := by
  cases half <;> exact ⟨Eq.refl _, Eq.refl _, Eq.refl _⟩

theorem alike_completeHalf {s s' : Slot} {half : Half} {outcome : Outcome} {waker : Option Waker}
    (h : s.completeHalf half outcome = .ok (waker, s')) : s.Alike s' := by
  unfold completeHalf at h
  cases hc : (Connection.cell s half).complete outcome with
  | error fault =>
    rw [hc] at h
    cases h
  | ok done =>
    rw [hc] at h
    cases h
    exact s.alike_setCell done.2 half

end Slot

/-- The pool has the same segments. -/
structure Pool.Alike (p p' : Pool) : Prop where
  segmentLength : p'.segmentLength = p.segmentLength
  segmentCount : p'.segmentCount = p.segmentCount
  bufIndex : p'.bufIndex = p.bufIndex

theorem Pool.alike_write {p p' : Pool} {seg : Segment} {data : Array UInt8} {n : Nat}
    (h : p.write seg data = .ok (n, p')) : p'.registered = p.registered ∧ p.Alike p' := by
  unfold write at h
  cases hplace : p.place seg with
  | error fault =>
    rw [hplace] at h
    cases h
  | ok offset =>
    rw [hplace] at h
    cases h
    exact ⟨rfl, rfl, rfl, rfl⟩

/-- An operation that is queued for a slot. -/
def Slot.Asks (s : Slot) (i : Nat) (op : Op) : Prop :=
  (∃ half, op = s.halfOp half i) ∨ op = .close (.ofSlot s.index) s.fd

/-- The worker has the same slots to look after, and what its loop goes by is the same. -/
structure Worker.Bides (w w' : Worker) : Prop where
  size : w'.slots.length = w.slots.length
  inbox : w'.inbox = w.inbox
  stopping : w'.stopping = w.stopping
  deadline : w'.deadline = w.deadline
  batch : w'.batch = w.batch

theorem Worker.Bides.refl (w : Worker) : w.Bides w := ⟨rfl, rfl, rfl, rfl, rfl⟩

/-- What changes are of. -/
inductive Part
  /-- A call of an acceptor or of a handle. -/
  | call
  /-- A stage of a turn. It queues operations too. -/
  | stage
  /-- Whatever a worker may be made to do. Commands are taken out too, the queue is handed over, the drain begins, and
  the worker is asked to stop. -/
  | all
  deriving DecidableEq, Repr

theorem Part.stage_ne_call : Part.stage ≠ .call := nofun

theorem Part.all_ne_call : Part.all ≠ .call := nofun

/-- What a program may change at once. As long as the loop is there, a call and a stage leave what the loop goes by, but
that they may put commands into the inbox. The wake-up counter is rung then, and only then. -/
inductive Change (part : Part) (m : Machine α) : Machine α → Prop
  | remark {e : Event} (he : e.isRemark = true) : Change part m { m with trace := e :: m.trace }
  /-- Neither a slot nor the record changes, nor how the loop and the pool stand. -/
  | aside {m' : Machine α} (hslots : m'.worker.slots = m.worker.slots) (hexited : m'.worker.exited = m.worker.exited)
    (hregistered : m'.worker.pool.registered = m.worker.pool.registered)
    (hpool : m.worker.pool.Alike m'.worker.pool) (htrace : m'.trace = m.trace)
    (hbides : part ≠ .all → m.worker.exited = false → m.worker.Bides m'.worker) : Change part m m'
  | rung (hpart : part = .all) : Change part m { m with trace := .rung :: m.trace }
  /-- A command is put into the inbox, and the counter is rung. -/
  | handOver {c : Command} {kernel : Kernel} (hroom : m.worker.inboxFull = false) :
    Change part m
      { m with worker := { m.worker with inbox := m.worker.inbox ++ [c] }, kernel, trace := .rung :: m.trace }
  | slot {i : Nat} {s s' : Slot} (hs : m.worker.slots[i]? = some s) (halike : s.Alike s') :
    Change part m { m with worker := m.worker.setSlot i s' }
  | bind {i : Nat} {s : Slot} {fd : Int} {peer : Option Net.SocketAddress} (hs : m.worker.slots[i]? = some s) :
    Change part m { m with worker := m.worker.setSlot i (s.withSocket fd peer), trace := .bound i fd :: m.trace }
  | receive {i : Nat} {s : Slot} (hs : m.worker.slots[i]? = some s) :
    Change part m { m with worker := m.worker.setSlot i (s.begin 0 .receive), trace := .began ⟨i, .receive⟩ :: m.trace }
  | send {i length : Nat} {s : Slot} (hs : m.worker.slots[i]? = some s) (hlength : length ≤ s.sendHalf.length) :
    Change part m
      { m with
        worker := m.worker.setSlot i (s.begin length .send)
        trace := .began ⟨i, .send⟩ :: .asked length :: m.trace }
  /-- Only a loop that has not come to its end queues operations and hands them over. -/
  | push {i : Nat} {s : Slot} {op : Op} {kernel : Kernel} (answer : Except Error Unit)
    (hexited : m.worker.exited = false) (hs : m.worker.slots[i]? = some s) (hasks : s.Asks i op)
    (hpart : part ≠ .call) :
    Change part m { m with kernel, trace := .ofPush op answer :: m.trace }
  | submit {least : Nat} (hexited : m.worker.exited = false) (hpart : part = .all) :
    Change part m { m with trace := .submitted least :: m.trace }
  | deregister (hexited : m.worker.exited = true) (hregistered : m.worker.pool.registered = true) :
    Change part m
      { m with
        worker := { m.worker with pool := { m.worker.pool with registered := false } }
        trace := .unregistered :: m.trace }
  | release (hexited : m.worker.exited = true) : Change part m { m with trace := .released :: m.trace }

/-- A row of changes. -/
abbrev Changes (part : Part) : Machine α → Machine α → Prop := Relation.ReflTransGen (Change part)

variable {part : Part}

theorem Change.exited {m m' : Machine α} (h : Change part m m') : m'.worker.exited = m.worker.exited := by
  cases h with
  | aside _ hexited => exact hexited
  | _ => rfl

theorem Changes.exited {m m' : Machine α} (h : Changes part m m') : m'.worker.exited = m.worker.exited := by
  induction h with
  | refl => rfl
  | tail _ hstep ih => exact hstep.exited.trans ih

/-- An operation was given to the kernel, or the queue was handed over. -/
def Event.ofQueue : Event → Bool
  | queued _ | refused .. | submitted _ => true
  | _ => false

/-- The record only grows, and once the loop has come to its end, there is nothing more of the queue. That the
registration is undone is told when it is. -/
theorem Change.registration {m m' : Machine α} (h : Change part m m') :
    m'.worker.pool.registered = m.worker.pool.registered ∧
        (∃ since, m'.trace = since ++ m.trace ∧ .unregistered ∉ since ∧
          (m.worker.exited = true → ∀ e ∈ since, e.ofQueue = false)) ∨
      m.worker.exited = true ∧ m.worker.pool.registered = true ∧ m'.worker.pool.registered = false ∧
        m'.trace = .unregistered :: m.trace := by
  have hno : ∀ {p : Event → Prop}, m.worker.exited = false → m.worker.exited = true → ∀ e, p e → e.ofQueue = false :=
    fun hlive hexited => absurd (hlive.symm.trans hexited) Bool.false_ne_true
  cases h with
  | @remark e he =>
    refine .inl ⟨rfl, [e], rfl, fun hmem => ?_, fun _ e' he' => ?_⟩
    · obtain rfl := List.mem_singleton.1 hmem
      cases he
    · obtain rfl := List.mem_singleton.1 he'
      cases e' <;> first | rfl | cases he
  | aside _ _ hregistered _ htrace => exact .inl ⟨hregistered, [], htrace, nofun, nofun⟩
  | slot => exact .inl ⟨rfl, [], rfl, nofun, nofun⟩
  | push answer hlive => exact .inl ⟨rfl, [_], rfl, by cases answer <;> exact nofun, hno hlive⟩
  | submit hlive => exact .inl ⟨rfl, [_], rfl, nofun, hno hlive⟩
  | send => exact .inl ⟨rfl, [_, _], rfl, by simp, by simp [Event.ofQueue]⟩
  | deregister hexited hregistered => exact .inr ⟨hexited, hregistered, rfl, rfl⟩
  | rung | handOver | bind | receive | release => exact .inl ⟨rfl, [_], rfl, by simp, by simp [Event.ofQueue]⟩

theorem Change.trace {m m' : Machine α} (h : Change part m m') :
    ∃ since, m'.trace = since ++ m.trace ∧ (m.worker.exited = true → ∀ e ∈ since, e.ofQueue = false) := by
  obtain ⟨-, since, htrace, -, hqueue⟩ | ⟨-, -, -, htrace⟩ := h.registration
  · exact ⟨since, htrace, hqueue⟩
  · exact ⟨[.unregistered], htrace, by simp [Event.ofQueue]⟩

theorem Changes.trace {m m' : Machine α} (h : Changes part m m') :
    ∃ since, m'.trace = since ++ m.trace ∧ (m.worker.exited = true → ∀ e ∈ since, e.ofQueue = false) := by
  induction h with
  | refl => exact ⟨[], rfl, nofun⟩
  | tail hsteps hstep ih =>
    obtain ⟨since, htrace, hnone⟩ := ih
    obtain ⟨more, htrace', hnone'⟩ := hstep.trace
    refine ⟨more ++ since, by rw [htrace', htrace, List.append_assoc], fun hexited e he => ?_⟩
    rcases List.mem_append.1 he with he | he
    · exact hnone' ((Changes.exited hsteps).trans hexited) e he
    · exact hnone hexited e he

namespace Run

variable {m : Machine α} {c : Command}

/-- Without a place for a command, nobody is woken. -/
theorem submit_full (hfull : m.worker.inboxFull = true) :
    (submit c : Run α Unit) m = (if m.worker.exited then failCommand c else throw .inboxStalled : Run α Unit) m :=
  bind_run ((enqueue_run m c).trans (if_pos hfull))

/-- With one, the command is put there, and the counter is rung after that. -/
theorem submit_placed (c : Command) (hroom : m.worker.inboxFull = false) : (submit c : Run α Unit) m = (do
    if let .error e := (m.kernel.ask .notify).1 then say .warn s!"notify failed: {e.message}"
    settle : Run α Unit)
    { m with
      worker := { m.worker with inbox := m.worker.inbox ++ [c] }
      kernel := (m.kernel.ask .notify).2
      trace := .rung :: m.trace } := by
  have hring : (ring : Run α (Except Error Unit))
      { m with worker := { m.worker with inbox := m.worker.inbox ++ [c] } } = .ok (m.kernel.ask .notify).1
        { m with
          worker := { m.worker with inbox := m.worker.inbox ++ [c] }
          kernel := (m.kernel.ask .notify).2
          trace := .rung :: m.trace } := rfl
  exact (bind_run ((enqueue_run m c).trans (if_neg (by simp [hroom])))).trans (bind_run hring)

end Run

/-- From the machine, the program makes nothing but changes. -/
def MakesAt (part : Part) (x : Run α β) (m : Machine α) : Prop := ∀ b m', x m = .ok b m' → Changes part m m'

/-- The program makes nothing but changes, as long as `p` holds of whether the loop has come to its end. -/
def Makes (part : Part) (p : Bool → Prop) (x : Run α β) : Prop := ∀ m, p m.worker.exited → MakesAt part x m

theorem MakesAt.of_run {x : Run α β} {m m' : Machine α} {b : β} (hrun : x m = .ok b m') (h : Changes part m m') :
    MakesAt part x m := by
  intro b' m'' hrun'
  rw [hrun] at hrun'
  cases hrun'
  exact h

theorem MakesAt.pure {m : Machine α} (b : β) : MakesAt part (Pure.pure b : Run α β) m := .of_run rfl .refl

theorem MakesAt.bind {x : Run α β} {k : β → Run α γ} {m : Machine α} (hx : MakesAt part x m)
    (hk : ∀ b m', x m = .ok b m' → MakesAt part (k b) m') : MakesAt part (x >>= k) m := by
  intro c m'' hrun
  obtain ⟨b, m', hm, hrest⟩ := Run.of_bind hrun
  exact (hx b m' hm).trans (hk b m' hm c m'' hrest)

/-- A program that goes on as another one. -/
theorem MakesAt.goesOn {x y : Run α β} {m m' : Machine α} (hrun : x m = y m') (h : Changes part m m')
    (hy : MakesAt part y m') : MakesAt part x m := fun b m'' hrun' => h.trans (hy b m'' (hrun ▸ hrun'))

theorem MakesAt.andThen {p : Bool → Prop} {x : Run α β} {k : β → Run α γ} {m : Machine α} (hx : MakesAt part x m)
    (hm : p m.worker.exited) (hk : ∀ b, Makes part p (k b)) : MakesAt part (x >>= k) m := by
  refine hx.bind fun b m' hrun => hk b m' ?_
  rw [(hx b m' hrun).exited]
  exact hm

namespace Makes

variable {p : Bool → Prop} {i : Nat}

/-! ## Programs put together -/

theorem pure (b : β) : Makes part p (Pure.pure b : Run α β) := fun _ _ => .pure b

theorem throw (fault : Fault) : Makes part p (MonadExcept.throw fault : Run α β) := fun _ _ _ _ hrun => by cases hrun

theorem bind {x : Run α β} {k : β → Run α γ} (hx : Makes part p x) (hk : ∀ b, Makes part p (k b)) :
    Makes part p (x >>= k) := by
  intro m hm
  exact (hx m hm).andThen hm hk

theorem get : Makes part p (MonadState.get : Run α (Machine α)) := fun _ _ => .of_run rfl .refl

theorem worker : Makes part p (Run.worker : Run α Worker) := fun _ _ => .of_run rfl .refl

theorem ofExcept (y : Except Fault β) : Makes part p (Run.ofExcept y : Run α β) := by
  cases y with
  | ok b => exact pure b
  | error fault => exact throw fault

/-- A program that looks at a slot. -/
theorem look {f : Option Slot → Run α β} (hnone : Makes part p (f none))
    (hsome : ∀ m s, p m.worker.exited → m.worker.slots[i]? = some s → MakesAt part (f (some s)) m) :
    Makes part p (Run.slot? i >>= f) := by
  intro m hm
  show MakesAt part (fun m => f m.worker.slots[i]? m) m
  cases hs : m.worker.slots[i]? with
  | none => exact fun b m' hrun => hnone m hm b m' (by dsimp only at hrun; rwa [hs] at hrun)
  | some s => exact fun b m' hrun => hsome m s hm hs b m' (by dsimp only at hrun; rwa [hs] at hrun)

theorem slot? : Makes part p (Run.slot? i : Run α (Option Slot)) := fun _ _ => .of_run rfl .refl

theorem forM {l : List γ} {f : γ → Run α PUnit} (hf : ∀ c, Makes part p (f c)) : Makes part p (l.forM f) := by
  induction l with
  | nil => exact pure _
  | cons c l ih => exact bind (hf c) fun _ => ih

/-! ## Single changes -/

theorem remark {e : Event} (he : e.isRemark = true) : Makes part p (Run.record e : Run α Unit) :=
  fun _ _ => .of_run rfl (.single (.remark he))

theorem say {level : LogLevel} {message : String} : Makes part p (Run.say level message : Run α Unit) :=
  bind worker fun _ => remark rfl

/-- A change of the worker that leaves its slots and its pool as they are. -/
theorem modifyWorker {f : Worker → Worker} (hslots : ∀ w, (f w).slots = w.slots)
    (hexited : ∀ w, (f w).exited = w.exited) (hpool : ∀ w, (f w).pool = w.pool)
    (hbides : ∀ w : Worker, p w.exited → part ≠ .all → w.exited = false → w.Bides (f w)) :
    Makes part p (Run.modifyWorker f : Run α Unit) := by
  intro m hm
  refine .of_run rfl (.single (.aside (hslots _) (hexited _) ?_ ?_ rfl (hbides _ hm)))
  · rw [hpool]
  · rw [hpool]
    exact ⟨rfl, rfl, rfl⟩

theorem bump {counter : Counter} {n : UInt64} : Makes part p (Run.bump counter n : Run α Unit) :=
  modifyWorker (fun _ => rfl) (fun _ => rfl) (fun _ => rfl) fun _ _ _ _ => ⟨rfl, rfl, rfl, rfl, rfl⟩

/-- A change of the free slots. -/
theorem modifyFree (f : Worker → List Nat) :
    Makes part p (Run.modifyWorker fun w => { w with free := f w } : Run α Unit) :=
  modifyWorker (fun _ => rfl) (fun _ => rfl) (fun _ => rfl) fun _ _ _ _ => ⟨rfl, rfl, rfl, rfl, rfl⟩

theorem modifyKernel (f : Kernel → Kernel) : Makes part p (Run.modifyKernel f : Run α Unit) :=
  fun _ _ => .of_run rfl (.single (.aside rfl rfl rfl ⟨rfl, rfl, rfl⟩ rfl fun _ _ => .refl _))

theorem kernel (f : Kernel → β × Kernel) : Makes part p (Run.kernel f : Run α β) :=
  fun _ _ => .of_run rfl (.single (.aside rfl rfl rfl ⟨rfl, rfl, rfl⟩ rfl fun _ _ => .refl _))

theorem modifyApp (f : α → α) : Makes part p (Run.modifyApp f : Run α Unit) :=
  fun _ _ => .of_run rfl (.single (.aside rfl rfl rfl ⟨rfl, rfl, rfl⟩ rfl fun _ _ => .refl _))

theorem modifyHeld (f : Machine α → List Nat) :
    Makes part p (modify fun m => { m with held := f m } : Run α Unit) :=
  fun _ _ => .of_run rfl (.single (.aside rfl rfl rfl ⟨rfl, rfl, rfl⟩ rfl fun _ _ => .refl _))

/-- A slot is put in the place of one that it is alike to. -/
theorem setSlot {m : Machine α} {s t : Slot} (hs : m.worker.slots[i]? = some s) (halike : s.Alike t) :
    MakesAt part (Run.modifyWorker (·.setSlot i t) : Run α Unit) m :=
  .of_run rfl (.single (.slot hs halike))

/-- A step of a slot, and what hangs on its answer. -/
theorem step {f : Slot.Step γ} {k : Except Error γ → Run α β} (hnone : Makes part p (k (.error .noFreeSlot)))
    (hsome : ∀ m s, p m.worker.exited → m.worker.slots[i]? = some s →
      ∀ answer s', f s = (answer, s') → MakesAt part (fun m => k answer { m with worker := m.worker.setSlot i s' }) m) :
    Makes part p (Run.stepSlot i f >>= k) := by
  intro m hm
  cases hs : m.worker.slots[i]? with
  | none => exact fun b m' hrun => hnone m hm b m' ((Run.bind_run (Run.stepSlot_run_none hs)).symm.trans hrun)
  | some s => exact fun b m' hrun => hsome m s hm hs _ _ rfl b m' ((Run.bind_run (Run.stepSlot_run hs)).symm.trans hrun)

/-- A step of a slot that leaves it alike. -/
theorem stepSlot {f : Slot.Step β} (hf : ∀ s : Slot, s.Alike (f s).2) :
    Makes part p (Run.stepSlot i f : Run α (Except Error β)) :=
  look (pure _) fun _ s hm hs => (setSlot hs (hf s)).andThen hm fun _ => pure _

/-! ## Calls of acceptors -/

theorem acquire : Makes part p (Run.acquire : Run α (Option Nat)) := by
  refine bind worker fun w => ?_
  split
  · exact pure _
  · cases w.free with
    | nil => exact pure _
    | cons i free => exact bind (modifyFree _) fun _ => pure _

theorem pushFree : Makes part p (Run.pushFree i : Run α Bool) := by
  refine bind worker fun w => ?_
  split
  · exact pure _
  · exact bind (modifyFree _) fun _ => pure _

theorem release : Makes part p (Run.release i : Run α Unit) := by
  refine look (pure _) fun m s hm hs => (setSlot (t := s.releaseLease.2) hs ⟨rfl, rfl, rfl⟩).andThen hm fun _ => ?_
  split
  · exact throw _
  · exact pure _
  · refine bind pushFree fun placed => ?_
    split
    · exact say
    · exact pure _

theorem closeNow {slot : Option Nat} {fd : Int} : Makes part p (Run.closeNow slot fd : Run α Unit) := by
  unfold Run.closeNow
  split
  · exact bind (remark rfl) fun _ => modifyKernel _
  · exact pure _

theorem closeSlot : Makes part p (Run.closeSlot i : Run α Unit) := by
  refine bind (stepSlot Slot.alike_finishDisconnect) fun answer => ?_
  cases answer with
  | error e => exact pure _
  | ok fd => exact bind closeNow fun _ => bind bump fun _ => release

theorem wake {cell : CellName} {waker : Option Waker} : Makes part p (Run.wake cell waker : Run α Unit) := by
  cases waker with
  | none => exact pure _
  | some w => exact remark rfl

theorem completeCell (half : Half) (outcome : Outcome) :
    Makes part p (Run.completeCell ⟨i, half⟩ (Slot.completeHalf half outcome) : Run α Unit) := by
  refine look (pure _) fun m s hm hs => (ofExcept (p := p) _ m hm).bind fun done m' hrun => ?_
  cases hdone : s.completeHalf half outcome with
  | error fault =>
    rw [hdone] at hrun
    cases hrun
  | ok done' =>
    rw [hdone] at hrun
    cases hrun
    exact (setSlot hs (Slot.alike_completeHalf hdone)).andThen hm fun _ => wake

theorem failHalf (half : Half) : Makes part p (Run.failHalf half i : Run α Unit) := by
  refine bind (stepSlot (Slot.alike_abortHalf half)) fun answer => ?_
  cases answer with
  | error e => exact pure _
  | ok _ => exact bind closeSlot fun _ => completeCell _ _

theorem failCommand (c : Command) : Makes part p (Run.failCommand c : Run α Unit) := by
  cases c with
  | accept i =>
    refine bind say fun _ => bind (stepSlot fun s => Slot.alike_advance .rfl _ _) fun answer => ?_
    cases answer with
    | error e => exact pure _
    | ok _ => exact closeSlot
  | receive i => exact bind say fun _ => failHalf .receive
  | send i => exact bind say fun _ => failHalf .send
  | disconnect i => exact bind say fun _ => closeSlot

/-- A command is taken out by the loop, or after the loop has come to its end. -/
theorem popCommand (hp : ∀ exited, p exited → part ≠ .all → exited = true) :
    Makes part p (Run.popCommand : Run α (Option Command)) := by
  have hended : ∀ w : Worker, ∀ inbox, p w.exited → part ≠ .all → w.exited = false → w.Bides { w with inbox } :=
    fun w _ hw hpart hlive => absurd ((hp _ hw hpart).symm.trans hlive) (by decide)
  refine bind worker fun w => ?_
  cases w.inbox with
  | nil => exact pure _
  | cons c inbox =>
    exact bind (modifyWorker (fun _ => rfl) (fun _ => rfl) (fun _ => rfl) fun w => hended w inbox) fun _ => pure _

theorem failUpTo (n : Nat) : Makes part (· = true) (Run.failUpTo n : Run α Unit) := by
  induction n with
  | zero => exact pure _
  | succ n ih =>
    refine bind (popCommand fun _ hended _ => hended) fun c => ?_
    cases c with
    | none => exact pure _
    | some c => exact bind (failCommand c) fun _ => ih

theorem failOrphans : Makes part (· = true) (Run.failOrphans : Run α Unit) := bind worker fun _ => failUpTo _

theorem ring : Makes .all p (Run.ring : Run α (Except Error Unit)) :=
  bind (fun _ _ => .of_run rfl (.single (.rung rfl))) fun _ => kernel _

theorem settle : Makes part p (Run.settle : Run α Unit) := by
  intro m _
  show MakesAt part (if m.worker.exited = true then Run.failOrphans else Pure.pure () : Run α Unit) m
  split
  · rename_i hexited
    exact failOrphans m hexited
  · exact .pure _

/-- A command that finds a place is handed over with a ring. -/
theorem submit (c : Command) : Makes part p (Run.submit c : Run α Unit) := by
  intro m hm
  cases hfull : m.worker.inboxFull with
  | true =>
    refine .goesOn (Run.submit_full hfull) .refl ?_
    split
    · exact failCommand c m hm
    · exact throw _ m hm
  | false =>
    -- the command is in its place and the counter was rung before anything else is done
    refine .goesOn (Run.submit_placed c hfull) (.single (.handOver hfull)) ?_
    cases (m.kernel.ask .notify).1 with
    | error e => exact bind (p := p) say (fun _ => settle) _ hm
    | ok _ => exact settle (p := p) _ hm

theorem startAccept (fd : Int) (peer : Option Net.SocketAddress) :
    Makes part p (Run.startAccept i fd peer : Run α (Except Error Unit)) := by
  have hback : ∀ {p : Bool → Prop} (e : Error), Makes part p (do
      discard (Run.pushFree i)
      return .error e : Run α (Except Error Unit)) :=
    fun e => bind (bind pushFree fun _ => pure _) fun _ => pure _
  refine bind slot? fun here => ?_
  split
  · exact pure _
  refine step (hback _) fun m s hm hs answer s' hstep => ?_
  by_cases hstate : s.state = .disconnected
  · cases (Slot.startAccept_ok hstate fd peer).symm.trans hstep
    exact .goesOn (y := do
      Run.submit (.accept i)
      return .ok ()) rfl (.single (.bind hs)) (bind (submit _) (fun _ => pure _) _ hm)
  · cases (Slot.startAccept_error hstate fd peer).symm.trans hstep
    exact .goesOn (y := do
      discard (Run.pushFree i)
      return .error s.wrongState) rfl (.single (.slot hs .rfl)) (hback _ { m with worker := m.worker.setSlot i s } hm)

theorem assign (fd : Int) (peer : Option Net.SocketAddress) :
    Makes part p (Run.assign fd peer : Run α (Except Error Nat)) := by
  refine bind acquire fun taken => ?_
  cases taken with
  | none => exact bind bump fun _ => bind closeNow fun _ => pure _
  | some i =>
    refine bind (startAccept fd peer) fun answer => ?_
    cases answer with
    | error e => exact bind closeNow fun _ => bind bump fun _ => pure _
    | ok _ => exact pure _

theorem requestStop : Makes .all p (Run.requestStop : Run α Unit) := by
  have hstop : Makes .all p (Run.modifyWorker fun w => { w with stopping := true } : Run α Unit) :=
    modifyWorker (fun _ => rfl) (fun _ => rfl) (fun _ => rfl) fun _ _ hpart => absurd rfl hpart
  refine bind hstop fun _ => bind ring fun answer => ?_
  cases answer with
  | error e => exact say
  | ok _ => exact pure _

/-! ## Calls of handles -/

theorem modifySlot {f : Slot → Slot} (hf : ∀ s : Slot, s.Alike (f s)) :
    Makes part p (Run.modifySlot i f : Run α Unit) := by
  intro m _
  cases hs : m.worker.slots[i]? with
  | none =>
    have hsame : m.worker.slots.modify i f = m.worker.slots := List.modify_eq_self (List.getElem?_eq_none_iff.1 hs)
    refine .of_run rfl (.single (.aside hsame rfl rfl ⟨rfl, rfl, rfl⟩ rfl fun _ _ => ⟨?_, rfl, rfl, rfl, rfl⟩))
    exact congrArg List.length hsame
  | some s =>
    have hset : m.worker.slots.modify i f = m.worker.slots.set i (f s) := by
      rw [List.modify_eq_set, hs]
      rfl
    refine .of_run (b := ()) ?_ (.single (.slot hs (hf s)))
    show EStateM.Result.ok () { m with worker := { m.worker with slots := m.worker.slots.modify i f } } = _
    rw [hset]
    rfl

theorem detach : Makes part p (Run.detach i : Run α Unit) := by
  refine bind slot? fun here => ?_
  split
  · refine bind (modifySlot fun _ => ⟨rfl, rfl, rfl⟩) fun _ =>
      bind (stepSlot fun _ => Slot.alike_advance .rfl _ _) fun answer => ?_
    cases answer with
    | error e => exact release
    | ok _ => exact bind (submit _) fun _ => release
  · exact pure _

theorem attach : Makes part p (Connection.attach i : Run α Unit) :=
  bind (modifySlot fun _ => ⟨rfl, rfl, rfl⟩) fun _ => modifyHeld _

theorem drop : Makes part p (Connection.drop i : Run α Unit) := bind (modifyHeld _) fun _ => detach

theorem receive : Makes part p (Connection.receive i : Run α OperationFuture) := by
  refine step (pure _) fun m s hm hs answer s' hstep => ?_
  rw [Slot.startReceive_eq] at hstep
  by_cases hmem : s.state ∈ Slot.startsFrom .receive
  · cases (if_pos hmem).symm.trans hstep
    exact .goesOn (y := do
      Run.submit (.receive i)
      return .awaiting ⟨i, .receive⟩) rfl (.single (.receive hs)) (bind (submit _) (fun _ => pure _) _ hm)
  · cases (if_neg hmem).symm.trans hstep
    exact .of_run rfl (.single (.slot hs .rfl))

theorem send (length : Nat) : Makes part p (Connection.send i length : Run α (Except Error OperationFuture)) := by
  refine step (pure _) fun m s hm hs answer s' hstep => ?_
  rw [Slot.startSend_eq] at hstep
  split at hstep
  · cases hstep
    exact .of_run rfl (.single (.slot hs .rfl))
  rename_i hlong
  split at hstep
  · cases hstep
    exact .goesOn (y := do
      Run.submit (.send i)
      return .ok (.awaiting ⟨i, .send⟩)) rfl (.single (.send hs (Nat.le_of_not_lt hlong)))
        (bind (submit _) (fun _ => pure _) _ hm)
  · cases hstep
    exact .of_run rfl (.single (.slot hs .rfl))

theorem pollFuture (waker : Waker) (future : OperationFuture) :
    Makes part p (Connection.pollFuture waker future : Run α (Poll Outcome × OperationFuture)) := by
  cases future with
  | refused e => exact pure _
  | awaiting name =>
    refine look (pure _) fun m s hm hs => ?_
    dsimp only
    cases hpoll : (Connection.cell s name.half).poll waker with
    | mk answer c =>
      refine (setSlot hs (s.alike_setCell c name.half)).andThen hm fun _ => ?_
      cases answer with
      | pending => exact bind (remark rfl) fun _ => pure _
      | ready outcome => exact pure _

theorem bytes (seg : Segment) : Makes part p (Connection.bytes seg : Run α (List UInt8)) :=
  bind worker fun _ => ofExcept _

theorem received : Makes part p (Connection.received i : Run α (List UInt8)) := by
  refine bind slot? fun here => ?_
  cases here with
  | none => exact pure _
  | some s => exact bytes _

theorem sendBuffer : Makes part p (Connection.sendBuffer i : Run α (List UInt8)) := by
  refine bind slot? fun here => ?_
  cases here with
  | none => exact pure _
  | some s => exact bytes _

theorem fill (data : Array UInt8) : Makes part p (Connection.fill i data : Run α (Nat × Nat)) := by
  refine bind slot? fun here => ?_
  cases here with
  | none => exact pure _
  | some s =>
    intro m _
    refine (worker (p := fun _ => True) m trivial).bind fun w m₁ hw => ?_
    refine (ofExcept (p := fun _ => True) _ m₁ trivial).bind ?_
    intro ⟨n, pool⟩ m₂ hpool
    cases hw
    cases hwrite : m.worker.pool.write (Connection.sendView s) data with
    | error fault =>
      rw [hwrite] at hpool
      cases hpool
    | ok done =>
      rw [hwrite] at hpool
      cases hpool
      obtain ⟨hregistered, halike⟩ := Pool.alike_write hwrite
      have hbides : part ≠ .all → m.worker.exited = false → m.worker.Bides { m.worker with pool } :=
        fun _ _ => ⟨rfl, rfl, rfl, rfl, rfl⟩
      exact .goesOn (y := Pure.pure _) rfl (.single (.aside rfl rfl hregistered halike rfl hbides)) (.pure _)

theorem deed (d : Deed) : Makes part p (d.run i : Run α Unit) := by
  cases d with
  | receive => exact bind receive fun _ => pure _
  | send length => exact bind (send length) fun _ => pure _
  | poll half waker => exact bind (pollFuture waker _) fun _ => pure _
  | readReceived => exact bind received fun _ => pure _
  | readSend => exact bind sendBuffer fun _ => pure _
  | fill data => exact bind (fill data) fun _ => pure _
  | drop => exact drop

end Makes

end SlotServer
