import SlotServer.Proofs.Addresses
import SlotServer.Proofs.Strides

/-!
# While a handle rests

Between two calls of a connection's handle others are at work: the dispatch loop, acceptors, and the handles of other
connections. They begin no operation of the connection and bind no socket to its slot, and the handle and the bytes of
its halves are left as they were.

- `Lull`, `Lulls`: what is recorded of the slot meanwhile, and what becomes of the completions that are ready for it;
- `Machine.Unharmed`: what the handle finds afterwards;
- `Harmless`: a program does no harm, with a rule for each way to put programs together;
- `Harmless.takeOver`: the application may let a handle go that it was just given, and keeps the one that was there;
- `Move.unharmed`: whatever a worker is made to do, but for the calls of the handle itself.
-/

namespace SlotServer

variable {α β γ : Type} {i j : Nat} {K : Nat → Prop}

/-- The event neither binds a socket nor begins an operation, and no completion is taken out by it. -/
def Event.isCalm : Event → Bool
  | .bound .. | .began _ | .answered _ => false
  | _ => true

/-- What a slot's record and the completions that are ready for it go through at once, while the handle rests. -/
inductive Lull : List Event × List Completion → List Event × List Completion → Prop
  | note {h : List Event} {ready : List Completion} {e : Event} (he : e.isCalm = true) : Lull (h, ready) (e :: h, ready)
  /-- A close is queued, and may be answered at once. -/
  | close {h : List Event} {ready more : List Completion} {op : Op} (hhalf : op.half? = none) :
    Lull (h, ready) (.queued op :: h, ready ++ more)
  | take {h : List Event} {ready : List Completion} {c : Completion} : Lull (h, c :: ready) (.answered c :: h, ready)

/-- A row of such changes. -/
abbrev Lulls : List Event × List Completion → List Event × List Completion → Prop := Relation.ReflTransGen Lull

/-- The byte is one of the slot's halves. -/
def Layout.Own (g : Layout) (i place : Nat) : Prop := ∃ half, (g.half i half).Holds place

namespace Machine

/-- The completions that are ready for a slot, where some were taken out and are not routed yet. -/
def answersFor (m : Machine α) (pending : List Completion) (i : Nat) : List Completion := (m.view pending i).answers

/-- More becomes ready. -/
theorem answersFor_of_ready {m m' : Machine α} {pending more : List Completion}
    (hready : m'.kernel.ready = m.kernel.ready ++ more) :
    m'.answersFor pending i = m.answersFor pending i ++ more.filter (·.ctx.slot = i) := by
  show (pending ++ m'.kernel.ready).filter _ = (pending ++ m.kernel.ready).filter _ ++ _
  rw [hready, ← List.append_assoc, List.filter_append]

/-- What the handle of slot `i` finds after others were at work, where `K` are the bytes that are its own. -/
structure Unharmed (m : Machine α) (i : Nat) (K : Nat → Prop) (pending pending' : List Completion) (m' : Machine α) :
    Prop where
  bytes : ∀ place, K place → m'.worker.pool.bytes place = m.worker.pool.bytes place
  held : i ∈ m.held → i ∈ m'.held
  asked : sendAsked i m'.trace = sendAsked i m.trace
  lulls : Lulls (m.history i, m.answersFor pending i) (m'.history i, m'.answersFor pending' i)

namespace Unharmed

variable {pending pending' pending'' : List Completion} {m m' m'' : Machine α}

theorem trans (h : m.Unharmed i K pending pending' m') (h' : m'.Unharmed i K pending' pending'' m'') :
    m.Unharmed i K pending pending'' m'' where
  bytes place hplace := (h'.bytes place hplace).trans (h.bytes place hplace)
  held hheld := h'.held (h.held hheld)
  asked := h'.asked.trans h.asked
  lulls := h.lulls.trans h'.lulls

/-- Nothing is recorded, and the same completions are ready. -/
theorem of_same (hbytes : ∀ place, K place → m'.worker.pool.bytes place = m.worker.pool.bytes place)
    (hheld : i ∈ m.held → i ∈ m'.held) (htrace : m'.trace = m.trace)
    (hready : m'.answersFor pending' i = m.answersFor pending i) : m.Unharmed i K pending pending' m' where
  bytes := hbytes
  held := hheld
  asked := congrArg (sendAsked i) htrace
  lulls := by
    rw [hready, show m'.history i = m.history i from congrArg (List.filter _) htrace]

theorem refl (m : Machine α) : m.Unharmed i K pending pending m := of_same (fun _ _ => rfl) id rfl rfl

end Unharmed

end Machine

/-- An event that is calm or about another slot leaves the last send as it was. -/
theorem sendAsked_cons {e : Event} {h : List Event} (he : e.concerns i = true → e.isCalm = true) :
    sendAsked i (e :: h) = sendAsked i h := by
  cases e with
  | bound j fd => exact if_neg fun hj => Bool.false_ne_true (he (decide_eq_true hj))
  | began cell =>
    refine if_neg fun hcell => Bool.false_ne_true (he (decide_eq_true ?_))
    rw [hcell]
  | _ => rfl

namespace Pool

variable {p p' : Pool} {place : Nat}

/-- Bytes that are put elsewhere leave a byte as it is. -/
theorem bytes_put {offset : Nat} {data : Array UInt8} (h : ¬ (offset ≤ place ∧ place < offset + data.size)) :
    (p.put offset data).bytes place = p.bytes place := by
  show (if offset ≤ place then data[place - offset]?.getD (p.bytes place) else p.bytes place) = _
  split
  · rw [Array.getElem?_eq_none (by omega)]
    rfl
  · rfl

/-- A segment that is written to is all that changes. -/
theorem bytes_write {seg : Segment} {data : Array UInt8} {n : Nat} (h : p.write seg data = .ok (n, p'))
    (hplace : ¬ seg.Holds place) : p'.bytes place = p.bytes place := by
  unfold write at h
  cases hoffset : p.place seg with
  | error fault =>
    rw [hoffset] at h
    cases h
  | ok offset =>
    obtain rfl := offset_of_place hoffset
    rw [hoffset] at h
    cases h
    refine bytes_put fun ⟨hle, hlt⟩ => hplace ⟨hle, ?_⟩
    have hsize : (data.take seg.length).size = min seg.length data.size := by simp
    omega

end Pool

/-- Queueing an operation that is no close readies nothing. -/
theorem Kernel.ready_push {op : Op} (k : Kernel) (hhalf : op.half? ≠ none) : (k.push op).2.ready = k.ready := by
  unfold push ask
  dsimp only
  cases k.schedule .push (k.asked .push) with
  | some e => rfl
  | none =>
    dsimp only
    cases k.schedule (callOf op) _ with
    | some e => rfl
    | none =>
      cases op with
      | receive | send => rfl
      | close => exact absurd rfl hhalf

/-- The program does no harm to a handle that rests. -/
def Harmless (i : Nat) (K : Nat → Prop) (x : Run α β) : Prop :=
  ∀ (pending : List Completion) (m : Machine α) (b : β) (m' : Machine α), x m = .ok b m' →
    m.Unharmed i K pending pending m'

namespace Harmless

/-! ## Programs put together -/

/-- A program that is known by what it does. -/
theorem of_run {x : Run α β} {f : Machine α → β} {g : Machine α → Machine α} (hrun : ∀ m, x m = .ok (f m) (g m))
    (h : ∀ pending (m : Machine α), m.Unharmed i K pending pending (g m)) : Harmless i K x := by
  intro pending m b m' hrun'
  cases (hrun m).symm.trans hrun'
  exact h pending m

theorem pure (b : β) : Harmless i K (Pure.pure b : Run α β) := of_run (fun _ => rfl) fun _ m => .refl m

theorem throw (fault : Fault) : Harmless i K (MonadExcept.throw fault : Run α β) := fun _ _ _ _ hrun => by cases hrun

theorem bind {x : Run α β} {k : β → Run α γ} (hx : Harmless i K x) (hk : ∀ b, Harmless i K (k b)) :
    Harmless i K (x >>= k) := by
  intro pending m c m'' hrun
  obtain ⟨b, m', hm, hrest⟩ := Run.of_bind hrun
  exact (hx pending m b m' hm).trans (hk b pending m' c m'' hrest)

theorem get : Harmless i K (MonadState.get : Run α (Machine α)) := of_run (fun _ => rfl) fun _ m => .refl m

theorem worker : Harmless i K (Run.worker : Run α Worker) := of_run (fun _ => rfl) fun _ m => .refl m

theorem slot? : Harmless i K (Run.slot? j : Run α (Option Slot)) := of_run (fun _ => rfl) fun _ m => .refl m

theorem ofExcept (y : Except Fault β) : Harmless i K (Run.ofExcept y : Run α β) := by
  cases y with
  | ok b => exact pure b
  | error fault => exact throw fault

/-- A program that looks at a slot. -/
theorem look {f : Option Slot → Run α β} (hf : ∀ here, Harmless i K (f here)) : Harmless i K (Run.slot? j >>= f) :=
  bind slot? hf

theorem forM {l : List γ} {f : γ → Run α PUnit} (hf : ∀ c, Harmless i K (f c)) : Harmless i K (l.forM f) := by
  induction l with
  | nil => exact pure _
  | cons c l ih => exact bind (hf c) fun _ => ih

/-! ## Single changes -/

theorem record {e : Event} (he : e.concerns i = true → e.isCalm = true) :
    Harmless i K (Run.record e : Run α Unit) := by
  refine of_run (fun _ => rfl) fun pending m => ⟨fun _ _ => rfl, id, sendAsked_cons he, ?_⟩
  by_cases hi : e.concerns i = true
  · have hhistory : ({ m with trace := e :: m.trace } : Machine α).history i = e :: m.history i :=
      List.filter_cons_of_pos hi
    rw [hhistory]
    exact .single (.note (he hi))
  · have hhistory : ({ m with trace := e :: m.trace } : Machine α).history i = m.history i :=
      List.filter_cons_of_neg hi
    rw [hhistory]
    exact .refl

theorem calm {e : Event} (he : e.isCalm = true) : Harmless i K (Run.record e : Run α Unit) := record fun _ => he

theorem say {level : LogLevel} {message : String} : Harmless i K (Run.say level message : Run α Unit) :=
  bind worker fun _ => calm rfl

theorem modifyWorker {f : Worker → Worker}
    (hbytes : ∀ w place, K place → (f w).pool.bytes place = w.pool.bytes place) :
    Harmless i K (Run.modifyWorker f : Run α Unit) :=
  of_run (fun _ => rfl) fun _ _ => .of_same (hbytes _) id rfl rfl

theorem bump {counter : Counter} {n : UInt64} : Harmless i K (Run.bump counter n : Run α Unit) :=
  modifyWorker fun _ _ _ => rfl

theorem setSlot (s : Slot) : Harmless i K (Run.modifyWorker (·.setSlot j s) : Run α Unit) :=
  modifyWorker fun _ _ _ => rfl

theorem modifySlot (f : Slot → Slot) : Harmless i K (Run.modifySlot j f : Run α Unit) := modifyWorker fun _ _ _ => rfl

theorem stepSlot (f : Slot.Step β) : Harmless i K (Run.stepSlot j f : Run α (Except Error β)) := by
  refine look fun here => ?_
  cases here with
  | none => exact pure _
  | some s => exact bind (setSlot _) fun _ => pure _

/-- A call of the kernel that neither readies nor takes out anything. -/
theorem kernel {f : Kernel → β × Kernel} (hf : ∀ k, (f k).2.ready = k.ready) :
    Harmless i K (Run.kernel f : Run α β) :=
  of_run (fun _ => rfl) fun _ m => .of_same (fun _ _ => rfl) id rfl (by
    unfold Machine.answersFor
    rw [Machine.view_kernel _ _ _ _ (hf m.kernel)])

theorem ask (call : Call) : Harmless i K (Run.kernel (·.ask call) : Run α (Except Error Unit)) := kernel fun _ => rfl

theorem modifyKernel {f : Kernel → Kernel} (hf : ∀ k, (f k).ready = k.ready) :
    Harmless i K (Run.modifyKernel f : Run α Unit) :=
  of_run (fun _ => rfl) fun _ m => .of_same (fun _ _ => rfl) id rfl (by
    unfold Machine.answersFor
    rw [Machine.view_kernel _ _ _ _ (hf m.kernel)])

theorem modifyApp (f : α → α) : Harmless i K (Run.modifyApp f : Run α Unit) :=
  of_run (fun _ => rfl) fun _ _ => .of_same (fun _ _ => rfl) id rfl rfl

/-- An operation is queued. A close that is answered at once is queued before that. -/
theorem queue (op : Op) : Harmless i K (Run.queue op : Run α (Except Error Unit)) := by
  refine of_run (Run.queue_run op) fun pending m => ?_
  have hcalm : (Event.ofPush op (m.kernel.push op).1).isCalm = true := by cases (m.kernel.push op).1 <;> rfl
  refine ⟨fun _ _ => rfl, id, sendAsked_cons fun _ => hcalm, ?_⟩
  have hhistory : ∀ kernel,
      ({ m with kernel, trace := .ofPush op (m.kernel.push op).1 :: m.trace } : Machine α).history i =
        if op.ctx.slot = i then .ofPush op (m.kernel.push op).1 :: m.history i else m.history i := by
    intro k
    rw [Machine.history, List.filter_cons]
    cases (m.kernel.push op).1 <;> simp [Event.ofPush, Event.concerns, Machine.history]
  have hanswers : ∀ more, (m.kernel.push op).2.ready = m.kernel.ready ++ more →
      ({ m with
        kernel := (m.kernel.push op).2
        trace := .ofPush op (m.kernel.push op).1 :: m.trace } : Machine α).answersFor pending i =
        m.answersFor pending i ++ more.filter (·.ctx.slot = i) := fun _ hmore =>
    Machine.answersFor_of_ready hmore
  rw [hhistory]
  rcases m.kernel.push_ready op with hsame | ⟨hok, hmore⟩
  · rw [hanswers [] (hsame.trans (List.append_nil _).symm), List.filter_nil, List.append_nil]
    split
    · exact .single (.note hcalm)
    · exact .refl
  · have hhalf : op.half? = none := by
      by_contra hhalf
      rw [m.kernel.ready_push hhalf] at hmore
      exact List.cons_ne_nil _ _ (List.self_eq_append_right.1 hmore)
    rw [hanswers _ hmore, hok]
    split
    · exact .single (.close hhalf)
    · rename_i hother
      rw [List.filter_cons_of_neg (by simpa using hother), List.filter_nil, List.append_nil]

/-! ## Calls of acceptors -/

theorem pushFree : Harmless i K (Run.pushFree j : Run α Bool) := by
  refine bind worker fun w => ?_
  split
  · exact pure _
  · exact bind (modifyWorker fun _ _ _ => rfl) fun _ => pure _

theorem release : Harmless i K (Run.release j : Run α Unit) := by
  refine look fun here => ?_
  cases here with
  | none => exact pure _
  | some s =>
    refine bind (setSlot _) fun _ => ?_
    split
    · exact throw _
    · exact pure _
    · refine bind pushFree fun placed => ?_
      split
      · exact say
      · exact pure _

theorem closeNow {slot : Option Nat} {fd : Int} : Harmless i K (Run.closeNow slot fd : Run α Unit) := by
  unfold Run.closeNow
  split
  · exact bind (calm rfl) fun _ => modifyKernel fun _ => rfl
  · exact pure _

theorem closeSlot : Harmless i K (Run.closeSlot j : Run α Unit) := by
  refine bind (stepSlot _) fun answer => ?_
  cases answer with
  | error e => exact pure _
  | ok fd => exact bind closeNow fun _ => bind bump fun _ => release

theorem wake {cell : CellName} {waker : Option Waker} : Harmless i K (Run.wake cell waker : Run α Unit) := by
  cases waker with
  | none => exact pure _
  | some w => exact calm rfl

theorem completeCell (cell : CellName) (complete : Slot → Except Fault (Option Waker × Slot)) :
    Harmless i K (Run.completeCell cell complete : Run α Unit) := by
  refine look fun here => ?_
  cases here with
  | none => exact pure _
  | some s => exact bind (ofExcept _) fun done => bind (setSlot _) fun _ => wake

theorem failHalf (half : Half) : Harmless i K (Run.failHalf half j : Run α Unit) := by
  refine bind (stepSlot _) fun answer => ?_
  cases answer with
  | error e => exact pure _
  | ok _ => exact bind closeSlot fun _ => completeCell _ _

theorem failCommand (c : Command) : Harmless i K (Run.failCommand c : Run α Unit) := by
  cases c with
  | accept j =>
    refine bind say fun _ => bind (stepSlot _) fun answer => ?_
    cases answer with
    | error e => exact pure _
    | ok _ => exact closeSlot
  | receive j => exact bind say fun _ => failHalf .receive
  | send j => exact bind say fun _ => failHalf .send
  | disconnect j => exact bind say fun _ => closeSlot

theorem popCommand : Harmless i K (Run.popCommand : Run α (Option Command)) := by
  refine bind worker fun w => ?_
  cases w.inbox with
  | nil => exact pure _
  | cons c inbox => exact bind (modifyWorker fun _ _ _ => rfl) fun _ => pure _

theorem failUpTo (n : Nat) : Harmless i K (Run.failUpTo n : Run α Unit) := by
  induction n with
  | zero => exact pure _
  | succ n ih =>
    refine bind popCommand fun c => ?_
    cases c with
    | none => exact pure _
    | some c => exact bind (failCommand c) fun _ => ih

theorem failOrphans : Harmless i K (Run.failOrphans : Run α Unit) := bind worker fun _ => failUpTo _

theorem enqueue (c : Command) : Harmless i K (Run.enqueue c : Run α Bool) := by
  refine bind worker fun w => ?_
  split
  · exact pure _
  · exact bind (modifyWorker fun _ _ _ => rfl) fun _ => pure _

theorem ring : Harmless i K (Run.ring : Run α (Except Error Unit)) := bind (calm rfl) fun _ => ask _

theorem submit (c : Command) : Harmless i K (Run.submit c : Run α Unit) := by
  have hsettle : Harmless i K (Run.settle : Run α Unit) := by
    refine bind worker fun w => ?_
    split
    · exact failOrphans
    · exact pure _
  refine bind (enqueue c) fun placed => ?_
  cases placed with
  | true =>
    refine bind ring fun answer => ?_
    cases answer with
    | error e => exact bind say fun _ => hsettle
    | ok _ => exact hsettle
  | false =>
    refine bind worker fun w => ?_
    split
    · exact failCommand c
    · exact throw _

/-- A socket is bound to another slot. -/
theorem startAccept (hj : j ≠ i) (fd : Int) (peer : Option Net.SocketAddress) :
    Harmless i K (Run.startAccept j fd peer : Run α (Except Error Unit)) := by
  refine look fun here => ?_
  split
  · exact pure _
  · refine bind (stepSlot _) fun answer => ?_
    cases answer with
    | error e => exact bind (bind pushFree fun _ => pure _) fun _ => pure _
    | ok _ =>
      exact bind (record fun hi => absurd (of_decide_eq_true hi) hj) fun _ => bind (submit _) fun _ => pure _

/-! ## Calls of handles -/

theorem detach : Harmless i K (Run.detach j : Run α Unit) := by
  refine look fun here => ?_
  split
  · refine bind (modifySlot _) fun _ => bind (stepSlot _) fun answer => ?_
    cases answer with
    | error e => exact release
    | ok _ => exact bind (submit _) fun _ => release
  · exact pure _

/-- The handle of another connection goes away. -/
theorem drop (hj : j ≠ i) : Harmless i K (Connection.drop j : Run α Unit) := by
  have hletGo : Harmless i K (modify fun m => { m with held := m.held.erase j } : Run α Unit) :=
    of_run (fun _ => rfl) fun _ _ =>
      .of_same (fun _ _ => rfl) (fun hheld => (List.mem_erase_of_ne hj.symm).2 hheld) rfl rfl
  exact bind hletGo fun _ => detach

theorem receive (hj : j ≠ i) : Harmless i K (Connection.receive j : Run α OperationFuture) := by
  refine bind (stepSlot _) fun answer => ?_
  cases answer with
  | error e => exact pure _
  | ok _ =>
    exact bind (record fun hi => absurd (of_decide_eq_true hi) hj) fun _ => bind (submit _) fun _ => pure _

theorem send (hj : j ≠ i) (length : Nat) :
    Harmless i K (Connection.send j length : Run α (Except Error OperationFuture)) := by
  refine bind (stepSlot _) fun answer => ?_
  cases answer with
  | error e => exact pure _
  | ok _ =>
    refine bind (calm rfl) fun _ => bind (record fun hi => absurd (of_decide_eq_true hi) hj) fun _ => ?_
    exact bind (submit _) fun _ => pure _

/-- A future is asked for its outcome, be it one of the handle that rests or of another. -/
theorem pollFuture (waker : Waker) (future : OperationFuture) :
    Harmless i K (Connection.pollFuture waker future : Run α (Poll Outcome × OperationFuture)) := by
  cases future with
  | refused e => exact pure _
  | awaiting name =>
    refine look fun here => ?_
    cases here with
    | none => exact pure _
    | some s =>
      dsimp only
      refine bind (setSlot _) fun _ => ?_
      split
      · exact bind (calm rfl) fun _ => pure _
      · exact pure _

theorem bytes (seg : Segment) : Harmless i K (Connection.bytes seg : Run α (List UInt8)) :=
  bind worker fun _ => ofExcept _

theorem received : Harmless i K (Connection.received j : Run α (List UInt8)) := by
  refine look fun here => ?_
  cases here with
  | none => exact pure _
  | some s => exact bytes _

theorem sendBuffer : Harmless i K (Connection.sendBuffer j : Run α (List UInt8)) := by
  refine look fun here => ?_
  cases here with
  | none => exact pure _
  | some s => exact bytes _

/-! ## Completions -/

theorem issueClose : Harmless i K (Run.issueClose j : Run α Unit) := by
  refine look fun here => ?_
  cases here with
  | none => exact pure _
  | some s =>
    refine bind (queue _) fun answer => ?_
    cases answer with
    | error e => exact bind say fun _ => closeSlot
    | ok _ => exact pure _

theorem disconnect : Harmless i K (Run.disconnect j : Run α Unit) := by
  refine bind (stepSlot _) fun answer => ?_
  cases answer with
  | error e => exact pure _
  | ok _ => exact issueClose

theorem issueHalf (half : Half) : Harmless i K (Run.issueHalf half j : Run α Unit) := by
  refine look fun here => ?_
  cases here with
  | none => exact pure _
  | some s =>
    refine bind (bind worker fun _ => ofExcept _) fun place => bind (queue _) fun answer => ?_
    cases answer with
    | ok _ => exact pure _
    | error e =>
      refine bind bump fun _ => bind (stepSlot _) fun answer => ?_
      cases answer with
      | error e => exact pure _
      | ok _ => exact bind issueClose fun _ => completeCell _ _

theorem violation {e : Error} : Harmless i K (Run.violation j e : Run α Unit) := bind say fun _ => bump

theorem errnoOf (result : Int32) : Harmless i K (Run.errnoOf result : Run α Int32) := by
  unfold Run.errnoOf
  split
  · exact throw _
  · exact pure _

/-- A half whose operation has ended well is left, or its connection is closed where no handle is attached. -/
theorem delivered (half : Half) (outcome : Outcome) : Harmless i K (do
    if !((← Run.slot? j).any (·.attached)) then Run.disconnect j
    Run.completeCell ⟨j, half⟩ (Slot.completeHalf half outcome) : Run α Unit) := by
  refine look fun here => ?_
  split
  · exact bind disconnect fun _ => completeCell _ _
  · exact completeCell _ _

theorem onReceive (result : Int32) : Harmless i K (Run.onReceive j result : Run α Unit) := by
  unfold Run.onReceive
  split
  · refine bind (stepSlot _) fun answer => ?_
    cases answer with
    | error e => exact violation
    | ok _ =>
      have hrest : ∀ outcome, Harmless i K (do
          Run.issueClose j
          Run.completeReceive j outcome : Run α Unit) := fun outcome => bind issueClose fun _ => completeCell _ _
      dsimp only
      split
      · exact bind (errnoOf result) fun _ => bind say fun _ => bind bump fun _ => bind (pure _) hrest
      · exact bind bump fun _ => bind (pure _) hrest
  · refine bind (stepSlot _) fun answer => ?_
    cases answer with
    | error e => exact violation
    | ok _ => exact bind bump fun _ => bind bump fun _ => delivered .receive _

theorem onSend (result : Int32) : Harmless i K (Run.onSend j result : Run α Unit) := by
  unfold Run.onSend
  split
  · refine bind (stepSlot _) fun answer => ?_
    cases answer with
    | error e => exact violation
    | ok _ =>
      refine bind (errnoOf result) fun _ => bind say fun _ => bind bump fun _ => ?_
      exact bind issueClose fun _ => completeCell _ _
  · refine bind (stepSlot _) fun answer => ?_
    cases answer with
    | error e => exact violation
    | ok _ => exact bind bump fun _ => bind bump fun _ => delivered .send _

theorem onClose (result : Int32) : Harmless i K (Run.onClose j result : Run α Unit) := by
  have hsettle : Harmless i K (Run.settleClose j : Run α Unit) := by
    refine bind (stepSlot _) fun answer => ?_
    cases answer with
    | error e => exact violation
    | ok _ => exact bind bump fun _ => bind say fun _ => release
  rw [Run.onClose_eq]
  split
  · exact bind (errnoOf result) fun _ => bind say fun _ => hsettle
  · exact hsettle

theorem conclude (c : Completion) : Harmless i K (Run.conclude c : Run α Unit) := by
  refine look fun here => ?_
  cases here with
  | none => exact bind say fun _ => bump
  | some s =>
    dsimp only
    split
    · exact onReceive _
    · exact onSend _
    · exact onClose _
    · exact bind say fun _ => bump

section Completions

variable {pending : List Completion} {m m' : Machine α}

/-- A completion that was taken out is taken to its slot. -/
theorem route {c : Completion} {b : Unit} (hrun : Run.route c m = .ok b m') :
    m.Unharmed i K (c :: pending) pending m' := by
  rw [Run.route_eq] at hrun
  obtain ⟨⟨⟩, m₁, hrecord, hrest⟩ := Run.of_bind hrun
  cases hrecord
  refine .trans ?_ (conclude c pending _ b m' hrest)
  have hview := congrArg View.answers (m.view_cons c pending i)
  by_cases hi : c.ctx.slot = i
  · have hhistory : ({ m with trace := .answered c :: m.trace } : Machine α).history i = .answered c :: m.history i :=
      List.filter_cons_of_pos (decide_eq_true hi)
    rw [if_pos hi] at hview
    refine ⟨fun _ _ => rfl, id, rfl, ?_⟩
    rw [hhistory, Machine.answersFor, hview]
    exact .single .take
  · have hhistory : ({ m with trace := .answered c :: m.trace } : Machine α).history i = m.history i :=
      List.filter_cons_of_neg (by simpa [Event.concerns] using hi)
    rw [if_neg hi] at hview
    refine ⟨fun _ _ => rfl, id, rfl, ?_⟩
    rw [hhistory, Machine.answersFor, hview]
    exact .refl

/-- The completions of a batch are taken to their slots. -/
theorem routeAll {cs : List Completion} {b : PUnit} (hrun : cs.forM Run.route m = .ok b m') :
    m.Unharmed i K cs [] m' := by
  induction cs generalizing m with
  | nil =>
    cases hrun
    exact .refl _
  | cons c cs ih =>
    obtain ⟨⟨⟩, m₁, hroute, hrest⟩ := Run.of_bind hrun
    exact (route hroute).trans (ih hrest)

theorem harvestUpTo {n count : Nat} (hrun : Run.harvestUpTo n m = .ok count m') : m.Unharmed i K [] [] m' := by
  induction n generalizing m count m' with
  | zero =>
    cases hrun
    exact .refl _
  | succ n ih =>
    obtain ⟨w, m₁, hworker, hrest⟩ := Run.of_bind hrun
    cases hworker
    obtain ⟨⟨⟩, m₂, hpolled, hrest⟩ := Run.of_bind hrest
    have hbefore : m.Unharmed i K [] [] m₂ := calm rfl [] m () m₂ hpolled
    obtain ⟨batch, m₃, htaken, hrest⟩ := Run.of_bind hrest
    have hharvested : m₂.Unharmed i K [] batch m₃ := by
      cases htaken
      exact .of_same (fun _ _ => rfl) id rfl (congrArg View.answers (m₂.view_harvest m.worker.batch i))
    obtain ⟨⟨⟩, m₄, hrouted, hrest⟩ := Run.of_bind hrest
    have hall : m.Unharmed i K [] [] m₄ := (hbefore.trans hharvested).trans (routeAll hrouted)
    split at hrest
    · obtain ⟨others, m₅, hmore, hcount⟩ := Run.of_bind hrest
      cases hcount
      exact hall.trans (ih hmore)
    · cases hrest
      exact hall

end Completions

/-! ## The rest of a turn -/

theorem abandon : Harmless i K (Run.abandon j : Run α Unit) := by
  refine bind (stepSlot _) fun answer => ?_
  cases answer with
  | error e => exact pure _
  | ok _ => exact issueClose

theorem setNoDelay (fd : Int) : Harmless i K (Run.setNoDelay j fd : Run α (Except Error Unit)) := by
  refine bind (calm rfl) fun _ => bind get fun m => ?_
  split
  · exact pure _
  · exact pure _

theorem outstanding : Harmless i K (Run.outstanding : Run α Nat) := bind get fun _ => pure _

theorem drainSlot : Harmless i K (Run.drainSlot j : Run α Unit) := by
  refine look fun here => ?_
  cases here with
  | none => exact pure _
  | some s =>
    dsimp only
    split
    · exact disconnect
    · exact disconnect
    · exact disconnect
    · exact bind (calm rfl) fun _ => modifyKernel fun _ => rfl
    · exact bind (calm rfl) fun _ => modifyKernel fun _ => rfl
    · exact pure _

theorem drainSlots : Harmless i K (Run.drainSlots : Run α Unit) :=
  bind outstanding fun _ => bind say fun _ => bind worker fun _ => forM fun _ => drainSlot

theorem openTurn : Harmless i K (Run.openTurn : Run α Unit) := by
  refine bind worker fun w => ?_
  split
  · exact bind get fun _ => bind (ofExcept _) fun _ => bind (modifyWorker fun _ _ _ => rfl) fun _ => drainSlots
  · exact pure _

theorem drained : Harmless i K (Run.drained : Run α Bool) := by
  refine bind worker fun w => ?_
  split
  · exact pure _
  · refine bind outstanding fun count => bind worker fun w => ?_
    split
    · exact pure _
    · refine bind get fun m => ?_
      split
      · exact bind say fun _ => pure _
      · exact pure _

theorem arm : Harmless i K (Run.arm : Run α Unit) := by
  have harm : Harmless i K (Run.kernel Kernel.arm : Run α (Except Error Unit)) := by
    refine kernel fun k => ?_
    unfold Kernel.arm Kernel.ask
    dsimp only
    cases k.schedule .arm (k.asked .arm) <;> rfl
  refine bind harm fun answer => ?_
  cases answer with
  | error e => exact say
  | ok _ => exact pure _

theorem submitQueue (block : Bool) : Harmless i K (Run.submitQueue block : Run α Unit) := by
  refine bind worker fun w => bind get fun m => bind (calm rfl) fun _ => bind (ask _) fun answer => ?_
  cases answer with
  | error e => exact say
  | ok _ => exact pure _

theorem rest : Harmless i K (Run.rest : Run α Unit) := modifyKernel fun _ => rfl

theorem requestStop : Harmless i K (Run.requestStop : Run α Unit) := by
  refine bind (modifyWorker fun _ _ _ => rfl) fun _ => bind ring fun answer => ?_
  cases answer with
  | error e => exact say
  | ok _ => exact pure _

/-! ## The end of the loop -/

theorem deregister : Harmless i K (Run.deregister : Run α (Except Error Unit)) := by
  refine bind worker fun w => ?_
  split
  · exact pure _
  · exact bind (modifyWorker fun _ _ _ => rfl) fun _ => bind (calm rfl) fun _ => ask _

theorem settleForce (s : Slot) : Harmless i K (Run.settleForce j s : Run α Bool) := by
  unfold Run.settleForce
  split
  · exact bind closeNow fun _ => bind bump fun _ => bind release fun _ => pure _
  · exact bind bump fun _ => bind release fun _ => pure _

theorem forceSlot : Harmless i K (Run.forceSlot j : Run α Bool) := by
  refine look fun here => ?_
  cases here with
  | none => exact pure _
  | some s =>
    dsimp only
    by_cases hfree : s.state = .disconnected
    · rw [Slot.force_free hfree]
      exact bind (setSlot _) fun _ => pure _
    · rw [Slot.force_live hfree]
      refine bind (setSlot _) fun _ => ?_
      dsimp only
      split
      · exact bind (completeCell _ _) fun _ => settleForce s
      · exact bind (completeCell _ _) fun _ => settleForce s
      · exact settleForce s

theorem forceAll (l : List Nat) : Harmless i K (Run.forceAll l : Run α Nat) := by
  induction l with
  | nil => exact pure _
  | cons j l ih => exact bind forceSlot fun _ => bind ih fun _ => pure _

theorem finish : Harmless i K (Run.finish : Run α Unit) := by
  have hforce : Harmless i K (do
      Run.record .released
      let forced ← Run.forceAll (List.range (← Run.worker).slots.length)
      let counted := (← Run.worker).counters.text
      Run.say .info s!"stopped ({forced} connections force-closed) {counted}" : Run α Unit) :=
    bind (calm rfl) fun _ => bind worker fun _ => bind (forceAll _) fun _ => bind worker fun _ => say
  refine bind (modifyWorker fun _ _ _ => rfl) fun _ => bind failOrphans fun _ => bind deregister fun answer => ?_
  cases answer with
  | ok _ => exact hforce
  | error e => exact bind say fun _ => hforce

/-! ## Connections that are given to the application -/

theorem spawn (hj : j ≠ i) (service : Service) :
    Harmless i K (Application.spawn service j : Application.Act (Except Error Unit)) := by
  refine bind (ask _) fun answer => ?_
  cases answer with
  | ok _ => exact bind (calm rfl) fun _ => bind (modifyApp _) fun _ => pure _
  | error e =>
    dsimp only
    split
    · exact bind (drop hj) fun _ => pure _
    · exact pure _

section Serving

variable {pending : List Completion} {m m' : Machine Application} {l : List Nat} {answer : Except Error Unit}

/-- A task is started for the slot whose handle rests, or one of its handles is let go. The others are still there. -/
theorem spawn_self {service : Service} (hheld : m.held = i :: l)
    (hrun : Application.spawn service i m = .ok answer m') :
    ({ m with held := l } : Machine Application).Unharmed i K pending pending m' := by
  have hmem : i ∈ m.held := hheld ▸ List.mem_cons_self ..
  -- the handle that is on top is not the one that counts
  have hkept : m.Unharmed i K pending pending m' →
      ({ m with held := l } : Machine Application).Unharmed i K pending pending m' :=
    fun h => { h with held := fun _ => h.held hmem }
  obtain ⟨asked, m₁, hask, hrest⟩ := Run.of_bind hrun
  have hasked : m.Unharmed i K pending pending m₁ := ask _ _ _ _ _ hask
  have hsame : m₁.held = m.held := by
    cases hask
    rfl
  cases asked with
  | ok _ => exact hkept (hasked.trans (bind (calm rfl) (fun _ => bind (modifyApp _) fun _ => pure _) _ _ _ _ hrest))
  | error e =>
    dsimp only at hrest
    split at hrest
    · obtain ⟨⟨⟩, m₂, hdrop, hanswer⟩ := Run.of_bind hrest
      cases hanswer
      obtain ⟨⟨⟩, m₃, hletGo, hdetach⟩ := Run.of_bind hdrop
      refine .trans ?_ (detach _ _ _ _ hdetach)
      cases hletGo
      refine { hasked with held := fun hrests => ?_ }
      show i ∈ m₁.held.erase i
      rwa [hsame, hheld, List.erase_cons_head]
    · cases hrest
      exact hkept hasked

theorem serve_self (hheld : m.held = i :: l) (hrun : Application.serve i m = .ok answer m') :
    ({ m with held := l } : Machine Application).Unharmed i K pending pending m' := by
  rw [Application.serve_eq] at hrun
  obtain ⟨m₀, m₁, hget, hrest⟩ := Run.of_bind hrun
  cases hget
  dsimp only at hrest
  split at hrest
  · obtain ⟨⟨⟩, m₂, hkeep, hrest⟩ := Run.of_bind hrest
    have hheld' : m₂.held = i :: l := by
      cases hkeep
      exact hheld
    have hkept : ({ m with held := l } : Machine Application).Unharmed i K pending pending { m₂ with held := l } := by
      cases hkeep
      exact .of_same (fun _ _ => rfl) id rfl rfl
    exact hkept.trans (spawn_self hheld' hrest)
  · exact spawn_self hheld hrest

end Serving

theorem serve (hj : j ≠ i) : Harmless i K (Application.serve j) := by
  rw [Application.serve_eq]
  refine bind get fun m => ?_
  dsimp only
  split
  · exact bind (modifyApp _) fun _ => spawn hj _
  · exact spawn hj _

/-- What the application is given, it may let go. A handle of the slot that was there before is there afterwards. -/
theorem takeOver (peer : Option Net.SocketAddress) : Harmless i K (Run.takeOver Application.serve j peer) := by
  refine bind (stepSlot _) fun answer => ?_
  cases answer with
  | error e => exact violation
  | ok _ =>
    refine bind bump fun _ => bind say fun _ => ?_
    by_cases hj : j = i
    · subst hj
      intro pending m b m' hrun
      obtain ⟨⟨⟩, m₁, hattach, hrest⟩ := Run.of_bind hrun
      obtain ⟨⟨⟩, m₂, hrecord, hrest⟩ := Run.of_bind hrest
      obtain ⟨answer, m₃, hserve, hrest⟩ := Run.of_bind hrest
      have hheld : m₂.held = j :: m.held := by
        cases hattach
        cases hrecord
        rfl
      have hbefore : m.Unharmed j K pending pending { m₂ with held := m.held } := by
        have hboth : Harmless j K (do
            Run.modifySlot j Slot.attach
            Run.record (.served j) : Application.Act Unit) := bind (modifySlot _) fun _ => calm rfl
        cases hattach
        cases hrecord
        exact hboth pending m () _ rfl
      refine (hbefore.trans (serve_self hheld hserve)).trans ?_
      cases answer with
      | error e =>
        have hwarned : Harmless j K (do
            Run.say .warn s!"handler spawn failed for slot {j}: {e.message}"
            Run.bump .errors 1 : Application.Act Unit) := bind say fun _ => bump
        exact hwarned pending m₃ b m' hrest
      | ok _ =>
        cases hrest
        exact .refl _
    · have hattach : Harmless i K (Connection.attach j : Application.Act Unit) :=
        bind (modifySlot _) fun _ => of_run (fun _ => rfl) fun _ _ =>
          .of_same (fun _ _ => rfl) (fun hheld => List.mem_cons_of_mem _ hheld) rfl rfl
      refine bind hattach fun _ => bind (calm rfl) fun _ => bind (serve hj) fun answer => ?_
      cases answer with
      | error e => exact bind say fun _ => bump
      | ok _ => exact pure _

theorem onAccept : Harmless i K (Run.onAccept Application.serve j) := by
  refine look fun here => ?_
  cases here with
  | none => exact pure _
  | some s =>
    refine bind worker fun w => ?_
    dsimp only
    split
    · exact bind abandon fun _ => pure _
    · split
      · refine bind (setNoDelay _) fun answer => ?_
        cases answer with
        | error e => exact bind say fun _ => bind bump fun _ => bind abandon fun _ => pure _
        | ok _ => exact takeOver _
      · exact takeOver _

theorem execute (c : Command) : Harmless i K (Run.execute Application.serve c) := by
  cases c with
  | accept j => exact onAccept
  | receive j => exact issueHalf .receive
  | send j => exact issueHalf .send
  | disconnect j => exact issueClose

theorem executeUpTo (n : Nat) : Harmless i K (Run.executeUpTo Application.serve n) := by
  induction n with
  | zero => exact pure _
  | succ n ih =>
    refine bind popCommand fun c => ?_
    cases c with
    | none => exact pure _
    | some c => exact bind (execute c) fun _ => bind ih fun _ => pure _

section Turns

variable {m m' : Machine Application}

theorem goOn {block b : Bool} (hrun : Run.goOn Application.serve block m = .ok b m') :
    m.Unharmed i K [] [] m' := by
  obtain ⟨-, completed, m₁, commands, m₂, htaken, hdrained, hrest⟩ := Run.steps_of_goOn hrun
  obtain ⟨⟨⟩, m₃, harm, htaken⟩ := Run.of_bind htaken
  obtain ⟨⟨⟩, m₄, hsubmit, htaken⟩ := Run.of_bind htaken
  obtain ⟨m₅, m₆, hget, htaken⟩ := Run.of_bind htaken
  cases hget
  have hasked : m.Unharmed i K [] [] m₄ := (arm _ _ _ _ harm).trans (submitQueue block _ _ _ _ hsubmit)
  have hdone : m.Unharmed i K [] [] m₂ :=
    (hasked.trans (harvestUpTo htaken)).trans (bind worker (fun _ => executeUpTo _) _ _ _ _ hdrained)
  rcases hrest with rfl | hslept
  · exact hdone
  · exact hdone.trans (rest _ _ _ _ hslept)

theorem turn {block b : Bool} (hrun : Run.turn Application.serve block m = .ok b m') :
    m.Unharmed i K [] [] m' := by
  obtain ⟨m₁, done, m₂, hopen, hdone, hrest⟩ := Run.of_turn hrun
  refine ((openTurn _ _ _ _ hopen).trans (drained _ _ _ _ hdone)).trans ?_
  cases done with
  | true =>
    cases hrest
    exact .refl _
  | false => exact goOn hrest

/-- A socket that is offered is bound to a free slot. -/
theorem assign {fd : Int} {peer : Option Net.SocketAddress} {answer : Except Error Nat}
    (hfree : i ∉ m.worker.free) (hrun : Run.assign fd peer m = .ok answer m') : m.Unharmed i K [] [] m' := by
  have hrefused : ∀ (counter : Counter) (e : Error), Harmless i K (do
      Run.closeNow none fd
      Run.bump counter 1
      return .error e : Application.Act (Except Error Nat)) :=
    fun counter e => bind closeNow fun _ => bind bump fun _ => pure _
  obtain ⟨taken, m₁, hacquire, hrest⟩ := Run.of_bind hrun
  have htaken : Holds (fun _ => False) (Run.acquire : Application.Act (Option Nat)) m fun taken m₁ =>
      m.Unharmed i K [] [] m₁ ∧ taken ≠ some i := by
    refine Holds.acquire ⟨.refl m, nofun⟩ fun j free hj => ⟨.of_same (fun _ _ => rfl) id rfl rfl, ?_⟩
    rintro ⟨⟩
    exact hfree (hj ▸ List.mem_cons_self ..)
  obtain ⟨hbefore, hother⟩ := htaken.of_ok hacquire
  refine hbefore.trans ?_
  cases taken with
  | none => exact bind bump (fun _ => bind closeNow fun _ => pure _) _ _ _ _ hrest
  | some j =>
    refine bind (startAccept (fun hj => hother (congrArg some hj)) fd peer) (fun answer => ?_) _ _ _ _ hrest
    cases answer with
    | error e => exact hrefused _ e
    | ok _ => exact pure _

end Turns

/-- Bytes are put into the send half of another slot. -/
theorem fill {g : Layout} {m m' : Machine α} {data : Array UInt8} {counts : Nat × Nat} (hlaid : m.worker.LaidOut g)
    (hj : j ≠ i) (hrun : Connection.fill j data m = .ok counts m') : m.Unharmed i (g.Own i) [] [] m' := by
  cases hs : m.worker.slots[j]? with
  | none =>
    cases (Run.bind_run (Run.slot?_run_none hs)).symm.trans hrun
    exact .refl _
  | some s =>
    obtain ⟨w, m₁, hworker, hrest⟩ := Run.of_bind ((Run.bind_run (Run.slot?_run hs)).symm.trans hrun)
    cases hworker
    obtain ⟨done, m₂, hwrite, hrest⟩ := Run.of_bind hrest
    cases hwritten : m.worker.pool.write (Connection.sendView s) data with
    | error fault =>
      rw [hwritten] at hwrite
      cases hwrite
    | ok written =>
      rw [hwritten] at hwrite
      cases hwrite
      cases hrest
      refine .of_same (fun place hown => Pool.bytes_write hwritten fun hview => ?_) id rfl rfl
      obtain ⟨half, hplace⟩ := hown
      have hsees : (Connection.view s .send).Holds place := hview
      have hother := (Connection.of_view hsees).2
      rw [hlaid.segment j s .send hs] at hother
      exact hj (Layout.apart hother hplace).1

end Harmless

/-! ## Moves -/

/-- Whatever a worker is made to do, a handle that rests is not harmed by it, as long as its slot is not free. -/
theorem Move.unharmed {g : Layout} {m m' : Machine Application} {move : Move} (hlaid : m.worker.LaidOut g)
    (hfree : i ∉ m.worker.free) (hwhole : move.isWhole = true) (hother : ∀ d, move ≠ .deed i d)
    (hrun : move.run Application.serve m = .ok () m') : m.Unharmed i (g.Own i) [] [] m' := by
  cases move with
  | assign fd peer =>
    obtain ⟨answer, m₁, hassign, hrest⟩ := Run.of_bind hrun
    cases hrest
    exact Harmless.assign hfree hassign
  | deed j d =>
    have hj : j ≠ i := fun hj => hother d (hj ▸ rfl)
    cases d with
    | receive => exact Harmless.bind (Harmless.receive hj) (fun _ => .pure _) _ _ _ _ hrun
    | send length => exact Harmless.bind (Harmless.send hj length) (fun _ => .pure _) _ _ _ _ hrun
    | poll half waker => exact Harmless.bind (Harmless.pollFuture waker _) (fun _ => .pure _) _ _ _ _ hrun
    | readReceived => exact Harmless.bind .received (fun _ => .pure _) _ _ _ _ hrun
    | readSend => exact Harmless.bind .sendBuffer (fun _ => .pure _) _ _ _ _ hrun
    | fill data =>
      obtain ⟨counts, m₁, hfill, hrest⟩ := Run.of_bind hrun
      cases hrest
      exact Harmless.fill hlaid hj hfill
    | drop => exact Harmless.drop hj _ _ _ _ hrun
  | stop => exact Harmless.requestStop _ _ _ _ hrun
  | turn block =>
    obtain ⟨goesOn, m₁, hturn, hrest⟩ := Run.of_bind hrun
    cases hrest
    exact Harmless.turn hturn
  | finish => exact Harmless.finish _ _ _ _ hrun
  | drain | take | command => cases hwhole

end SlotServer
