import SlotServer.Proofs.Strides

/-!
# Programs that do not see the kernel's queues

Almost no program of a worker sees how many operations the kernel takes for unanswered, what was taken out of the kernel
in one go, and how often the loop handed its queue over. Run at two machines that differ in these things only, such a
program answers alike and leaves two such machines.

- `Twins`: two machines that differ in no more, where some completions are still ready at one of them and were taken out
  at the other;
- `Blind`: a program that sees no difference, with a rule for each way to put programs together;
- `Blind.route`, `Blind.execute`: completions and commands are taken to their slots blindly;
- `Application.blind_serve`: so does an application start its handlers.
-/

namespace SlotServer

variable {α β γ : Type}

/-- The event tells how the loop gets along with the kernel, or is a line of the log. -/
def Event.isChore : Event → Bool
  | submitted _ | polled | said .. => true
  | _ => false

/-- What the record tells of a machine but for its chores, the latest first. -/
def Machine.facts (m : Machine α) : List Event := m.trace.filter (!·.isChore)

/-- The machines differ in no more than the kernel's queues, the time, and the chores. The completions `pending` are
still ready at the first one and were taken out at the second one. -/
structure Twins (pending : List Completion) (m m' : Machine α) : Prop where
  worker : m.worker = m'.worker
  app : m.app = m'.app
  held : m.held = m'.held
  facts : m.facts = m'.facts
  sockets : m.kernel.sockets = m'.kernel.sockets
  schedule : m.kernel.schedule = m'.kernel.schedule
  asked : ∀ call, call ≠ .arm → call ≠ .submit → m.kernel.asked call = m'.kernel.asked call
  closes : m.kernel.answersCloses = m'.kernel.answersCloses
  ready : m.kernel.ready = pending ++ m'.kernel.ready

/-- Nothing becomes ready but closes that are answered at once, and these only where the kernel does so. Batches stay as
large as they were. -/
structure Machine.Grows (m m' : Machine α) : Prop where
  closes : m'.kernel.answersCloses = m.kernel.answersCloses
  ready : ∃ more, m'.kernel.ready = m.kernel.ready ++ more ∧ (m.kernel.answersCloses = false → more = [])
  batch : m'.worker.batch = m.worker.batch

namespace Machine.Grows

variable {m m' m'' : Machine α}

theorem of_same (hcloses : m'.kernel.answersCloses = m.kernel.answersCloses) (hready : m'.kernel.ready = m.kernel.ready)
    (hbatch : m'.worker.batch = m.worker.batch) : m.Grows m' :=
  ⟨hcloses, ⟨[], by rw [hready, List.append_nil], fun _ => rfl⟩, hbatch⟩

theorem refl (m : Machine α) : m.Grows m := .of_same rfl rfl rfl

theorem trans (h : m.Grows m') (h' : m'.Grows m'') : m.Grows m'' := by
  obtain ⟨more, hready, hnone⟩ := h.ready
  obtain ⟨more', hready', hnone'⟩ := h'.ready
  refine ⟨h'.closes.trans h.closes, ⟨more ++ more', ?_, fun hno => ?_⟩, h'.batch.trans h.batch⟩
  · rw [hready', hready, List.append_assoc]
  · rw [hnone hno, hnone' (h.closes.trans hno)]
    rfl

end Machine.Grows

namespace Twins

variable {pending : List Completion} {m m' : Machine α}

theorem refl (m : Machine α) : Twins [] m m := ⟨rfl, rfl, rfl, rfl, rfl, rfl, fun _ _ _ => rfl, rfl, rfl⟩

theorem modifyWorker (h : Twins pending m m') (f : Worker → Worker) :
    Twins pending { m with worker := f m.worker } { m' with worker := f m'.worker } :=
  { h with worker := congrArg f h.worker }

theorem record (h : Twins pending m m') (e : Event) :
    Twins pending { m with trace := e :: m.trace } { m' with trace := e :: m'.trace } :=
  { h with
    facts := by
      have hfacts := h.facts
      unfold Machine.facts at hfacts ⊢
      rw [List.filter_cons, List.filter_cons, hfacts] }

/-- The kernel answers a call alike, unless it is one of those by which the loop waits. -/
theorem ask (h : Twins pending m m') {call : Call} (harm : call ≠ .arm) (hsubmit : call ≠ .submit) :
    (m.kernel.ask call).1 = (m'.kernel.ask call).1 ∧
      Twins pending { m with kernel := (m.kernel.ask call).2 } { m' with kernel := (m'.kernel.ask call).2 } := by
  refine ⟨?_, { h with asked := fun other harm' hsubmit' => ?_ }⟩
  · unfold Kernel.ask
    rw [h.schedule, h.asked call harm hsubmit]
  · show (if other = call then m.kernel.asked call + 1 else m.kernel.asked other) =
      if other = call then m'.kernel.asked call + 1 else m'.kernel.asked other
    rw [h.asked call harm hsubmit, h.asked other harm' hsubmit']

/-- An operation that is let through. A close may be answered at once. -/
theorem accept (h : Twins pending m m') (op : Op) :
    Twins pending { m with kernel := m.kernel.accept op } { m' with kernel := m'.kernel.accept op } := by
  cases op with
  | close ctx fd =>
    unfold Kernel.accept
    dsimp only
    rw [h.closes]
    split
    · refine { h with sockets := congrArg (·.close fd) h.sockets, closes := rfl, ready := ?_ }
      show m.kernel.ready ++ [_] = pending ++ (m'.kernel.ready ++ [_])
      rw [h.ready, List.append_assoc]
    · exact { h with sockets := congrArg (·.close fd) h.sockets, closes := rfl }
  | _ => exact { h with }

/-- An operation for the kernel. -/
theorem push (h : Twins pending m m') (op : Op) : (m.kernel.push op).1 = (m'.kernel.push op).1 ∧
    Twins pending { m with kernel := (m.kernel.push op).2 } { m' with kernel := (m'.kernel.push op).2 } := by
  have hcall : Kernel.callOf op ≠ .arm ∧ Kernel.callOf op ≠ .submit := by cases op <;> exact ⟨nofun, nofun⟩
  have hpush : Call.push ≠ .arm ∧ Call.push ≠ .submit := ⟨nofun, nofun⟩
  obtain ⟨hanswer, hasked⟩ := h.ask hpush.1 hpush.2
  unfold Kernel.push
  generalize m.kernel.ask .push = first, m'.kernel.ask .push = first' at hanswer hasked
  obtain ⟨answer, k⟩ := first
  obtain ⟨answer', k'⟩ := first'
  obtain rfl : answer = answer' := hanswer
  cases answer with
  | error e => exact ⟨rfl, hasked⟩
  | ok _ =>
    obtain ⟨hanswer, hasked⟩ := hasked.ask hcall.1 hcall.2
    dsimp only at hanswer hasked ⊢
    generalize k.ask (Kernel.callOf op) = second, k'.ask (Kernel.callOf op) = second' at hanswer hasked
    obtain ⟨answer, k⟩ := second
    obtain ⟨answer', k'⟩ := second'
    obtain rfl : answer = answer' := hanswer
    cases answer with
    | error e => exact ⟨rfl, hasked⟩
    | ok _ => exact ⟨rfl, hasked.accept op⟩

end Twins

/-- Queueing an operation makes nothing ready but the answer to a close. -/
theorem Machine.grows_push (m : Machine α) (op : Op) : m.Grows { m with kernel := (m.kernel.push op).2 } := by
  unfold Kernel.push Kernel.ask
  dsimp only
  cases m.kernel.schedule .push (m.kernel.asked .push) with
  | some e => exact .of_same rfl rfl rfl
  | none =>
    dsimp only
    cases m.kernel.schedule (Kernel.callOf op) _ with
    | some e => exact .of_same rfl rfl rfl
    | none =>
      cases op with
      | receive => exact .of_same rfl rfl rfl
      | send => exact .of_same rfl rfl rfl
      | close ctx fd =>
        unfold Kernel.accept
        dsimp only
        split
        · rename_i hcloses
          exact ⟨rfl, ⟨[_], rfl, fun hno => absurd (hno.symm.trans hcloses) Bool.false_ne_true⟩, rfl⟩
        · exact .of_same rfl rfl rfl

/-- Two programs end alike, the second one from the machine `m`. -/
inductive EndsAlike (pending : List Completion) (m : Machine α) :
    EStateM.Result Fault (Machine α) β → EStateM.Result Fault (Machine α) β → Prop
  | ok {b : β} {m₁ m₂ : Machine α} (h : Twins pending m₁ m₂) (hgrows : m.Grows m₂) :
    EndsAlike pending m (.ok b m₁) (.ok b m₂)
  | error {fault : Fault} {m₁ m₂ : Machine α} : EndsAlike pending m (.error fault m₁) (.error fault m₂)

/-- The program sees no difference between twins, and makes nothing ready but answers to closes. -/
def Blind (x : Run α β) : Prop :=
  ∀ ⦃pending : List Completion⦄ ⦃m m' : Machine α⦄, Twins pending m m' → EndsAlike pending m' (x m) (x m')

namespace Blind

variable {i : Nat}

/-! ## Programs put together -/

theorem pure (b : β) : Blind (Pure.pure b : Run α β) := fun _ _ m' h => .ok h (.refl m')

theorem throw (fault : Fault) : Blind (MonadExcept.throw fault : Run α β) := fun _ _ _ _ => .error

theorem bind {x : Run α β} {k : β → Run α γ} (hx : Blind x) (hk : ∀ b, Blind (k b)) : Blind (x >>= k) := by
  intro pending m m' h
  have hfirst := hx h
  show EndsAlike pending m' (EStateM.bind x k m) (EStateM.bind x k m')
  unfold EStateM.bind
  generalize x m = r, x m' = r' at hfirst
  cases hfirst with
  | error => exact .error
  | @ok b m₁ m₂ h₁ hgrows =>
    have hsecond := hk b h₁
    dsimp only
    generalize k b m₁ = r, k b m₂ = r' at hsecond
    cases hsecond with
    | error => exact .error
    | ok h₂ hgrows' => exact .ok h₂ (hgrows.trans hgrows')

theorem ofExcept (y : Except Fault β) : Blind (Run.ofExcept y : Run α β) := by
  cases y with
  | ok b => exact pure b
  | error fault => exact throw fault

theorem worker : Blind (Run.worker : Run α Worker) := by
  intro pending m m' h
  show EndsAlike pending m' (.ok m.worker m) (.ok m'.worker m')
  rw [h.worker]
  exact .ok h (.refl m')

theorem slot? : Blind (Run.slot? i : Run α (Option Slot)) := bind worker fun _ => pure _

/-! ## Single changes -/

/-- A change of the worker, but for how large its batches are. -/
theorem modifyWorker {f : Worker → Worker} (hf : ∀ w : Worker, (f w).batch = w.batch) :
    Blind (Run.modifyWorker f : Run α Unit) :=
  fun _ _ m' h => .ok (h.modifyWorker f) (.of_same rfl rfl (hf m'.worker))

theorem modifySlot (f : Slot → Slot) : Blind (Run.modifySlot i f : Run α Unit) := modifyWorker fun _ => rfl

theorem modifyHeld (f : List Nat → List Nat) : Blind (modify fun m => { m with held := f m.held } : Run α Unit) :=
  fun _ _ _ h => .ok { h with held := congrArg f h.held } (.of_same rfl rfl rfl)

theorem modifyApp (f : α → α) : Blind (Run.modifyApp f : Run α Unit) :=
  fun _ _ _ h => .ok { h with app := congrArg f h.app } (.of_same rfl rfl rfl)

theorem record (e : Event) : Blind (Run.record e : Run α Unit) := fun _ _ _ h => .ok (h.record e) (.of_same rfl rfl rfl)

theorem say {level : LogLevel} {message : String} : Blind (Run.say level message : Run α Unit) :=
  bind worker fun _ => record _

theorem bump {counter : Counter} {n : UInt64} : Blind (Run.bump counter n : Run α Unit) := modifyWorker fun _ => rfl

theorem stepSlot (f : Slot.Step β) : Blind (Run.stepSlot i f : Run α (Except Error β)) := by
  refine bind slot? fun here => ?_
  cases here with
  | none => exact pure _
  | some s => exact bind (modifyWorker fun _ => rfl) fun _ => pure _

/-- A change of the sockets. -/
theorem modifySockets (f : Sockets → Sockets) :
    Blind (Run.modifyKernel fun k => { k with sockets := f k.sockets } : Run α Unit) :=
  fun _ _ _ h => .ok { h with sockets := congrArg f h.sockets } (.of_same rfl rfl rfl)

/-- A call of the kernel that is not one of those by which the loop waits. -/
theorem ask {call : Call} (harm : call ≠ .arm) (hsubmit : call ≠ .submit) :
    Blind (Run.kernel (·.ask call) : Run α (Except Error Unit)) := by
  intro pending m m' h
  obtain ⟨hanswer, hasked⟩ := h.ask harm hsubmit
  show EndsAlike pending m' (.ok (m.kernel.ask call).1 { m with kernel := (m.kernel.ask call).2 })
    (.ok (m'.kernel.ask call).1 { m' with kernel := (m'.kernel.ask call).2 })
  rw [hanswer]
  exact .ok hasked (.of_same rfl rfl rfl)

theorem queue (op : Op) : Blind (Run.queue op : Run α (Except Error Unit)) := by
  intro pending m m' h
  obtain ⟨hanswer, hpushed⟩ := h.push op
  rw [Run.queue_run, Run.queue_run, hanswer]
  exact .ok (hpushed.record _) ((m'.grows_push op).trans (.of_same rfl rfl rfl))

theorem forM {f : γ → Run α PUnit} (hf : ∀ c, Blind (f c)) (l : List γ) : Blind (l.forM f) := by
  induction l with
  | nil => exact pure _
  | cons c l ih => exact bind (hf c) fun _ => ih

/-! ## Slots that are freed -/

theorem closeNow {slot : Option Nat} {fd : Int} : Blind (Run.closeNow slot fd : Run α Unit) := by
  unfold Run.closeNow
  split
  · exact bind (record _) fun _ => modifySockets (·.close fd)
  · exact pure _

theorem pushFree : Blind (Run.pushFree i : Run α Bool) := by
  refine bind worker fun w => ?_
  split
  · exact pure _
  · exact bind (modifyWorker fun _ => rfl) fun _ => pure _

theorem release : Blind (Run.release i : Run α Unit) := by
  refine bind slot? fun here => ?_
  cases here with
  | none => exact pure _
  | some s =>
    refine bind (modifyWorker fun _ => rfl) fun _ => ?_
    split
    · exact throw _
    · exact pure _
    · refine bind pushFree fun placed => ?_
      split
      · exact say
      · exact pure _

theorem closeSlot : Blind (Run.closeSlot i : Run α Unit) := by
  refine bind (stepSlot _) fun answer => ?_
  cases answer with
  | error e => exact pure _
  | ok fd => exact bind closeNow fun _ => bind bump fun _ => release

theorem completeCell (cell : CellName) (f : Slot → Except Fault (Option Waker × Slot)) :
    Blind (Run.completeCell cell f : Run α Unit) := by
  refine bind slot? fun here => ?_
  cases here with
  | none => exact pure _
  | some s =>
    refine bind (ofExcept _) fun done => bind (modifyWorker fun _ => rfl) fun _ => ?_
    cases done.1 with
    | none => exact pure _
    | some w => exact record _

/-! ## Operations for the kernel -/

theorem issueClose : Blind (Run.issueClose i : Run α Unit) := by
  refine bind slot? fun here => ?_
  cases here with
  | none => exact pure _
  | some s =>
    refine bind (queue _) fun answer => ?_
    cases answer with
    | error e => exact bind say fun _ => closeSlot
    | ok _ => exact pure _

theorem disconnect : Blind (Run.disconnect i : Run α Unit) := by
  refine bind (stepSlot _) fun answer => ?_
  cases answer with
  | error e => exact pure _
  | ok _ => exact issueClose

theorem issueHalf (half : Half) : Blind (Run.issueHalf half i : Run α Unit) := by
  have hplace : ∀ seg, Blind (Run.placeOf seg : Run α Nat) := fun seg => bind worker fun _ => ofExcept _
  refine bind slot? fun here => ?_
  cases here with
  | none => exact pure _
  | some s =>
    refine bind (hplace _) fun place => bind (queue _) fun answer => ?_
    cases answer with
    | ok _ => exact pure _
    | error e =>
      refine bind bump fun _ => bind (stepSlot _) fun answer => ?_
      cases answer with
      | error e => exact pure _
      | ok _ => exact bind issueClose fun _ => completeCell _ _

/-! ## Completions -/

theorem violation {e : Error} : Blind (Run.violation i e : Run α Unit) := bind say fun _ => bump

theorem errnoOf (result : Int32) : Blind (Run.errnoOf result : Run α Int32) := by
  unfold Run.errnoOf
  split
  · exact throw _
  · exact pure _

/-- A half whose operation has ended well is left, or its connection is closed where no handle is attached. -/
theorem delivered (half : Half) (outcome : Outcome) : Blind (do
    if !((← Run.slot? i).any (·.attached)) then Run.disconnect i
    Run.completeCell ⟨i, half⟩ (Slot.completeHalf half outcome) : Run α Unit) := by
  refine bind slot? fun here => ?_
  split
  · exact bind disconnect fun _ => completeCell _ _
  · exact completeCell _ _

theorem onReceive (result : Int32) : Blind (Run.onReceive i result : Run α Unit) := by
  unfold Run.onReceive
  split
  · refine bind (stepSlot _) fun answer => ?_
    cases answer with
    | error e => exact violation
    | ok _ =>
      have hrest : ∀ outcome, Blind (do
          Run.issueClose i
          Run.completeReceive i outcome : Run α Unit) := fun outcome => bind issueClose fun _ => completeCell _ _
      dsimp only
      split
      · exact bind (errnoOf result) fun _ => bind say fun _ => bind bump fun _ => bind (pure _) hrest
      · exact bind bump fun _ => bind (pure _) hrest
  · refine bind (stepSlot _) fun answer => ?_
    cases answer with
    | error e => exact violation
    | ok _ => exact bind bump fun _ => bind bump fun _ => delivered .receive _

theorem onSend (result : Int32) : Blind (Run.onSend i result : Run α Unit) := by
  unfold Run.onSend
  split
  · refine bind (stepSlot _) fun answer => ?_
    cases answer with
    | error e => exact violation
    | ok _ =>
      refine bind (errnoOf result) fun _ => bind say fun _ => bind bump fun _ => ?_
      exact bind issueClose fun _ => completeCell _ _
  · refine bind (stepSlot _) fun answer => ?_
    cases answer with
    | error e => exact violation
    | ok _ => exact bind bump fun _ => bind bump fun _ => delivered .send _

theorem onClose (result : Int32) : Blind (Run.onClose i result : Run α Unit) := by
  have hsettle : Blind (Run.settleClose i : Run α Unit) := by
    refine bind (stepSlot _) fun answer => ?_
    cases answer with
    | error e => exact violation
    | ok _ => exact bind bump fun _ => bind say fun _ => release
  rw [Run.onClose_eq]
  split
  · exact bind (errnoOf result) fun _ => bind say fun _ => hsettle
  · exact hsettle

theorem route (c : Completion) : Blind (Run.route c : Run α Unit) := by
  refine bind (record _) fun _ => bind slot? fun here => ?_
  cases here with
  | none => exact bind say fun _ => bump
  | some s =>
    dsimp only
    split
    · exact onReceive _
    · exact onSend _
    · exact onClose _
    · exact bind say fun _ => bump

theorem drainSlot : Blind (Run.drainSlot i : Run α Unit) := by
  refine bind slot? fun here => ?_
  cases here with
  | none => exact pure _
  | some s =>
    dsimp only
    split
    · exact disconnect
    · exact disconnect
    · exact disconnect
    · exact bind (record _) fun _ => modifySockets (·.hangUp s.fd)
    · exact bind (record _) fun _ => modifySockets (·.hangUp s.fd)
    · exact pure _

/-! ## Commands -/

section Commands

variable {serve : Run.Serve α}

theorem abandon : Blind (Run.abandon i : Run α Unit) := by
  refine bind (stepSlot _) fun answer => ?_
  cases answer with
  | error e => exact pure _
  | ok _ => exact issueClose

theorem setNoDelay (fd : Int) : Blind (Run.setNoDelay i fd : Run α (Except Error Unit)) := by
  refine bind (record _) fun _ pending m m' h => ?_
  have hget : ∀ (k : Machine α → Run α (Except Error Unit)) (m : Machine α), (MonadState.get >>= k) m = k m m :=
    fun _ _ => rfl
  rw [hget, hget, h.sockets]
  cases m'.kernel.sockets.setNoDelay fd with
  | ok _ => exact pure _ h
  | error errno => exact pure _ h

theorem takeOver (hserve : ∀ i, Blind (serve i)) (peer : Option Net.SocketAddress) :
    Blind (Run.takeOver serve i peer) := by
  refine bind (stepSlot _) fun answer => ?_
  cases answer with
  | error e => exact violation
  | ok _ =>
    refine bind bump fun _ => bind say fun _ => bind (bind (modifySlot _) fun _ => modifyHeld _) fun _ => ?_
    refine bind (record _) fun _ => bind (hserve i) fun answer => ?_
    cases answer with
    | error e => exact bind say fun _ => bump
    | ok _ => exact pure _

theorem onAccept (hserve : ∀ i, Blind (serve i)) : Blind (Run.onAccept serve i) := by
  refine bind slot? fun here => ?_
  cases here with
  | none => exact pure _
  | some s =>
    refine bind worker fun w => ?_
    dsimp only
    split
    · exact bind abandon fun _ => pure _
    split
    · refine bind (setNoDelay _) fun answer => ?_
      cases answer with
      | error e => exact bind say fun _ => bind bump fun _ => bind abandon fun _ => pure _
      | ok _ => exact takeOver hserve _
    · exact takeOver hserve _

theorem execute (hserve : ∀ i, Blind (serve i)) (c : Command) : Blind (Run.execute serve c) := by
  cases c with
  | accept i => exact onAccept hserve
  | receive i => exact issueHalf .receive
  | send i => exact issueHalf .send
  | disconnect i => exact issueClose

end Commands

/-! ## Calls of handles -/

theorem popCommand : Blind (Run.popCommand : Run α (Option Command)) := by
  refine bind worker fun w => ?_
  cases w.inbox with
  | nil => exact pure _
  | cons c inbox => exact bind (modifyWorker fun _ => rfl) fun _ => pure _

theorem failHalf (half : Half) : Blind (Run.failHalf half i : Run α Unit) := by
  refine bind (stepSlot _) fun answer => ?_
  cases answer with
  | error e => exact pure _
  | ok _ => exact bind closeSlot fun _ => completeCell _ _

theorem failCommand (c : Command) : Blind (Run.failCommand c : Run α Unit) := by
  refine bind say fun _ => ?_
  cases c with
  | accept i =>
    refine bind (stepSlot _) fun answer => ?_
    cases answer with
    | error e => exact pure _
    | ok _ => exact closeSlot
  | receive i => exact failHalf .receive
  | send i => exact failHalf .send
  | disconnect i => exact closeSlot

theorem failUpTo (n : Nat) : Blind (Run.failUpTo n : Run α Unit) := by
  induction n with
  | zero => exact pure _
  | succ n ih =>
    refine bind popCommand fun c => ?_
    cases c with
    | none => exact pure _
    | some c => exact bind (failCommand c) fun _ => ih

theorem settle : Blind (Run.settle : Run α Unit) := by
  refine bind worker fun w => ?_
  split
  · exact bind worker fun _ => failUpTo _
  · exact pure _

theorem submit (c : Command) : Blind (Run.submit c : Run α Unit) := by
  have henqueue : Blind (Run.enqueue c : Run α Bool) := by
    refine bind worker fun w => ?_
    split
    · exact pure _
    · exact bind (modifyWorker fun _ => rfl) fun _ => pure _
  refine bind henqueue fun placed => ?_
  cases placed with
  | true =>
    refine bind (bind (record _) fun _ => ask nofun nofun) fun answer => ?_
    cases answer with
    | error e => exact bind say fun _ => settle
    | ok _ => exact settle
  | false =>
    refine bind worker fun w => ?_
    split
    · exact failCommand c
    · exact throw _

theorem drop : Blind (Connection.drop i : Run α Unit) := by
  refine bind (modifyHeld (·.erase i)) fun _ => bind slot? fun here => ?_
  split
  · refine bind (modifySlot _) fun _ => bind (stepSlot _) fun answer => ?_
    cases answer with
    | error e => exact release
    | ok _ => exact bind (submit _) fun _ => release
  · exact pure _

end Blind

/-- An application starts its handlers blindly. -/
theorem Application.blind_serve (i : Nat) : Blind (Application.serve i) := by
  have hspawn : ∀ service, Blind (spawn service i) := by
    intro service
    refine .bind (.ask nofun nofun) fun answer => ?_
    cases answer with
    | ok _ => exact .bind (.record _) fun _ => .bind (.modifyApp _) fun _ => .pure _
    | error e =>
      dsimp only
      split
      · exact .bind .drop fun _ => .pure _
      · exact .pure _
  intro pending m m' h
  rw [serve_eq]
  show EndsAlike pending m' ((if m.app.service = .keep then _ else _ : Act (Except Error Unit)) m)
    ((if m'.app.service = .keep then _ else _ : Act (Except Error Unit)) m')
  rw [h.app]
  split
  · exact Blind.bind (.modifyApp _) (fun _ => hspawn _) h
  · exact hspawn _ h

end SlotServer
