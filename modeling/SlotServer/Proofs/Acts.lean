import SlotServer.Proofs.Runs

/-!
# The calls of a worker, act by act

Acceptors, connection handles and the end of the dispatch loop run side by side. Each of them is a row of acts, and
between two acts any other party may act: a step of a slot, a place in the inbox, the ring, a look whether the loop has
come to its end, a command that is taken out, its failure, the close and the completion that follow, and each slot that
is forced free are acts of their own.

- `Act`, `Act.run`: what is done at once, what is to be done after it, and what is marked of it;
- `Act.Does`: a row of acts, without any other party between them. The calls of a worker are such rows
  (`Act.Does.submit`, `Act.Does.receive`, `Act.Does.drop`, `Act.Does.assign`, `Act.Does.finish`).
-/

namespace SlotServer

variable {α : Type}

/-- What is done at once. -/
inductive Act
  /-- An acceptor takes a free slot for a new socket. -/
  | assign (fd : Int) (peer : Option Net.SocketAddress)
  /-- The socket is bound to the slot that was taken. -/
  | bind (slot : Nat) (fd : Int) (peer : Option Net.SocketAddress)
  /-- A handle begins a receive. -/
  | receive (slot : Nat)
  /-- A handle begins a send. -/
  | send (slot length : Nat)
  /-- A cell is polled. -/
  | poll (cell : CellName) (waker : Waker)
  /-- A handle goes away, if it is alive. -/
  | leave (slot : Nat)
  /-- The slot of a handle that went away is closed, if it is idle. -/
  | disconnect (slot : Nat)
  /-- The lease of a handle is given back. -/
  | release (slot : Nat)
  /-- A command is put into the inbox. -/
  | push (c : Command)
  /-- There was no place for a command: it is failed if the loop has come to its end, and otherwise tried again. -/
  | stall (c : Command)
  | ring
  /-- Look whether the loop has come to its end. -/
  | look
  /-- The first command is taken out of the inbox, and so on until none is left. -/
  | pop
  /-- The slot of a command that will not be carried out moves on. -/
  | fail (c : Command)
  /-- A slot is closed past the queue, if it is disconnecting. -/
  | close (slot : Nat)
  /-- The cell of an operation that was failed is completed. -/
  | complete (slot : Nat) (half : Half)
  /-- The loop has come to its end. -/
  | exit
  /-- The registration is undone and the kernel's side is let go. -/
  | retract
  /-- The first of these slots is forced free, and the others after it. -/
  | force (left : List Nat) (forced : Nat)

/-- What is marked of an act. -/
inductive Mark
  | pushed (c : Command)
  | popped (c : Command)
  /-- An operation began on a cell. -/
  | began (cell : CellName)
  | completed (cell : CellName)
  | bound (slot : Nat) (fd : Int)
  /-- A slot let go of its descriptor, which was closed. -/
  | closed (slot : Nat) (fd : Int)
  /-- A slot let go of its descriptor, which was not closed. -/
  | spared (slot : Nat) (fd : Int)
  /-- The lease of a slot's socket was given back. -/
  | freed (slot : Nat)
  deriving DecidableEq, Repr

namespace Run

/-- Bind a socket to a slot that was taken. -/
def bindSocket (i : Nat) (fd : Int) (peer : Option Net.SocketAddress) : Run α (Except Error Unit) := do
  if (← slot? i).isNone then return .error .noFreeSlot
  match ← stepSlot i (Slot.startAccept fd peer) with
  | .error e =>
    discard (pushFree i)
    return .error e
  | .ok _ =>
    record (.bound i fd)
    return .ok ()

/-- Undo the registration and let the kernel's side go. -/
def retract : Run α Unit := do
  if let .error e ← deregister then say .warn s!"buffer deregistration failed: {e.message}"
  record .released

end Run

namespace Slot

/-- The marks of a close past the queue. -/
def closeMarks (i : Nat) (s : Slot) : List Mark :=
  if s.state = .disconnecting then [.freed i, .closed i s.fd] else []

/-- The marks of a slot that is forced free. -/
def forceMarks (i : Nat) (s : Slot) : List Mark :=
  match s.state with
  | .disconnected => []
  | .disconnecting => [.freed i, .spared i s.fd]
  | .receiving => [.freed i, .closed i s.fd, .completed ⟨i, .receive⟩]
  | .sending => [.freed i, .closed i s.fd, .completed ⟨i, .send⟩]
  | .accepting | .accepted | .received | .sent => [.freed i, .closed i s.fd]

end Slot

namespace Act

/-- The act by which an operation of a half begins. -/
def start (i length : Nat) : Half → Act
  | .receive => .receive i
  | .send => .send i length

/-- The failure of a half's operation. -/
def failHalf (half : Half) (i : Nat) : Run α (List Act × List Mark) := do
  if (← Run.stepSlot i (Slot.abortHalf half)) matches .ok _ then return ([.close i, .complete i half], [])
  else return ([], [])

/-- A handle that is alive goes away. -/
def letGo (i : Nat) : Run α (List Act × List Mark) := do
  modify fun m => { m with held := m.held.erase i }
  if (← Run.slot? i).isSome then
    Run.modifySlot i Slot.detach
    return ([.disconnect i, .release i], [])
  else return ([], [])

/-- Do the act. The answer is what is to be done next, before what was to be done after the act, and what is marked, the
latest first. -/
def run : Act → Run α (List Act × List Mark)
  | .assign fd peer => do
    match ← Run.acquire with
    | none =>
      Run.bump .rejected 1
      Run.closeNow none fd
      return ([], [])
    | some i => return ([.bind i fd peer], [])
  | .bind i fd peer => do
    match ← Run.bindSocket i fd peer with
    | .error _ =>
      Run.closeNow none fd
      Run.bump .errors 1
      return ([], [])
    | .ok _ => return ([.push (.accept i)], [.bound i fd])
  | .receive i => do
    if (← Run.stepSlot i Slot.startReceive) matches .ok _ then
      Run.record (.began ⟨i, .receive⟩)
      return ([.push (.receive i)], [.began ⟨i, .receive⟩])
    else return ([], [])
  | .send i length => do
    if (← Run.stepSlot i (Slot.startSend length)) matches .ok _ then
      Run.record (.asked length)
      Run.record (.began ⟨i, .send⟩)
      return ([.push (.send i)], [.began ⟨i, .send⟩])
    else return ([], [])
  | .poll cell waker => do
    discard (Connection.pollFuture waker (.awaiting cell))
    return ([], [])
  | .leave i => do
    if i ∈ (← get).held then letGo i
    else return ([], [])
  | .disconnect i => do
    if (← Run.stepSlot i Slot.startDisconnect) matches .ok _ then return ([.push (.disconnect i)], [])
    else return ([], [])
  | .release i => do
    Run.release i
    return ([], [])
  | .push c => do
    if ← Run.enqueue c then return ([.ring, .look], [.pushed c])
    else return ([.stall c], [])
  | .stall c => do
    if (← Run.worker).exited then return ([.fail c], [])
    else return ([.push c], [])
  | .ring => do
    if let .error e ← Run.ring then Run.say .warn s!"notify failed: {e.message}"
    return ([], [])
  | .look => do
    if (← Run.worker).exited then return ([.pop], [])
    else return ([], [])
  | .pop => do
    match ← Run.popCommand with
    | none => return ([], [])
    | some c => return ([.fail c, .pop], [.popped c])
  | .fail c => do
    Run.say .debug s!"failing orphaned {c.text}"
    match c with
    | .accept i =>
      if (← Run.stepSlot i Slot.abortAccept) matches .ok _ then return ([.close i], [])
      else return ([], [])
    | .receive i => failHalf .receive i
    | .send i => failHalf .send i
    | .disconnect i => return ([.close i], [])
  | .close i => do
    let before ← Run.slot? i
    Run.closeSlot i
    return ([], before.elim [] (Slot.closeMarks i))
  | .complete i half => do
    let before ← Run.slot? i
    Run.completeCell ⟨i, half⟩ (Slot.completeHalf half (.error .connectionClosed))
    return ([], before.elim [] fun _ => [.completed ⟨i, half⟩])
  | .exit => do
    Run.markExited
    return ([.pop, .retract], [])
  | .retract => do
    Run.retract
    return ([.force (List.range (← Run.worker).slots.length) 0], [])
  | .force [] forced => do
    let counted := (← Run.worker).counters.text
    Run.say .info s!"stopped ({forced} connections force-closed) {counted}"
    return ([], [])
  | .force (i :: left) forced => do
    let before ← Run.slot? i
    let one ← Run.forceSlot i
    return ([.force left ((if one then 1 else 0) + forced)], before.elim [] (Slot.forceMarks i))

/-! ## Rows of acts -/

/-- One party does what it has to do, up to the end and without any other party between. -/
inductive Does : List Act → Machine α → Machine α → Prop
  | nil (m : Machine α) : Does [] m m
  | cons {a : Act} {rest more : List Act} {marks : List Mark} {m m₁ m' : Machine α}
    (hrun : a.run m = .ok (more, marks) m₁) (hrest : Does (more ++ rest) m₁ m') : Does (a :: rest) m m'

namespace Does

variable {m m₁ m₂ m' : Machine α} {a : Act} {acts acts' more : List Act} {marks : List Mark}

theorem append (h : Does acts m m₁) (h' : Does acts' m₁ m') : Does (acts ++ acts') m m' := by
  induction h with
  | nil => exact h'
  | @cons a rest more marks m m₁ m₂ hrun _ ih =>
    refine cons hrun ?_
    show Does (more ++ (rest ++ acts')) m₁ m'
    rw [← List.append_assoc]
    exact ih h'

/-- An act with what it leaves to be done. -/
theorem step (hrun : a.run m = .ok (more, marks) m₁) (h : Does more m₁ m') : Does [a] m m' :=
  cons hrun (by rw [List.append_nil]; exact h)

/-- An act that leaves nothing to be done. -/
theorem last (hrun : a.run m = .ok ([], marks) m') : Does [a] m m' := step hrun (nil m')

end Does

end Act

/-! ## The calls as rows of acts -/

/-- A program that leaves the inbox as it is. -/
def Run.KeepsInbox {β : Type} (x : Run α β) : Prop :=
  ∀ m b m', x m = .ok b m' → m'.worker.inbox = m.worker.inbox

namespace Run.KeepsInbox

variable {β γ : Type}

theorem pure (b : β) : KeepsInbox (Pure.pure b : Run α β) := fun _ _ _ h => by
  cases h
  rfl

theorem bind {x : Run α β} {k : β → Run α γ} (hx : KeepsInbox x) (hk : ∀ b, KeepsInbox (k b)) :
    KeepsInbox (x >>= k) := fun m c m' h => by
  obtain ⟨b, m₁, hm, hm'⟩ := Run.of_bind h
  exact (hk b m₁ c m' hm').trans (hx m b m₁ hm)

theorem slot? (i : Nat) : KeepsInbox (Run.slot? i : Run α (Option Slot)) := fun _ _ _ h => by
  cases h
  rfl

theorem worker : KeepsInbox (Run.worker : Run α Worker) := fun _ _ _ h => by
  cases h
  rfl

theorem record (e : Event) : KeepsInbox (Run.record e : Run α Unit) := fun _ _ _ h => by
  cases h
  rfl

theorem modifyWorker {f : Worker → Worker} (hf : ∀ w, (f w).inbox = w.inbox) :
    KeepsInbox (Run.modifyWorker f : Run α Unit) := fun m _ _ h => by
  cases h
  exact hf m.worker

theorem modifyKernel (f : Kernel → Kernel) : KeepsInbox (Run.modifyKernel f : Run α Unit) := fun _ _ _ h => by
  cases h
  rfl

theorem ofExcept (y : Except Fault β) : KeepsInbox (Run.ofExcept y : Run α β) := fun _ _ _ h => by
  cases y <;> cases h
  rfl

theorem throw (fault : Fault) : KeepsInbox (MonadExcept.throw fault : Run α β) := fun _ _ _ h => by cases h

theorem say (level : LogLevel) (message : String) : KeepsInbox (Run.say level message : Run α Unit) :=
  bind worker fun _ => record _

theorem stepSlot (i : Nat) (f : Slot.Step β) : KeepsInbox (Run.stepSlot i f : Run α (Except Error β)) := by
  refine bind (slot? i) fun s? => ?_
  cases s? with
  | none => exact pure _
  | some s => exact bind (modifyWorker fun _ => rfl) fun _ => pure _

theorem closeNow (slot : Option Nat) (fd : Int) : KeepsInbox (Run.closeNow slot fd : Run α Unit) := by
  unfold Run.closeNow
  split
  · exact bind (record _) fun _ => modifyKernel _
  · exact pure _

theorem pushFree (i : Nat) : KeepsInbox (Run.pushFree i : Run α Bool) := fun m _ _ h => by
  rw [Run.pushFree_run] at h
  split at h <;> cases h <;> rfl

theorem release (i : Nat) : KeepsInbox (Run.release i : Run α Unit) := by
  refine bind (slot? i) fun s? => ?_
  cases s? with
  | none => exact pure _
  | some s =>
    refine bind (modifyWorker fun _ => rfl) fun _ => ?_
    split
    · exact throw _
    · exact pure _
    · refine bind (pushFree i) fun placed => ?_
      cases placed with
      | true => exact pure _
      | false => exact say _ _

theorem closeSlot (i : Nat) : KeepsInbox (Run.closeSlot i : Run α Unit) := by
  refine bind (stepSlot i _) fun answer => ?_
  cases answer with
  | error e => exact pure _
  | ok fd => exact bind (closeNow _ _) fun _ => bind (modifyWorker fun _ => rfl) fun _ => release i

theorem wake (cell : CellName) (waker : Option Waker) : KeepsInbox (Run.wake cell waker : Run α Unit) := by
  cases waker with
  | none => exact pure _
  | some w => exact record _

theorem completeCell (cell : CellName) (f : Slot → Except Fault (Option Waker × Slot)) :
    KeepsInbox (Run.completeCell cell f : Run α Unit) := by
  refine bind (slot? _) fun s? => ?_
  cases s? with
  | none => exact pure _
  | some s => exact bind (ofExcept _) fun _ => bind (modifyWorker fun _ => rfl) fun _ => wake _ _

theorem failHalf (half : Half) (i : Nat) : KeepsInbox (Run.failHalf half i : Run α Unit) := by
  refine bind (stepSlot i _) fun answer => ?_
  cases answer with
  | error e => exact pure _
  | ok _ => exact bind (closeSlot i) fun _ => completeCell _ _

theorem failCommand (c : Command) : KeepsInbox (Run.failCommand c : Run α Unit) := by
  refine bind (say _ _) fun _ => ?_
  match c with
  | .accept i =>
    refine bind (stepSlot i _) fun answer => ?_
    cases answer with
    | error e => exact pure _
    | ok _ => exact closeSlot i
  | .receive i => exact failHalf .receive i
  | .send i => exact failHalf .send i
  | .disconnect i => exact closeSlot i

end Run.KeepsInbox

namespace Act.Does

variable {m m' : Machine α} {c : Command} {i : Nat}

theorem close (h : Run.closeSlot i m = .ok () m') : Does [.close i] m m' :=
  last (Run.bind_run (x := Run.slot? i) rfl |>.trans (Run.bind_run h))

theorem complete {half : Half}
    (h : Run.completeCell ⟨i, half⟩ (Slot.completeHalf half (.error .connectionClosed)) m = .ok () m') :
    Does [.complete i half] m m' :=
  last (Run.bind_run (x := Run.slot? i) rfl |>.trans (Run.bind_run h))

theorem failHalf (half : Half) (h : Run.failHalf half i m = .ok () m') : ∃ more m₁,
    (Act.failHalf half i : Run α (List Act × List Mark)) m = .ok (more, []) m₁ ∧ Does more m₁ m' := by
  obtain ⟨answer, m₁, hstep, h⟩ := Run.of_bind h
  cases answer with
  | error e =>
    cases h
    exact ⟨[], m', Run.bind_run hstep, nil m'⟩
  | ok _ =>
    obtain ⟨_, m₂, hclose, hcomplete⟩ := Run.of_bind h
    exact ⟨[.close i, .complete i half], m₁, Run.bind_run hstep, (close hclose).append (complete hcomplete)⟩

/-- A command is failed by moving its slot on, closing it and completing its cell. -/
theorem fail (h : Run.failCommand c m = .ok () m') : Does [.fail c] m m' := by
  obtain ⟨_, m₁, hsay, h⟩ := Run.of_bind h
  match c with
  | .accept i =>
    obtain ⟨answer, m₂, hstep, h⟩ := Run.of_bind h
    cases answer with
    | error e =>
      cases h
      exact last ((Run.bind_run hsay).trans (Run.bind_run hstep))
    | ok _ => exact step ((Run.bind_run hsay).trans (Run.bind_run hstep)) (close h)
  | .receive i =>
    obtain ⟨more, m₂, hrun, hdoes⟩ := failHalf .receive h
    exact step ((Run.bind_run hsay).trans hrun) hdoes
  | .send i =>
    obtain ⟨more, m₂, hrun, hdoes⟩ := failHalf .send h
    exact step ((Run.bind_run hsay).trans hrun) hdoes
  | .disconnect i => exact step (Run.bind_run hsay) (close h)

theorem popCommand_run (m : Machine α) : (Run.popCommand : Run α (Option Command)) m =
    match m.worker.inbox with
    | [] => .ok none m
    | c :: inbox => .ok (some c) { m with worker := { m.worker with inbox } } := by
  show (match m.worker.inbox with | [] => _ | c :: inbox => _ : Run α (Option Command)) m = _
  cases m.worker.inbox <;> rfl

/-- Commands are taken out and failed, one after the other, until none is left. -/
theorem pop {n : Nat} (hn : m.worker.inbox.length ≤ n) (h : Run.failUpTo n m = .ok () m') : Does [.pop] m m' := by
  induction n generalizing m with
  | zero =>
    have hnone : m.worker.inbox = [] := List.length_eq_zero_iff.1 (Nat.le_zero.1 hn)
    have hpop := popCommand_run m
    rw [hnone] at hpop
    cases h
    exact last (Run.bind_run hpop)
  | succ n ih =>
    obtain ⟨first, m₁, hpop, h⟩ := Run.of_bind h
    cases first with
    | none =>
      cases h
      exact last (Run.bind_run hpop)
    | some c =>
      obtain ⟨_, m₂, hfail, hrest⟩ := Run.of_bind h
      have hinbox : m.worker.inbox = c :: m₁.worker.inbox := by
        rw [popCommand_run] at hpop
        split at hpop <;> cases hpop
        assumption
      have hfew : m₂.worker.inbox.length ≤ n := by
        rw [Run.KeepsInbox.failCommand c m₁ () m₂ hfail]
        rw [hinbox, List.length_cons] at hn
        exact Nat.le_of_succ_le_succ hn
      exact step (Run.bind_run hpop) ((fail hfail).append (ih hfew hrest))

theorem look (h : Run.settle m = .ok () m') : Does [.look] m m' := by
  change (if m.worker.exited = true then Run.failOrphans else pure () : Run α Unit) m = .ok () m' at h
  have hlook : Act.look.run m = (if m.worker.exited = true then pure ([.pop], []) else pure ([], []) :
    Run α (List Act × List Mark)) m := rfl
  split at h
  · rename_i hexited
    rw [if_pos hexited] at hlook
    exact step hlook (pop (Nat.le_refl _) h)
  · rename_i hexited
    rw [if_neg hexited] at hlook
    cases h
    exact last hlook

/-- What follows a ring does not hang on its answer. -/
theorem ring_run (m : Machine α) : ∃ m₁, Act.ring.run m = .ok ([], []) m₁ ∧ ∀ next : Run α Unit, (do
    if let .error e ← Run.ring then Run.say .warn s!"notify failed: {e.message}"
    next) m = next m₁ := by
  cases hring : (Run.ring : Run α (Except Error Unit)) m with
  | error fault m₁ => cases hring
  | ok answer m₁ =>
    cases answer with
    | error e =>
      obtain ⟨line, hsay⟩ := Run.say_run .warn s!"notify failed: {e.message}" m₁
      exact ⟨_, (Run.bind_run hring).trans (Run.bind_run hsay), fun next =>
        (Run.bind_run hring).trans (Run.bind_run hsay)⟩
    | ok _ => exact ⟨m₁, Run.bind_run hring, fun next => Run.bind_run hring⟩

/-- A command is handed over by putting it into the inbox, ringing, and looking whether the loop has come to its end. -/
theorem submit (h : Run.submit c m = .ok () m') : Does [.push c] m m' := by
  obtain ⟨placed, m₁, hplaced, h⟩ := Run.of_bind h
  cases placed with
  | true =>
    obtain ⟨m₂, hring, hnext⟩ := ring_run m₁
    have hsettle : Run.settle m₂ = .ok () m' := (hnext Run.settle).symm.trans h
    exact step (Run.bind_run hplaced) (cons hring (look hsettle))
  | false =>
    change (if m₁.worker.exited = true then Run.failCommand c else throw .inboxStalled : Run α Unit) m₁ = _ at h
    split at h
    · rename_i hexited
      have hstall : (Act.stall c).run m₁ = (if m₁.worker.exited = true then pure ([.fail c], []) else
        pure ([.push c], []) : Run α (List Act × List Mark)) m₁ := rfl
      rw [if_pos hexited] at hstall
      exact step (Run.bind_run hplaced) (step hstall (fail h))
    · cases h

/-- A receive is begun and handed over. -/
theorem receive {answer : OperationFuture} (h : Connection.receive i m = .ok answer m') : Does [.receive i] m m' := by
  obtain ⟨started, m₁, hstart, h⟩ := Run.of_bind h
  cases started with
  | error e =>
    cases h
    exact last (Run.bind_run hstart)
  | ok _ =>
    obtain ⟨_, m₂, hrecord, h⟩ := Run.of_bind h
    obtain ⟨_, m₃, hsubmit, h⟩ := Run.of_bind h
    cases h
    exact step ((Run.bind_run hstart).trans (Run.bind_run hrecord)) (submit hsubmit)

/-- A send is begun and handed over. -/
theorem send {length : Nat} {answer : Except Error OperationFuture} (h : Connection.send i length m = .ok answer m') :
    Does [.send i length] m m' := by
  obtain ⟨started, m₁, hstart, h⟩ := Run.of_bind h
  cases started with
  | error e =>
    cases h
    exact last (Run.bind_run hstart)
  | ok _ =>
    obtain ⟨_, m₂, hasked, h⟩ := Run.of_bind h
    obtain ⟨_, m₃, hbegan, h⟩ := Run.of_bind h
    obtain ⟨_, m₄, hsubmit, h⟩ := Run.of_bind h
    cases h
    exact step ((Run.bind_run hstart).trans ((Run.bind_run hasked).trans (Run.bind_run hbegan))) (submit hsubmit)

/-- A handle goes away, its slot is closed if it is idle, and its lease is given back. -/
theorem drop (hheld : i ∈ m.held) (h : Connection.drop i m = .ok () m') : Does [.leave i] m m' := by
  have hguard : Act.run (.leave i) m = Act.letGo i m := by
    show (if i ∈ m.held then Act.letGo i else pure ([], []) : Run α (List Act × List Mark)) m = _
    rw [if_pos hheld]
  obtain ⟨_, m₁, herase, h⟩ := Run.of_bind h
  obtain ⟨s?, m₂, hslot, h⟩ := Run.of_bind h
  obtain ⟨rfl, rfl⟩ : m₁.worker.slots[i]? = s? ∧ m₁ = m₂ := by
    cases hslot
    exact ⟨rfl, rfl⟩
  cases hs : m₁.worker.slots[i]? with
  | none =>
    rw [hs] at h hslot
    cases h
    exact last (hguard.trans ((Run.bind_run herase).trans (Run.bind_run hslot)))
  | some s =>
    rw [hs] at h hslot
    obtain ⟨_, m₃, hdetach, h⟩ := Run.of_bind h
    obtain ⟨answer, m₄, hstep, h⟩ := Run.of_bind h
    have hleave : (Act.leave i).run m = .ok ([.disconnect i, .release i], []) m₃ :=
      hguard.trans ((Run.bind_run herase).trans ((Run.bind_run hslot).trans (Run.bind_run hdetach)))
    cases answer with
    | error e => exact step hleave (cons (Run.bind_run hstep) (last (Run.bind_run h)))
    | ok _ =>
      obtain ⟨_, m₅, hsubmit, h⟩ := Run.of_bind h
      exact step hleave (cons (Run.bind_run hstep) ((submit hsubmit).append (last (Run.bind_run h))))

/-- Whether the socket could be bound tells what is done after it. -/
theorem bindSocket_run {fd : Int} {peer : Option Net.SocketAddress} {answer : Except Error Unit}
    (h : Run.startAccept i fd peer m = .ok answer m') : ∃ bound m₁, Run.bindSocket i fd peer m = .ok bound m₁ ∧
      match bound with
      | .error e => answer = .error e ∧ m' = m₁
      | .ok _ => answer = .ok () ∧ Run.submit (.accept i) m₁ = .ok () m' := by
  obtain ⟨s?, m₁, hslot, h⟩ := Run.of_bind h
  cases s? with
  | none =>
    cases h
    exact ⟨.error .noFreeSlot, m', Run.bind_run hslot, rfl, rfl⟩
  | some s =>
    obtain ⟨started, m₂, hstart, h⟩ := Run.of_bind h
    cases started with
    | error e =>
      obtain ⟨_, m₃, hfree, h⟩ := Run.of_bind h
      cases h
      exact ⟨.error e, m', (Run.bind_run hslot).trans ((Run.bind_run hstart).trans (Run.bind_run hfree)), rfl, rfl⟩
    | ok _ =>
      obtain ⟨_, m₃, hrecord, h⟩ := Run.of_bind h
      obtain ⟨_, m₄, hsubmit, h⟩ := Run.of_bind h
      cases h
      exact ⟨.ok (), m₃, (Run.bind_run hslot).trans ((Run.bind_run hstart).trans (Run.bind_run hrecord)), rfl,
        hsubmit⟩

/-- A slot is taken for a socket, the socket is bound, and the slot handed over. -/
theorem assign {fd : Int} {peer : Option Net.SocketAddress} {answer : Except Error Nat}
    (h : Run.assign fd peer m = .ok answer m') : Does [.assign fd peer] m m' := by
  obtain ⟨taken, m₁, htaken, h⟩ := Run.of_bind h
  cases taken with
  | none =>
    obtain ⟨_, m₂, hbump, h⟩ := Run.of_bind h
    obtain ⟨_, m₃, hclose, h⟩ := Run.of_bind h
    cases h
    exact last ((Run.bind_run htaken).trans ((Run.bind_run hbump).trans (Run.bind_run hclose)))
  | some i =>
    refine step (Run.bind_run htaken) ?_
    obtain ⟨accepted, m₂, haccept, h⟩ := Run.of_bind h
    obtain ⟨bound, m₃, hbound, hsubmit⟩ := bindSocket_run haccept
    cases bound with
    | error e =>
      obtain ⟨rfl, rfl⟩ := hsubmit
      obtain ⟨_, m₄, hclose, h⟩ := Run.of_bind h
      obtain ⟨_, m₅, hbump, h⟩ := Run.of_bind h
      cases h
      exact last ((Run.bind_run hbound).trans ((Run.bind_run hclose).trans (Run.bind_run hbump)))
    | ok _ =>
      obtain ⟨rfl, hsubmit⟩ := hsubmit
      cases h
      exact step (Run.bind_run hbound) (submit hsubmit)

/-- The slots are forced free one after the other, and then their number is told. -/
theorem force {left : List Nat} {forced before : Nat} {m₁ : Machine α} (h : Run.forceAll left m = .ok forced m₁)
    (hsay : Act.run (.force [] (forced + before)) m₁ = .ok ([], []) m') : Does [.force left before] m m' := by
  induction left generalizing m before forced with
  | nil =>
    cases h
    rw [Nat.zero_add] at hsay
    exact last hsay
  | cons i left ih =>
    obtain ⟨one, m₂, hone, h⟩ := Run.of_bind h
    obtain ⟨others, m₃, hothers, h⟩ := Run.of_bind h
    cases h
    rw [Nat.add_assoc] at hsay
    exact step ((Run.bind_run (x := Run.slot? i) rfl).trans (Run.bind_run hone)) (ih hothers hsay)

/-- What follows the registration's end does not hang on its answer. -/
theorem retract_run (m : Machine α) : ∃ m₁, Run.retract m = .ok () m₁ ∧ ∀ next : Run α Unit, (do
    if let .error e ← Run.deregister then Run.say .warn s!"buffer deregistration failed: {e.message}"
    Run.record .released
    next) m = next m₁ := by
  cases hderegister : (Run.deregister : Run α (Except Error Unit)) m with
  | error fault m₁ =>
    change (if (!m.worker.pool.registered) = true then _ else _ : Run α (Except Error Unit)) m = _ at hderegister
    split at hderegister <;> cases hderegister
  | ok answer m₁ =>
    cases answer with
    | error e =>
      obtain ⟨line, hsay⟩ := Run.say_run .warn s!"buffer deregistration failed: {e.message}" m₁
      exact ⟨_, (Run.bind_run hderegister).trans (Run.bind_run hsay), fun next =>
        (Run.bind_run hderegister).trans (Run.bind_run hsay)⟩
    | ok _ => exact ⟨_, Run.bind_run hderegister, fun next => Run.bind_run hderegister⟩

/-- The loop's end: what is left in the inbox is failed, the registration is undone, and every slot is forced free. -/
theorem finish (h : Run.finish m = .ok () m') : Does [.exit] m m' := by
  obtain ⟨_, m₁, hexit, h⟩ := Run.of_bind h
  obtain ⟨_, m₂, horphans, h⟩ := Run.of_bind h
  obtain ⟨m₃, hretract, hnext⟩ := retract_run m₂
  obtain ⟨w, m₄, hworker, h⟩ := Run.of_bind ((hnext _).symm.trans h)
  cases hworker
  obtain ⟨forced, m₄, hforced, htold⟩ := Run.of_bind h
  obtain ⟨w, m₅, hworker, htold⟩ := Run.of_bind htold
  have hsay : Act.run (.force [] (forced + 0)) m₄ = .ok ([], []) m' :=
    (Run.bind_run hworker).trans (Run.bind_run htold)
  have hpop := pop (Nat.le_refl _) horphans
  exact step (Run.bind_run hexit) (append hpop (step (Run.bind_run hretract) (force hforced hsay)))

end Act.Does

end SlotServer
