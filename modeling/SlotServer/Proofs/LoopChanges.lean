import SlotServer.Proofs.Changes
import SlotServer.Proofs.Runs

/-!
# What the dispatch loop changes

The loop and the teardown make the same few kinds of changes as the calls from outside, and so does whatever a worker is
made to do.

- `Discreet`: a handler makes changes only, as the calls of its handle do;
- `Makes.turn`, `Makes.teardown`: a turn, and the end of the loop;
- `Move.changes`: a move.
-/

namespace SlotServer

variable {α : Type} {part : Part}

namespace Makes

variable {i : Nat}

/-! ## The dispatch loop -/

/-- An operation that a slot asks for is queued. -/
theorem queue (hpart : part ≠ .call) {m : Machine α} {s : Slot} {op : Op} (hexited : m.worker.exited = false)
    (hs : m.worker.slots[i]? = some s) (hasks : s.Asks i op) :
    MakesAt part (Run.queue op : Run α (Except Error Unit)) m := by
  have hrun : (Run.queue op : Run α (Except Error Unit)) m = .ok (m.kernel.push op).1
      { m with kernel := (m.kernel.push op).2, trace := .ofPush op (m.kernel.push op).1 :: m.trace } := by
    have hkernel : (Run.kernel (·.push op) : Run α (Except Error Unit)) m =
      .ok (m.kernel.push op).1 { m with kernel := (m.kernel.push op).2 } := rfl
    refine (Run.bind_run hkernel).trans ?_
    cases (m.kernel.push op).1 <;> rfl
  exact .of_run hrun (.single (.push _ hexited hs hasks hpart))

theorem issueClose (hpart : part ≠ .call) : Makes part (· = false) (Run.issueClose i : Run α Unit) := by
  refine look (pure _) fun m s hm hs => (queue hpart hm hs (.inr rfl)).andThen (p := (· = false)) hm fun answer => ?_
  cases answer with
  | error e => exact bind say fun _ => closeSlot
  | ok _ => exact pure _

theorem disconnect (hpart : part ≠ .call) : Makes part (· = false) (Run.disconnect i : Run α Unit) := by
  refine bind (stepSlot fun s => Slot.alike_advance .rfl _ _) fun answer => ?_
  cases answer with
  | error e => exact pure _
  | ok _ => exact issueClose hpart

theorem issueHalf (hpart : part ≠ .call) (half : Half) :
    Makes part (· = false) (Run.issueHalf half i : Run α Unit) := by
  have hplace : ∀ (m : Machine α) (seg : Segment) place m', (Run.placeOf seg : Run α Nat) m = .ok place m' →
      place = seg.offset ∧ m' = m := by
    intro m seg place m' hrun
    change (Run.ofExcept (m.worker.pool.place seg) : Run α Nat) m = _ at hrun
    cases hat : m.worker.pool.place seg with
    | error fault =>
      rw [hat] at hrun
      cases hrun
    | ok offset =>
      rw [hat] at hrun
      cases hrun
      exact ⟨Pool.offset_of_place hat, rfl⟩
  have hstill : ∀ seg, Makes part (· = false) (Run.placeOf seg : Run α Nat) := fun seg =>
    bind worker fun _ => ofExcept _
  refine look (pure _) fun m s hm hs => (hstill _ m hm).bind fun place m' hrun => ?_
  obtain ⟨rfl, rfl⟩ := hplace m _ place m' hrun
  refine (queue hpart hm hs (.inl ⟨half, rfl⟩)).andThen (p := (· = false)) hm fun answer => ?_
  cases answer with
  | ok _ => exact pure _
  | error e =>
    refine bind bump fun _ => bind (stepSlot (Slot.alike_abortHalf half)) fun answer => ?_
    cases answer with
    | error e => exact pure _
    | ok _ => exact bind (issueClose hpart) fun _ => completeCell _ _

theorem violation {p : Bool → Prop} {e : Error} : Makes part p (Run.violation i e : Run α Unit) :=
  bind say fun _ => bump

theorem errnoOf {p : Bool → Prop} (result : Int32) : Makes part p (Run.errnoOf result : Run α Int32) := by
  unfold Run.errnoOf
  split
  · exact throw _
  · exact pure _

/-- A half whose operation has ended well is left, or its connection is closed where no handle is attached. -/
theorem delivered (hpart : part ≠ .call) (half : Half) (outcome : Outcome) : Makes part (· = false) (do
    if !((← Run.slot? i).any (·.attached)) then Run.disconnect i
    Run.completeCell ⟨i, half⟩ (Slot.completeHalf half outcome) : Run α Unit) := by
  refine bind slot? fun here => ?_
  split
  · exact bind (disconnect hpart) fun _ => completeCell _ _
  · exact completeCell _ _

theorem onReceive (hpart : part ≠ .call) (result : Int32) :
    Makes part (· = false) (Run.onReceive i result : Run α Unit) := by
  unfold Run.onReceive
  split
  · refine bind (stepSlot (Slot.alike_abortHalf .receive)) fun answer => ?_
    cases answer with
    | error e => exact violation
    | ok _ =>
      have hrest : ∀ outcome, Makes part (· = false) (do
          Run.issueClose i
          Run.completeReceive i outcome : Run α Unit) :=
        fun outcome => bind (issueClose hpart) fun _ => completeCell .receive _
      dsimp only
      split
      · exact bind (errnoOf result) fun _ => bind say fun _ => bind bump fun _ => bind (pure _) hrest
      · exact bind bump fun _ => bind (pure _) hrest
  · refine bind (stepSlot (Slot.alike_finishReceive _)) fun answer => ?_
    cases answer with
    | error e => exact violation
    | ok _ => exact bind bump fun _ => bind bump fun _ => delivered hpart .receive _

theorem onSend (hpart : part ≠ .call) (result : Int32) : Makes part (· = false) (Run.onSend i result : Run α Unit) := by
  unfold Run.onSend
  split
  · refine bind (stepSlot (Slot.alike_abortHalf .send)) fun answer => ?_
    cases answer with
    | error e => exact violation
    | ok _ =>
      refine bind (errnoOf result) fun _ => bind say fun _ => bind bump fun _ => ?_
      exact bind (issueClose hpart) fun _ => completeCell .send _
  · refine bind (stepSlot fun s => Slot.alike_advance .rfl _ _) fun answer => ?_
    cases answer with
    | error e => exact violation
    | ok _ => exact bind bump fun _ => bind bump fun _ => delivered hpart .send _

theorem onClose (result : Int32) : Makes part (· = false) (Run.onClose i result : Run α Unit) := by
  have hsettle : Makes part (· = false) (Run.settleClose i : Run α Unit) := by
    refine bind (stepSlot Slot.alike_finishDisconnect) fun answer => ?_
    cases answer with
    | error e => exact violation
    | ok _ => exact bind bump fun _ => bind say fun _ => release
  rw [Run.onClose_eq]
  split
  · exact bind (errnoOf result) fun _ => bind say fun _ => hsettle
  · exact hsettle

theorem route (hpart : part ≠ .call) (c : Completion) : Makes part (· = false) (Run.route c : Run α Unit) := by
  refine bind (remark rfl) fun _ => bind slot? fun here => ?_
  cases here with
  | none => exact bind say fun _ => bump
  | some s =>
    dsimp only
    split
    · exact onReceive hpart _
    · exact onSend hpart _
    · exact onClose _
    · exact bind say fun _ => bump

theorem abandon (hpart : part ≠ .call) : Makes part (· = false) (Run.abandon i : Run α Unit) := by
  refine bind (stepSlot fun s => Slot.alike_advance .rfl _ _) fun answer => ?_
  cases answer with
  | error e => exact pure _
  | ok _ => exact issueClose hpart

theorem setNoDelay {p : Bool → Prop} (fd : Int) :
    Makes part p (Run.setNoDelay i fd : Run α (Except Error Unit)) := by
  refine bind (remark rfl) fun _ => bind get fun m => ?_
  split
  · exact pure _
  · exact pure _

end Makes

/-- A handler makes nothing but changes, as the calls of its handle do. -/
def Discreet (serve : Run.Serve α) : Prop := ∀ i, Makes .all (fun _ => True) (serve i)

namespace Makes

variable {serve : Run.Serve α} {i : Nat}

theorem anyway {p : Bool → Prop} {x : Run α β} (hx : Makes part (fun _ => True) x) : Makes part p x :=
  fun m _ => hx m trivial

theorem takeOver (hserve : ∀ i, Makes part (fun _ => True) (serve i))
    (peer : Option Net.SocketAddress) : Makes part (· = false) (Run.takeOver serve i peer : Run α Unit) := by
  refine bind (stepSlot fun s => Slot.alike_advance .rfl _ _) fun answer => ?_
  cases answer with
  | error e => exact violation
  | ok _ =>
    refine bind bump fun _ => bind say fun _ => bind attach fun _ => bind (remark rfl) fun _ => ?_
    refine bind (hserve i).anyway fun answer => ?_
    cases answer with
    | error e => exact bind say fun _ => bump
    | ok _ => exact pure _

theorem onAccept (hpart : part ≠ .call) (hserve : ∀ i, Makes part (fun _ => True) (serve i)) :
    Makes part (· = false) (Run.onAccept serve i) := by
  refine bind slot? fun here => ?_
  cases here with
  | none => exact pure _
  | some s =>
    refine bind worker fun w => ?_
    dsimp only
    split
    · exact bind (abandon hpart) fun _ => pure _
    split
    · refine bind (setNoDelay _) fun answer => ?_
      cases answer with
      | error e => exact bind say fun _ => bind bump fun _ => bind (abandon hpart) fun _ => pure _
      | ok _ => exact takeOver hserve s.peer
    · exact takeOver hserve s.peer

theorem execute (hpart : part ≠ .call) (hserve : ∀ i, Makes part (fun _ => True) (serve i)) (c : Command) :
    Makes part (· = false) (Run.execute serve c) := by
  cases c with
  | accept i => exact onAccept hpart hserve
  | receive i => exact issueHalf hpart .receive
  | send i => exact issueHalf hpart .send
  | disconnect i => exact issueClose hpart

theorem executeUpTo (hserve : Discreet serve) (n : Nat) : Makes .all (· = false) (Run.executeUpTo serve n) := by
  induction n with
  | zero => exact pure _
  | succ n ih =>
    refine bind (popCommand fun _ _ hpart => absurd rfl hpart) fun c => ?_
    cases c with
    | none => exact pure _
    | some c => exact bind (execute Part.all_ne_call hserve c) fun _ => bind ih fun _ => pure _

theorem batch (hpart : part ≠ .call) (most : Nat) :
    Makes part (· = false) (do (← Run.kernel (·.harvest most)).forM Run.route : Run α PUnit) :=
  bind (kernel _) fun _ => forM (route hpart)

theorem harvestUpTo (hpart : part ≠ .call) (n : Nat) : Makes part (· = false) (Run.harvestUpTo n : Run α Nat) := by
  induction n with
  | zero => exact pure _
  | succ n ih =>
    refine bind worker fun w => bind (remark rfl) fun _ => bind (kernel _) fun cs => ?_
    refine bind (forM (route hpart)) fun _ => ?_
    split
    · exact bind ih fun _ => pure _
    · exact pure _

theorem outstanding {p : Bool → Prop} : Makes part p (Run.outstanding : Run α Nat) := bind get fun _ => pure _

theorem drainSlot (hpart : part ≠ .call) : Makes part (· = false) (Run.drainSlot i : Run α Unit) := by
  refine bind slot? fun here => ?_
  cases here with
  | none => exact pure _
  | some s =>
    dsimp only
    split
    · exact disconnect hpart
    · exact disconnect hpart
    · exact disconnect hpart
    · exact bind (remark rfl) fun _ => modifyKernel _
    · exact bind (remark rfl) fun _ => modifyKernel _
    · exact pure _

theorem drainSlots (hpart : part ≠ .call) : Makes part (· = false) (Run.drainSlots : Run α Unit) :=
  bind outstanding fun _ => bind say fun _ => bind worker fun _ => forM fun _ => drainSlot hpart

theorem beginDrain : Makes .all (· = false) (Run.beginDrain : Run α Unit) := by
  refine bind get fun m => bind (ofExcept _) fun _ => ?_
  exact bind (modifyWorker (fun _ => rfl) (fun _ => rfl) (fun _ => rfl) fun _ _ hpart => absurd rfl hpart) fun _ =>
    drainSlots Part.all_ne_call

theorem drained {p : Bool → Prop} : Makes part p (Run.drained : Run α Bool) := by
  refine bind worker fun w => ?_
  split
  · exact pure _
  · refine bind outstanding fun count => bind worker fun w => ?_
    split
    · exact pure _
    · refine bind get fun m => ?_
      split
      · exact bind say fun _ => pure _
      · exact pure _

theorem arm {p : Bool → Prop} : Makes part p (Run.arm : Run α Unit) := by
  refine bind (kernel _) fun answer => ?_
  cases answer with
  | error e => exact say
  | ok _ => exact pure _

theorem submitQueue (block : Bool) : Makes .all (· = false) (Run.submitQueue block : Run α Unit) := by
  have hsubmit : ∀ least, Makes .all (· = false) (Run.record (.submitted least) : Run α Unit) :=
    fun least m hm => .of_run rfl (.single (.submit hm rfl))
  refine bind worker fun w => bind get fun m => bind (hsubmit _) fun _ => bind (kernel _) fun answer => ?_
  cases answer with
  | error e => exact say
  | ok _ => exact pure _

/-- What a turn does once the queue was handed over. -/
theorem afterSubmit (hserve : Discreet serve) (block : Bool) : Makes .all (· = false) (do
    let completed ← Run.harvest
    let commands ← Run.drainInbox serve
    if (← Run.worker).deadline.isSome && block && completed = 0 && commands = 0 then Run.rest
    return true : Run α Bool) := by
  refine bind (bind get fun _ => harvestUpTo Part.all_ne_call _) fun completed => ?_
  refine bind (bind worker fun _ => executeUpTo hserve _) fun commands => bind worker fun w => ?_
  split
  · exact bind (modifyKernel _) fun _ => pure _
  · exact pure _

theorem turn (hserve : Discreet serve) (block : Bool) : Makes .all (· = false) (Run.turn serve block) := by
  have hturn : Makes .all (· = false) (do
      if ← Run.drained then return false
      Run.arm
      Run.submitQueue block
      let completed ← Run.harvest
      let commands ← Run.drainInbox serve
      if (← Run.worker).deadline.isSome && block && completed = 0 && commands = 0 then Run.rest
      return true : Run α Bool) := by
    refine bind drained fun done => ?_
    cases done with
    | true => exact pure _
    | false => exact bind arm fun _ => bind (submitQueue block) fun _ => afterSubmit hserve block
  refine bind worker fun w => ?_
  split
  · exact bind beginDrain fun _ => hturn
  · exact hturn

/-! ## The end of the loop -/

theorem deregister : Makes part (· = true) (Run.deregister : Run α (Except Error Unit)) := by
  intro m hm
  refine (worker (p := (· = true)) m hm).bind fun w m₁ hw => ?_
  cases hw
  dsimp only
  split
  · exact .pure _
  · rename_i hregistered
    exact .goesOn (y := Run.kernel (·.ask .unregister)) rfl (.single (.deregister hm (by simpa using hregistered)))
      (kernel (p := (· = true)) _ { m with
        worker := { m.worker with pool := { m.worker.pool with registered := false } }
        trace := .unregistered :: m.trace } hm)

theorem forceSlot {p : Bool → Prop} : Makes part p (Run.forceSlot i : Run α Bool) := by
  refine look (pure _) fun m s hm hs => ?_
  have hsettle : Makes part p (Run.settleForce i s : Run α Bool) := by
    unfold Run.settleForce
    split
    · exact bind closeNow fun _ => bind bump fun _ => bind release fun _ => pure _
    · exact bind bump fun _ => bind release fun _ => pure _
  dsimp only
  by_cases hfree : s.state = .disconnected
  · rw [Slot.force_free hfree]
    exact (setSlot hs .rfl).andThen hm fun _ => pure _
  · rw [Slot.force_live hfree]
    refine (setSlot (t := s.unbound) hs ⟨rfl, rfl, rfl⟩).andThen hm fun _ => ?_
    dsimp only
    split
    · exact bind (completeCell .receive _) fun _ => hsettle
    · exact bind (completeCell .send _) fun _ => hsettle
    · exact hsettle

theorem forceAll {p : Bool → Prop} (l : List Nat) : Makes part p (Run.forceAll l : Run α Nat) := by
  induction l with
  | nil => exact pure _
  | cons i l ih => exact bind forceSlot fun _ => bind ih fun _ => pure _

end Makes

/-! ## Moves -/

namespace Run

variable {m m' : Machine α}

/-- Once it was undone, the pool is no longer registered. -/
theorem registered_deregister {answer : Except Error Unit} (hrun : deregister m = .ok answer m') :
    m'.worker.pool.registered = false := by
  obtain ⟨w, m₁, hw, hrest⟩ := of_bind hrun
  cases hw
  dsimp only at hrest
  split at hrest
  · rename_i hnone
    cases hrest
    simpa using hnone
  · cases hrest
    rfl

/-- The teardown fails what is left in the inbox, undoes the registration, lets the kernel's side go and forces the
slots free. -/
theorem of_finish (hrun : finish m = .ok () m') : ∃ m₁ m₂, failOrphans m.exit = .ok () m₁ ∧ Changes .all m₁ m₂ ∧
    m₂.worker.pool.registered = false ∧ Changes .all { m₂ with trace := .released :: m₂.trace } m' := by
  have hforce : Makes .all (fun _ => True) (do
      let forced ← forceAll (List.range (← worker).slots.length)
      let counted := (← worker).counters.text
      say .info s!"stopped ({forced} connections force-closed) {counted}" : Run α Unit) :=
    .bind .worker fun _ => .bind (.forceAll _) fun _ => .bind .worker fun _ => .say
  obtain ⟨⟨⟩, m₀, hexit, hrest⟩ := of_bind hrun
  cases hexit
  obtain ⟨⟨⟩, m₁, horphans, hrest⟩ := of_bind hrest
  have hfailed : Changes .all m.exit m₁ := Makes.failOrphans m.exit rfl () m₁ horphans
  have hexited : m₁.worker.exited = true := hfailed.exited
  obtain ⟨answer, m₂, hderegister, hrest⟩ := of_bind hrest
  have hchanges : Changes .all m₁ m₂ := Makes.deregister m₁ hexited answer m₂ hderegister
  have hregistered := registered_deregister hderegister
  refine ⟨m₁, ?_⟩
  cases answer with
  | ok _ => exact ⟨m₂, horphans, hchanges, hregistered, hforce _ trivial () m' hrest⟩
  | error e =>
    obtain ⟨⟨⟩, m₃, hsay, hrest⟩ := of_bind hrest
    cases hsay
    exact ⟨_, horphans, hchanges.tail (.remark rfl), hregistered, hforce _ trivial () m' hrest⟩

/-- The teardown makes changes only, after the loop has come to its end. -/
theorem changes_finish (hrun : finish m = .ok () m') : Changes .all m.exit m' := by
  obtain ⟨m₁, m₂, horphans, hchanges, -, hrest⟩ := of_finish hrun
  have hfailed : Changes .all m.exit m₁ := Makes.failOrphans m.exit rfl () m₁ horphans
  have hexited : m₂.worker.exited = true := hchanges.exited.trans hfailed.exited
  exact ((hfailed.trans hchanges).tail (.release hexited)).trans hrest

end Run

variable {serve : Run.Serve α} {m m' : Machine α}

theorem Move.changes (hserve : Discreet serve) {move : Move} (hallowed : move.Allowed m)
    (hrun : move.run serve m = .ok () m') : Changes .all m m' ∨ Changes .all m.exit m' := by
  have hmade : ∀ p, p m.worker.exited → Makes .all p (move.run serve) → Changes .all m m' ∨ Changes .all m.exit m' :=
    fun p hm hmakes => .inl (hmakes m hm () m' hrun)
  cases move with
  | assign fd peer => exact hmade (fun _ => True) trivial (.bind (.assign fd peer) fun _ => .pure _)
  | deed i d => exact hmade (fun _ => True) trivial (.deed d)
  | stop => exact hmade (fun _ => True) trivial .requestStop
  | turn block => exact hmade _ hallowed (.bind (.turn hserve block) fun _ => .pure _)
  | finish => exact .inr (Run.changes_finish hrun)
  | drain => exact hmade _ hallowed .beginDrain
  | take => exact hmade _ hallowed (.batch Part.all_ne_call 1)
  | command => exact hmade _ hallowed (.bind (.executeUpTo hserve 1) fun _ => .pure _)

namespace Application

/-- An application does nothing to a connection but keep its handle or let it go. -/
theorem makes_serve (i : Nat) : Makes part (fun _ => True) (Application.serve i) := by
  have hspawn : ∀ service, Makes part (fun _ => True) (spawn service i) := by
    intro service
    refine .bind (.kernel _) fun answer => ?_
    cases answer with
    | ok _ => exact .bind (.remark rfl) fun _ => .bind (.modifyApp _) fun _ => .pure _
    | error e =>
      dsimp only
      split
      · exact .bind .drop fun _ => .pure _
      · exact .pure _
  rw [serve_eq]
  refine .bind .get fun m => ?_
  dsimp only
  split
  · exact .bind (.modifyApp _) fun _ => hspawn _
  · exact hspawn _

theorem discreet_serve : Discreet Application.serve := makes_serve

end Application

end SlotServer
