import SlotServer.Proofs.Changes
import SlotServer.Proofs.Leases
import SlotServer.Proofs.Upkeep

/-!
# The strides of the dispatch loop

The loop keeps up what the calls from outside keep up, but where it gives a connection to the handler. So what it does
is a row of strides: upkeep, and connections that are given to the handler, each from a slot whose socket was just
bound. A worker that drains gives none.

- `Tidy.conclude`, `Tidy.harvest`, `Tidy.beginDrain`, `Tidy.finish`: the parts of the loop that only keep up;
- `Enters`, `Binds`, `Serves`: a socket is bound to a slot, and its connection is given to the handler;
- `Strides`, `Walks`: a row of strides, and that a program makes one (`Walks.turn`);
- `Run.of_assign`: a socket that was offered is bound, or there is nothing but upkeep.
-/

namespace SlotServer

variable {α β γ : Type}

/-- What follows once a completion was recorded. -/
def Run.conclude (c : Completion) : Run α Unit := do
  let i := c.ctx.slot
  match ← slot? i with
  | none =>
    say .error s!"completion for unknown slot {i}"
    bump .violations 1
  | some s =>
    match s.state with
    | .receiving => onReceive i c.result
    | .sending => onSend i c.result
    | .disconnecting => onClose i c.result
    | state =>
      say .error s!"unexpected completion ({c.result}) for slot {i} in state {state.name}"
      bump .violations 1

theorem Run.route_eq (c : Completion) : (route c : Run α Unit) = (do
    record (.answered c)
    conclude c) := rfl

/-- The kernel takes an operation, which is one more that is unanswered, or does not take it. -/
theorem Kernel.inflight_push (k : Kernel) (op : Op) : (k.push op).2.accounting = k.accounting ∧
    ((∃ e, (k.push op).1 = .error e) ∧ (k.push op).2.inflight = k.inflight ∨
      (k.push op).1 = .ok () ∧ (k.push op).2.inflight = k.inflight + 1) := by
  unfold push ask
  dsimp only
  cases k.schedule .push (k.asked .push) with
  | some e => exact ⟨rfl, .inl ⟨⟨e, rfl⟩, rfl⟩⟩
  | none =>
    dsimp only
    cases k.schedule (callOf op) _ with
    | some e => exact ⟨rfl, .inl ⟨⟨e, rfl⟩, rfl⟩⟩
    | none =>
      cases op with
      | receive => exact ⟨rfl, .inr ⟨rfl, rfl⟩⟩
      | send => exact ⟨rfl, .inr ⟨rfl, rfl⟩⟩
      | close ctx fd =>
        unfold accept
        dsimp only
        split <;> exact ⟨rfl, .inr ⟨rfl, rfl⟩⟩

theorem Run.queue_run (op : Op) (m : Machine α) : (queue op : Run α (Except Error Unit)) m = .ok (m.kernel.push op).1
    { m with kernel := (m.kernel.push op).2, trace := .ofPush op (m.kernel.push op).1 :: m.trace } := by
  have hkernel : (Run.kernel (·.push op) : Run α (Except Error Unit)) m =
    .ok (m.kernel.push op).1 { m with kernel := (m.kernel.push op).2 } := rfl
  refine (bind_run hkernel).trans ?_
  cases (m.kernel.push op).1 <;> rfl

namespace Tidy

variable {strict : Bool} {i : Nat}

/-! ## Operations for the kernel -/

theorem queue {op : Op} : Tidy strict 0 (Run.queue op : Run α (Except Error Unit)) := by
  intro m
  obtain ⟨haccounting, hpush⟩ := m.kernel.inflight_push op
  refine .of_run (Run.queue_run op m) (.of_similar ⟨rfl, rfl, rfl, rfl, rfl⟩ ?_ (.refl _) fun _ => ⟨haccounting, ?_⟩)
  · cases (m.kernel.push op).1 <;> rfl
  · rcases hpush with ⟨⟨e, he⟩, hsame⟩ | ⟨hok, hmore⟩
    · rw [he, hsame]
      rfl
    · rw [hok, hmore]
      show m.kernel.inflight + 1 + _ = m.kernel.inflight + (outstanding m.trace ++ [op]).length
      rw [List.length_append, List.length_singleton]
      omega

theorem issueClose : Tidy strict 0 (Run.issueClose i : Run α Unit) := by
  refine look (pure _) fun m s _ => (queue m).andThen fun answer => ?_
  cases answer with
  | error e => exact bind say fun _ => closeSlot
  | ok _ => exact pure _

theorem disconnect : Tidy strict 0 (Run.disconnect i : Run α Unit) := by
  refine bind (stepSlot fun s => .advance .rfl (by decide) nofun nofun) fun answer => ?_
  cases answer with
  | error e => exact pure _
  | ok _ => exact issueClose

theorem issueHalf (half : Half) : Tidy strict 0 (Run.issueHalf half i : Run α Unit) := by
  have hplace : ∀ seg, Tidy strict 0 (Run.placeOf seg : Run α Nat) := fun seg => bind worker fun _ => ofExcept _
  refine bind slot? fun here => ?_
  cases here with
  | none => exact pure _
  | some s =>
    refine bind (hplace _) fun place => bind queue fun answer => ?_
    cases answer with
    | ok _ => exact pure _
    | error e =>
      refine bind (bump nofun nofun) fun _ => bind (stepSlot (.abortHalf half)) fun answer => ?_
      cases answer with
      | error e => exact pure _
      | ok _ => exact bind issueClose fun _ => completeCell _ _

/-! ## Completions -/

theorem violation {e : Error} : Tidy strict 0 (Run.violation i e : Run α Unit) :=
  bind say fun _ => bump nofun nofun

theorem errnoOf (result : Int32) : Tidy strict 0 (Run.errnoOf result : Run α Int32) := by
  unfold Run.errnoOf
  split
  · exact throw _
  · exact pure _

/-- A half whose operation has ended well is left, or its connection is closed where no handle is attached. -/
theorem delivered (half : Half) (outcome : Outcome) : Tidy strict 0 (do
    if !((← Run.slot? i).any (·.attached)) then Run.disconnect i
    Run.completeCell ⟨i, half⟩ (Slot.completeHalf half outcome) : Run α Unit) := by
  refine bind slot? fun here => ?_
  split
  · exact bind disconnect fun _ => completeCell _ _
  · exact completeCell _ _

theorem onReceive (result : Int32) : Tidy strict 0 (Run.onReceive i result : Run α Unit) := by
  unfold Run.onReceive
  split
  · refine bind (stepSlot (.abortHalf .receive)) fun answer => ?_
    cases answer with
    | error e => exact violation
    | ok _ =>
      have hrest : ∀ outcome, Tidy strict 0 (do
          Run.issueClose i
          Run.completeReceive i outcome : Run α Unit) :=
        fun outcome => bind issueClose fun _ => completeCell .receive _
      dsimp only
      split
      · exact bind (errnoOf result) fun _ => bind say fun _ => bind (bump nofun nofun) fun _ => bind (pure _) hrest
      · exact bind (bump nofun nofun) fun _ => bind (pure _) hrest
  · refine bind (stepSlot (.finishReceive _)) fun answer => ?_
    cases answer with
    | error e => exact violation
    | ok _ => exact bind (bump nofun nofun) fun _ => bind (bump nofun nofun) fun _ => delivered .receive _

theorem onSend (result : Int32) : Tidy strict 0 (Run.onSend i result : Run α Unit) := by
  unfold Run.onSend
  split
  · refine bind (stepSlot (.abortHalf .send)) fun answer => ?_
    cases answer with
    | error e => exact violation
    | ok _ =>
      refine bind (errnoOf result) fun _ => bind say fun _ => bind (bump nofun nofun) fun _ => ?_
      exact bind issueClose fun _ => completeCell .send _
  · refine bind (stepSlot fun s => .advance .rfl (by decide) nofun nofun) fun answer => ?_
    cases answer with
    | error e => exact violation
    | ok _ => exact bind (bump nofun nofun) fun _ => bind (bump nofun nofun) fun _ => delivered .send _

theorem onClose (result : Int32) : Tidy strict 0 (Run.onClose i result : Run α Unit) := by
  have hsettle : Tidy strict 0 (Run.settleClose i : Run α Unit) :=
    stepUnbound (fun _ => violation) fun _ => bumpClose (bind say fun _ => release)
  rw [Run.onClose_eq]
  split
  · exact bind (errnoOf result) fun _ => bind say fun _ => hsettle
  · exact hsettle

theorem conclude (c : Completion) : Tidy strict 0 (Run.conclude c : Run α Unit) := by
  refine bind slot? fun here => ?_
  cases here with
  | none => exact bind say fun _ => bump nofun nofun
  | some s =>
    dsimp only
    split
    · exact onReceive _
    · exact onSend _
    · exact onClose _
    · exact bind say fun _ => bump nofun nofun

/-- A completion that is taken to its slot. The operation that it answers is no longer outstanding. -/
theorem route (c : Completion) : Tidy false 0 (Run.route c : Run α Unit) :=
  bind (fun _ => .of_run rfl (.of_similar ⟨rfl, rfl, rfl, rfl, rfl⟩ rfl (.refl _) nofun)) fun _ => conclude c

theorem harvestUpTo (n : Nat) : Tidy false 0 (Run.harvestUpTo n : Run α Nat) := by
  induction n with
  | zero => exact pure _
  | succ n ih =>
    refine bind worker fun w => bind (record rfl) fun _ => bind (kernel nofun) fun cs => bind (forM route) fun _ => ?_
    split
    · exact bind ih fun _ => pure _
    · exact pure _

theorem harvest : Tidy false 0 (Run.harvest : Run α Nat) := bind get fun _ => harvestUpTo _

/-! ## The rest of a turn -/

theorem abandon : Tidy strict 0 (Run.abandon i : Run α Unit) := by
  refine bind (stepSlot fun s => .advance .rfl (by decide) nofun nofun) fun answer => ?_
  cases answer with
  | error e => exact pure _
  | ok _ => exact issueClose

theorem setNoDelay (fd : Int) : Tidy strict 0 (Run.setNoDelay i fd : Run α (Except Error Unit)) := by
  refine bind (record rfl) fun _ => bind get fun m => ?_
  split
  · exact pure _
  · exact pure _

theorem outstanding : Tidy strict 0 (Run.outstanding : Run α Nat) := bind get fun _ => pure _

theorem drainSlot : Tidy strict 0 (Run.drainSlot i : Run α Unit) := by
  refine bind slot? fun here => ?_
  cases here with
  | none => exact pure _
  | some s =>
    dsimp only
    split
    · exact disconnect
    · exact disconnect
    · exact disconnect
    · exact bind (record rfl) fun _ => modifyKernel fun _ => ⟨rfl, rfl⟩
    · exact bind (record rfl) fun _ => modifyKernel fun _ => ⟨rfl, rfl⟩
    · exact pure _

theorem drained : Tidy strict 0 (Run.drained : Run α Bool) := by
  refine bind worker fun w => ?_
  split
  · exact pure _
  · refine bind outstanding fun count => bind worker fun w => ?_
    split
    · exact pure _
    · refine bind get fun m => ?_
      split
      · exact bind say fun _ => pure _
      · exact pure _

theorem arm : Tidy strict 0 (Run.arm : Run α Unit) := by
  have harm : Tidy strict 0 (Run.kernel Kernel.arm : Run α (Except Error Unit)) := by
    refine kernel fun _ k => ?_
    unfold Kernel.arm Kernel.ask
    dsimp only
    cases k.schedule .arm (k.asked .arm) <;> exact ⟨rfl, rfl⟩
  refine bind harm fun answer => ?_
  cases answer with
  | error e => exact say
  | ok _ => exact pure _

theorem submitQueue (block : Bool) : Tidy strict 0 (Run.submitQueue block : Run α Unit) := by
  refine bind worker fun w => bind get fun m => bind (record rfl) fun _ => bind (ask _) fun answer => ?_
  cases answer with
  | error e => exact say
  | ok _ => exact pure _

theorem rest : Tidy strict 0 (Run.rest : Run α Unit) := modifyKernel fun _ => ⟨rfl, rfl⟩

/-! ## The end of the loop -/

theorem deregister : Tidy strict 0 (Run.deregister : Run α (Except Error Unit)) := by
  refine bind worker fun w => ?_
  split
  · exact pure _
  · exact bind (modifyWorker fun _ => ⟨rfl, rfl, rfl, rfl, rfl⟩) fun _ => bind (record rfl) fun _ => ask _

theorem forceSlot : Tidy strict 0 (Run.forceSlot i : Run α Bool) := by
  refine look (pure _) fun m s hs b m' hrun => ?_
  dsimp only at hrun
  by_cases hfree : s.state = .disconnected
  · rw [Slot.force_free hfree] at hrun
    exact ((setSlot hs .rfl).andThen fun _ => pure _) b m' hrun
  · rw [Slot.force_live hfree] at hrun
    have hsettle : Tidy strict 1 (Run.settleForce i s : Run α Bool) := by
      unfold Run.settleForce
      split
      · exact bind closeNow fun _ => bumpClose (bind release fun _ => pure _)
      · exact bumpClose (bind release fun _ => pure _)
    obtain ⟨⟨⟩, m₁, hput, hrest⟩ := Run.of_bind hrun
    cases hput
    -- the close that is counted makes up for the socket that the slot let go of
    have hcounted : ∀ x : Run α Bool, Tidy strict 1 x →
        x { m with worker := m.worker.setSlot i s.unbound } = .ok b m' → Upkeep strict 0 m m' := by
      intro x hx hrun
      have hboth : Upkeep strict (-1 + 1) m m' := (Upkeep.unbound hs hfree).trans (hx _ b m' hrun)
      rwa [show (-1 : UInt64) + 1 = 0 from rfl] at hboth
    refine hcounted _ ?_ hrest
    dsimp only
    split
    · exact bind (completeCell .receive _) fun _ => hsettle
    · exact bind (completeCell .send _) fun _ => hsettle
    · exact hsettle

theorem forceAll (l : List Nat) : Tidy strict 0 (Run.forceAll l : Run α Nat) := by
  induction l with
  | nil => exact pure _
  | cons i l ih => exact bind forceSlot fun _ => bind ih fun _ => pure _

/-- The teardown. The kernel's side is let go, and with it whatever is outstanding. -/
theorem finish : Tidy false 0 (Run.finish : Run α Unit) := by
  have hforce : Tidy false 0 (do
      Run.record .released
      let forced ← Run.forceAll (List.range (← Run.worker).slots.length)
      let counted := (← Run.worker).counters.text
      Run.say .info s!"stopped ({forced} connections force-closed) {counted}" : Run α Unit) := by
    refine bind (fun _ => .of_run rfl (.of_similar ⟨rfl, rfl, rfl, rfl, rfl⟩ rfl (.refl _) nofun)) fun _ => ?_
    exact bind worker fun _ => bind (forceAll _) fun _ => bind worker fun _ => say
  refine bind (modifyWorker fun _ => ⟨rfl, rfl, rfl, rfl, rfl⟩) fun _ => bind failOrphans fun _ => ?_
  refine bind deregister fun answer => ?_
  cases answer with
  | ok _ => exact hforce
  | error e => exact bind say fun _ => hforce

theorem requestStop {m m' : Machine α} (hrun : Run.requestStop m = .ok () m') :
    Upkeep strict 0 { m with worker := { m.worker with stopping := true } } m' := by
  obtain ⟨⟨⟩, m₁, hmodify, hrest⟩ := Run.of_bind hrun
  cases hmodify
  refine bind ring (fun answer => ?_) _ () m' hrest
  cases answer with
  | ok _ => exact pure _
  | error e => exact say

end Tidy

namespace Machine

/-- The machine once a turn of its loop has begun. -/
def opened (m : Machine α) : Machine α := if m.worker.isToDrain then m.drain else m

end Machine

/-- The first turn after a request to stop keeps up, once the worker drains. -/
theorem Tidy.beginDrain {strict : Bool} {m m' : Machine α} (hrun : Run.beginDrain m = .ok () m') :
    Upkeep strict 0 m.drain m' := by
  have hslots : Tidy strict 0 (Run.drainSlots : Run α Unit) :=
    bind outstanding fun _ => bind say fun _ => bind worker fun _ => forM fun _ => drainSlot
  rw [Run.beginDrain_run (Run.not_overlong_of_beginDrain hrun)] at hrun
  exact hslots m.drain () m' hrun

/-- The time that is left is counted from when the drain begins. -/
theorem Run.deadline_of_beginDrain {m m' : Machine α} (hrun : beginDrain m = .ok () m') :
    m'.worker.deadline = some (m.kernel.now + m.worker.grace) := by
  have hkept : Upkeep false 0 m.drain m' := Tidy.beginDrain hrun
  exact hkept.deadline

namespace Run

/-- A turn begins: the first one after a request to stop begins the drain. -/
def openTurn : Run α Unit := do if (← worker).isToDrain then beginDrain

/-- What a turn does unless the drain is over. -/
def goOn (serve : Serve α) (block : Bool) : Run α Bool := do
  arm
  submitQueue block
  let completed ← harvest
  let commands ← drainInbox serve
  if (← worker).deadline.isSome && block && completed = 0 && commands = 0 then rest
  return true

theorem openTurn_eq (m : Machine α) :
    openTurn m = (if m.worker.isToDrain then beginDrain else pure () : Run α Unit) m := rfl

/-- A turn that has begun was not to begin a drain whose end no clock can tell. -/
theorem not_balks_of_openTurn {m m' : Machine α} (hrun : openTurn m = .ok () m') : ¬ m.Balks := by
  rintro ⟨hdrain, hlong⟩
  rw [openTurn_eq, if_pos hdrain, beginDrain_overlong hlong] at hrun
  cases hrun

variable {serve : Serve α} {block : Bool}

theorem turn_eq : turn serve block = (do
    openTurn
    if ← drained then return false
    goOn serve block) := by
  funext m
  show (do
    if m.worker.isToDrain then beginDrain
    if ← drained then return false
    goOn serve block : Run α Bool) m = (do
    (if m.worker.isToDrain then beginDrain else pure ())
    if ← drained then return false
    goOn serve block : Run α Bool) m
  split <;> rfl

/-- A turn begins, sees whether the drain is over, and goes on if it is not. -/
theorem of_turn {b : Bool} {m m' : Machine α} (hrun : turn serve block m = .ok b m') :
    ∃ m₁ done m₂, openTurn m = .ok () m₁ ∧ drained m₁ = .ok done m₂ ∧
      (if done then pure false else goOn serve block : Run α Bool) m₂ = .ok b m' := by
  rw [turn_eq] at hrun
  obtain ⟨⟨⟩, m₁, hopen, hrest⟩ := of_bind hrun
  obtain ⟨done, m₂, hdone, hrest⟩ := of_bind hrest
  exact ⟨m₁, done, m₂, hopen, hdone, hrest⟩

/-- What a turn does before it looks into the inbox. -/
def takeIn (block : Bool) : Run α Nat := do
  arm
  submitQueue block
  harvest

/-- A turn whose drain is not over takes completions in, empties the inbox, and may rest. Such a turn goes on. -/
theorem steps_of_goOn {b : Bool} {m m' : Machine α} (hrun : goOn serve block m = .ok b m') :
    b = true ∧ ∃ completed m₁ commands m₂, takeIn block m = .ok completed m₁ ∧
      drainInbox serve m₁ = .ok commands m₂ ∧ (m' = m₂ ∨ rest m₂ = .ok () m') := by
  obtain ⟨⟨⟩, m₁, harm, hrest⟩ := of_bind hrun
  obtain ⟨⟨⟩, m₂, hsubmit, hrest⟩ := of_bind hrest
  obtain ⟨completed, m₃, hharvest, hrest⟩ := of_bind hrest
  obtain ⟨commands, m₄, hdrain, hrest⟩ := of_bind hrest
  have htaken : takeIn block m = .ok completed m₃ := (bind_run harm).trans ((bind_run hsubmit).trans hharvest)
  obtain ⟨w, m₅, hworker, hrest⟩ := of_bind hrest
  cases hworker
  split at hrest
  · obtain ⟨⟨⟩, m₅, hslept, hrest⟩ := of_bind hrest
    cases hrest
    exact ⟨rfl, completed, m₃, commands, m₄, htaken, hdrain, .inr hslept⟩
  · cases hrest
    exact ⟨rfl, completed, m₃, commands, m', htaken, hdrain, .inl rfl⟩

end Run

/-- A turn begins with nothing but upkeep, but for the drain. -/
theorem Tidy.openTurn {strict : Bool} {m m' : Machine α} (hrun : Run.openTurn m = .ok () m') :
    Upkeep strict 0 m.opened m' := by
  unfold Machine.opened
  rw [Run.openTurn_eq] at hrun
  split at hrun
  · rename_i hdrain
    rw [if_pos hdrain]
    exact beginDrain hrun
  · rename_i hdrain
    rw [if_neg hdrain]
    cases hrun
    exact .refl m

/-- A turn begins, and the slots are as between operations. -/
theorem Regime.openTurn {serve : Run.Serve α} (G : Regime serve) {m : Machine α} (h : m.All G.rest [])
    (hexited : m.worker.exited = false) :
    Holds (fun fault => G.faults fault ∨ fault = .timeOverflow ∧ m.Balks) (Run.openTurn : Run α Unit) m fun _ m' =>
      m'.All G.rest [] ∧ m'.worker.exited = false := by
  refine Holds.bind (Holds.worker ?_)
  split
  · rename_i hdrain
    exact (G.beginDrain h hexited).widen fun _ hfault => hfault.imp_right fun ⟨hover, hlong⟩ => ⟨hover, hdrain, hlong⟩
  · exact Holds.pure ⟨h, hexited⟩

/-! ## Sockets that are bound, connections that are given to the handler -/

/-- A slot goes on from one state to another, and the record tells of it. -/
structure Enters (i : Nat) (before after : SlotState) (e : Event) (m m' : Machine α) : Prop where
  slot : ∃ s t : Slot, m.worker.slots[i]? = some s ∧ s.state = before ∧ t.state = after ∧ t.index = s.index ∧
    m'.worker.slots = m.worker.slots.set i t
  services : m'.services = e :: m.services
  disconnects : m'.worker.counters.disconnects = m.worker.counters.disconnects
  stopping : m'.worker.stopping = m.worker.stopping
  deadline : m'.worker.deadline = m.worker.deadline
  even : m.Even m'

/-- A socket is bound to a slot. -/
structure Binds (i : Nat) (fd : Int) (m m' : Machine α) : Prop
    extends Enters i .disconnected .accepting (.bound i fd) m m' where
  accepts : m'.worker.counters.accepts = m.worker.counters.accepts
  held : m'.held = m.held

/-- The connection of a slot is given to the handler. -/
structure Serves (i : Nat) (m m' : Machine α) : Prop extends Enters i .accepting .accepted (.served i) m m' where
  working : m.worker.deadline = none
  accepts : m'.worker.counters.accepts = m.worker.counters.accepts + 1
  held : m'.held = i :: m.held

/-- Where a handler is started, it keeps up. -/
def Tame (strict : Bool) (serve : Run.Serve α) : Prop := ∀ i m, i ∈ m.held → TidyAt strict 0 (serve i) m

/-- Starting a handler leaves the kernel's count of unanswered operations in step with the record. -/
def Thrifty (serve : Run.Serve α) : Prop := ∀ i m b m', serve i m = .ok b m' → m.Even m'

theorem Event.isService_of_aside {e : Event} (h : e.Aside) : e.isService = false := by
  cases e with
  | bound i fd => exact (of_decide_eq_false (h i) rfl).elim
  | served i => exact (of_decide_eq_false (h i) rfl).elim
  | _ => rfl

/-- A row of calls keeps up. -/
theorem Upkeep.of_deeds {i : Nat} {m m' : Machine α} (h : Deeds i m m') : Upkeep false 0 m m' := by
  induction h with
  | done m => exact .refl m
  | deed d _ hrun _ ih => exact (Tidy.deed d _ () _ hrun).andThen ih
  | @aside m m'' kernel app events _ hevents _ ih =>
    have hnone : events.filter (·.isService) = [] := List.filter_eq_nil_iff.2 fun e he h =>
      Bool.false_ne_true ((Event.isService_of_aside (hevents e he)).symm.trans h)
    have hservices : ({ m with kernel, app, trace := events ++ m.trace } : Machine α).services = m.services := by
      rw [Machine.services, List.filter_append, hnone]
      rfl
    have haside : Upkeep false 0 m { m with kernel, app, trace := events ++ m.trace } :=
      .of_similar ⟨rfl, rfl, rfl, rfl, rfl⟩ hservices (.refl _) nofun
    exact haside.andThen ih

theorem Modest.tame {serve : Run.Serve α} (h : Modest serve) : Tame false serve := by
  intro i m hheld b m' hrun
  have hacted := h i m hheld
  rw [hrun] at hacted
  exact .of_deeds hacted

theorem Thrifty.tame {serve : Run.Serve α} (h : Thrifty serve) (hmodest : Modest serve) : Tame true serve :=
  fun i m hheld b m' hrun => { hmodest.tame i m hheld b m' hrun with even := fun _ => h i m b m' hrun }

/-! ## Strides -/

/-- Upkeep, or a connection that is given to the handler. -/
inductive Stride (strict : Bool) (m : Machine α) : Machine α → Prop
  | upkeep {m' : Machine α} (h : Upkeep strict 0 m m') : Stride strict m m'
  | serve {i : Nat} {m' : Machine α} (h : Serves i m m') : Stride strict m m'

/-- A row of strides. -/
abbrev Strides (strict : Bool) : Machine α → Machine α → Prop := Relation.ReflTransGen (Stride strict)

theorem Upkeep.strides {strict : Bool} {m m' : Machine α} (h : Upkeep strict 0 m m') : Strides strict m m' :=
  .single (.upkeep h)

theorem Strides.deadline {strict : Bool} {m m' : Machine α} (h : Strides strict m m') :
    m'.worker.deadline = m.worker.deadline := by
  induction h with
  | refl => rfl
  | tail _ hstride ih =>
    cases hstride with
    | upkeep h => exact h.deadline.trans ih
    | serve h => exact h.deadline.trans ih

theorem Strides.stopping {strict : Bool} {m m' : Machine α} (h : Strides strict m m') :
    m'.worker.stopping = m.worker.stopping := by
  induction h with
  | refl => rfl
  | tail _ hstride ih =>
    cases hstride with
    | upkeep h => exact h.stopping.trans ih
    | serve h => exact h.stopping.trans ih

/-- A worker that drains gives no connection to the handler. -/
theorem Strides.upkeep {strict : Bool} {m m' : Machine α} (h : Strides strict m m')
    (hdraining : m.worker.deadline.isSome = true) : Upkeep strict 0 m m' := by
  induction h with
  | refl => exact .refl m
  | tail hbefore hstride ih =>
    cases hstride with
    | upkeep h => exact ih.andThen h
    | serve h =>
      rw [← Strides.deadline hbefore, h.working] at hdraining
      cases hdraining

/-- The program makes a row of strides. -/
def Walks (strict : Bool) (x : Run α β) : Prop := ∀ m b m', x m = .ok b m' → Strides strict m m'

theorem Tidy.walks {strict : Bool} {x : Run α β} (h : Tidy strict 0 x) : Walks strict x :=
  fun m b m' hrun => (h m b m' hrun).strides

namespace Walks

variable {strict : Bool} {serve : Run.Serve α}

theorem bind {x : Run α β} {k : β → Run α γ} (hx : Walks strict x) (hk : ∀ b, Walks strict (k b)) :
    Walks strict (x >>= k) := by
  intro m c m' hrun
  obtain ⟨b, m₁, hfirst, hrest⟩ := Run.of_bind hrun
  exact (hx m b m₁ hfirst).trans (hk b m₁ c m' hrest)

/-- A connection is taken over and given to the handler, unless the worker drains. -/
theorem takeOver (hserve : Tame strict serve) {i : Nat} {peer : Option Net.SocketAddress} {m m' : Machine α} {b : Unit}
    (hworking : m.worker.deadline = none) (hrun : Run.takeOver serve i peer m = .ok b m') : Strides strict m m' := by
  have hviolation : ∀ e, Tidy strict 0 (Run.violation i e : Run α Unit) := fun _ => .violation
  cases hs : m.worker.slots[i]? with
  | none => exact (hviolation _ m b m' ((Run.bind_run (Run.stepSlot_run_none hs)).symm.trans hrun)).strides
  | some s =>
    replace hrun := (Run.bind_run (Run.stepSlot_run hs)).symm.trans hrun
    by_cases hstate : s.state = .accepting
    · rw [Slot.finishAccept, Slot.advance_of_mem (List.mem_singleton.2 hstate)] at hrun
      dsimp only at hrun
      obtain ⟨⟨⟩, m₁, hbump, hrest⟩ := Run.of_bind hrun
      obtain ⟨⟨⟩, m₂, hsay, hrest⟩ := Run.of_bind hrest
      obtain ⟨⟨⟩, m₃, hattach, hrest⟩ := Run.of_bind hrest
      obtain ⟨⟨⟩, m₄, hrecord, hrest⟩ := Run.of_bind hrest
      obtain ⟨answer, m₅, hserved, hrest⟩ := Run.of_bind hrest
      have hgiven : Serves i m m₄ := by
        cases hbump
        cases hsay
        cases hattach
        cases hrecord
        have hslots : (m.worker.slots.set i { s with state := .accepted }).modify i Slot.attach =
            m.worker.slots.set i (Slot.attach { s with state := .accepted }) := by
          rw [List.modify_eq_set, List.getElem?_set_self (List.getElem?_eq_some_iff.1 hs).1, List.set_set]
          rfl
        exact
          { slot := ⟨s, Slot.attach { s with state := .accepted }, hs, hstate, rfl, rfl, hslots⟩
            services := rfl
            disconnects := rfl
            stopping := rfl
            deadline := rfl
            even := ⟨rfl, rfl⟩
            working := hworking
            accepts := rfl
            held := rfl }
      have hkept := hserve i m₄ (hgiven.held ▸ List.mem_cons_self ..) answer m₅ hserved
      have hended : Upkeep strict 0 m₅ m' := by
        cases answer with
        | ok _ => exact Tidy.pure _ m₅ b m' hrest
        | error e => exact Tidy.bind Tidy.say (fun _ => Tidy.bump (by decide) (by decide)) m₅ b m' hrest
      exact .head (.serve hgiven) (hkept.andThen hended).strides
    · rw [Slot.finishAccept, Slot.advance_of_not_mem fun hmem => hstate (List.mem_singleton.1 hmem)] at hrun
      exact ((Upkeep.stays hs .rfl).andThen (hviolation _ _ b m' hrun)).strides

theorem onAccept (hserve : Tame strict serve) (i : Nat) : Walks strict (Run.onAccept serve i) := by
  intro m b m' hrun
  cases hs : m.worker.slots[i]? with
  | none =>
    replace hrun := (Run.bind_run (Run.slot?_run_none hs)).symm.trans hrun
    exact (Tidy.pure () m b m' hrun).strides
  | some s =>
    replace hrun := (Run.bind_run (Run.slot?_run hs)).symm.trans hrun
    obtain ⟨w, m₁, hworker, hrest⟩ := Run.of_bind hrun
    cases hworker
    dsimp only at hrest
    split at hrest
    · exact (Tidy.bind Tidy.abandon (fun _ => Tidy.pure _) m b m' hrest).strides
    · rename_i hworking
      have hnone : m.worker.deadline = none := Option.not_isSome_iff_eq_none.1 hworking
      split at hrest
      · obtain ⟨answer, m₂, hdelay, hrest⟩ := Run.of_bind hrest
        have hkept : Upkeep strict 0 m m₂ := Tidy.setNoDelay s.fd m answer m₂ hdelay
        refine .trans hkept.strides ?_
        cases answer with
        | ok _ => exact takeOver hserve (hkept.deadline.trans hnone) hrest
        | error e =>
          have hwarn : Tidy strict 0 (do
              Run.say .warn s!"TCP_NODELAY on slot {i}: {e.message}"
              Run.bump .errors 1
              Run.abandon i
              return () : Run α Unit) :=
            .bind .say fun _ => .bind (.bump nofun nofun) fun _ => .bind .abandon fun _ => .pure _
          exact (hwarn m₂ b m' hrest).strides
      · exact takeOver hserve hnone hrest

theorem execute (hserve : Tame strict serve) (c : Command) : Walks strict (Run.execute serve c) := by
  cases c with
  | accept i => exact onAccept hserve i
  | receive i => exact (Tidy.issueHalf .receive).walks
  | send i => exact (Tidy.issueHalf .send).walks
  | disconnect i => exact Tidy.issueClose.walks

theorem executeUpTo (hserve : Tame strict serve) (n : Nat) : Walks strict (Run.executeUpTo serve n) := by
  induction n with
  | zero => exact (Tidy.pure _).walks
  | succ n ih =>
    refine bind Tidy.popCommand.walks fun c => ?_
    cases c with
    | none => exact (Tidy.pure _).walks
    | some c => exact bind (execute hserve c) fun _ => bind ih fun _ => (Tidy.pure _).walks

theorem drainInbox (hserve : Tame strict serve) : Walks strict (Run.drainInbox serve) :=
  bind Tidy.worker.walks fun _ => executeUpTo hserve _

/-- Once the drain has begun, if it has, a turn makes a row of strides. -/
theorem goOn (hserve : Tame false serve) (block : Bool) : Walks false (Run.goOn serve block) := by
  refine bind Tidy.arm.walks fun _ => bind (Tidy.submitQueue block).walks fun _ => ?_
  refine bind Tidy.harvest.walks fun completed => bind (drainInbox hserve) fun commands => ?_
  refine bind Tidy.worker.walks fun w => ?_
  split
  · exact bind Tidy.rest.walks fun _ => (Tidy.pure _).walks
  · exact (Tidy.pure _).walks

/-- A turn begins with upkeep, and then makes a row of strides. -/
theorem of_turn (hserve : Tame false serve) {block b : Bool} {m m' : Machine α}
    (hrun : Run.turn serve block m = .ok b m') : ∃ m₁, Run.openTurn m = .ok () m₁ ∧ Strides false m₁ m' := by
  obtain ⟨m₁, done, m₂, hopen, hdone, hrest⟩ := Run.of_turn hrun
  refine ⟨m₁, hopen, (Tidy.drained m₁ done m₂ hdone).strides.trans ?_⟩
  cases done with
  | true =>
    cases hrest
    exact .refl
  | false => exact goOn hserve block m₂ b m' hrest

/-- Once it has begun, a turn makes a row of strides. -/
theorem turn (hserve : Tame false serve) {block b : Bool} {m m' : Machine α}
    (hrun : Run.turn serve block m = .ok b m') : Strides false m.opened m' := by
  obtain ⟨m₁, hopen, hstrides⟩ := of_turn hserve hrun
  exact (Tidy.openTurn hopen).strides.trans hstrides

end Walks

/-! ## Sockets that are offered -/

namespace Run

variable (strict : Bool) {i : Nat} {fd : Int} {peer : Option Net.SocketAddress} {m m' : Machine α}

/-- A socket is bound, or there is no slot for it, or the slot has one already. -/
theorem of_startAccept {answer : Except Error Unit} (hrun : startAccept i fd peer m = .ok answer m') :
    match answer with
    | .ok _ => ∃ m₁, Binds i fd m m₁ ∧ Upkeep strict 0 m₁ m'
    | .error _ => Upkeep strict 0 m m' := by
  cases hs : m.worker.slots[i]? with
  | none =>
    replace hrun := (bind_run (slot?_run_none hs)).symm.trans hrun
    cases hrun
    exact .refl m
  | some s =>
    replace hrun := (bind_run (slot?_run hs)).symm.trans hrun
    replace hrun := (bind_run (stepSlot_run hs)).symm.trans hrun
    by_cases hstate : s.state = .disconnected
    · rw [Slot.startAccept_ok hstate] at hrun
      obtain ⟨⟨⟩, m₁, hrecord, hrest⟩ := of_bind hrun
      have hbinds : Binds i fd m m₁ := by
        cases hrecord
        exact
          { slot := ⟨s, s.withSocket fd peer, hs, hstate, rfl, rfl, rfl⟩
            services := rfl
            disconnects := rfl
            stopping := rfl
            deadline := rfl
            even := ⟨rfl, rfl⟩
            accepts := rfl
            held := rfl }
      obtain ⟨⟨⟩, m₂, hsubmit, hrest⟩ := of_bind hrest
      cases hrest
      exact ⟨m₁, hbinds, Tidy.submit (.accept i) m₁ () m' hsubmit⟩
    · rw [Slot.startAccept_error hstate] at hrun
      have hrefused : Tidy strict 0 (do
          discard (pushFree i)
          return .error s.wrongState : Run α (Except Error Unit)) :=
        .bind (.bind .pushFree fun _ => .pure _) fun _ => .pure _
      have hkept := (Upkeep.stays hs .rfl).andThen (hrefused _ answer m' hrun)
      obtain ⟨⟨⟩, m₁, -, hanswer⟩ := of_bind hrun
      cases hanswer
      exact hkept

/-- A socket that was offered is bound to the first of the free slots, or there is nothing but upkeep. -/
theorem of_assign {answer : Except Error Nat} (hrun : assign fd peer m = .ok answer m') :
    match answer with
    | .ok i => i ∈ m.worker.free ∧ ∃ m₁ m₂, Upkeep strict 0 m m₁ ∧ Binds i fd m₁ m₂ ∧ Upkeep strict 0 m₂ m'
    | .error _ => Upkeep strict 0 m m' := by
  obtain ⟨taken, m₁, hacquire, hrest⟩ := of_bind hrun
  have htaken : Upkeep strict 0 m m₁ := Tidy.acquire m taken m₁ hacquire
  cases taken with
  | none =>
    have hrefused : Tidy strict 0 (do
        bump .rejected 1
        closeNow none fd
        return .error .noFreeSlot : Run α (Except Error Nat)) :=
      .bind (.bump nofun nofun) fun _ => .bind .closeNow fun _ => .pure _
    have hkept := htaken.andThen (hrefused m₁ answer m' hrest)
    obtain ⟨⟨⟩, m₂, -, hrest⟩ := of_bind hrest
    obtain ⟨⟨⟩, m₃, -, hanswer⟩ := of_bind hrest
    cases hanswer
    exact hkept
  | some i =>
    obtain ⟨started, m₂, hstart, hrest⟩ := of_bind hrest
    have hstarted := of_startAccept strict hstart
    cases started with
    | error e =>
      have hrefused : Tidy strict 0 (do
          closeNow none fd
          bump .errors 1
          return .error e : Run α (Except Error Nat)) :=
        .bind .closeNow fun _ => .bind (.bump nofun nofun) fun _ => .pure _
      have hkept := (htaken.andThen hstarted).andThen (hrefused m₂ answer m' hrest)
      obtain ⟨⟨⟩, m₃, -, hrest⟩ := of_bind hrest
      obtain ⟨⟨⟩, m₄, -, hanswer⟩ := of_bind hrest
      cases hanswer
      exact hkept
    | ok _ =>
      cases hrest
      obtain ⟨m₃, hbinds, hkept⟩ := hstarted
      obtain ⟨free, hfree, -⟩ := acquire_some hacquire
      exact ⟨hfree ▸ List.mem_cons_self .., m₁, m₃, htaken, hbinds, hkept⟩

end Run

/-! ## Applications -/

namespace Application

/-- Starting a task, and letting a handle go where none is started, leaves the count of unanswered operations right. -/
theorem thrifty_serve : Thrifty Application.serve := by
  have hspawn : ∀ service i, Tidy true 0 (spawn service i) := by
    intro service i
    refine .bind (.ask .spawn) fun answer => ?_
    cases answer with
    | ok _ => exact .bind (.record rfl) fun _ => .bind (.modifyApp _) fun _ => .pure _
    | error e =>
      dsimp only
      split
      · exact .bind .drop fun _ => .pure _
      · exact .pure _
  have hserve : ∀ i, Tidy true 0 (serve i) := by
    intro i
    rw [serve_eq]
    refine .bind .get fun m => ?_
    dsimp only
    split
    · exact .bind (.modifyApp _) fun _ => hspawn _ i
    · exact hspawn _ i
  exact fun i m b m' hrun => (hserve i m b m' hrun).even rfl

end Application

end SlotServer
