import SlotServer.Proofs.FeralRuns

/-!
# The stages of a turn

A turn of the dispatch loop is a row of stages: the loop looks whether it is to stop, leaves a wake-up read, hands the
queue over and perhaps waits, takes completions to their slots batch by batch until one is short, and carries commands
out until the inbox is empty. The bounds that the program sets to the batches and to the commands are never reached.

- `Passes`: one stage, as the part of the program that it is;
- `Machine.burden`: how many completions a worker may have to take in yet, at most two for each that is ready;
- `Completion.Absorbed.burden`, `burden_routes`: this falls with each completion that is taken to its slot;
- `FeralRun.turn_stages`: a turn is a row of stages.
-/

namespace SlotServer

variable {α : Type} {serve : Run.Serve α} {block : Bool} {m m' : Machine α} {c : Completion} {cs : List Completion}

/-- Where the dispatch loop stands in its turn. -/
inductive LoopStage
  /-- It looks whether it is to stop. -/
  | check
  /-- It leaves a wake-up read. -/
  | arm
  /-- It hands the queue over. -/
  | submit
  /-- It waits for a completion. -/
  | waiting
  /-- It takes completions out. -/
  | harvest
  /-- It empties the inbox. -/
  | drain
  /-- It has come to its end. -/
  | ended
  deriving DecidableEq, Repr

/-- Take one batch of completions to their slots, and count them. -/
def Run.takeBatch : Run α Nat := do
  let most := (← worker).batch
  record .polled
  let batch ← kernel (·.harvest most)
  batch.forM route
  return batch.length

/-- The queue is handed over, and the loop waits for a completion. -/
def Machine.Waits (m : Machine α) (block : Bool) : Prop :=
  (m.kernel.ask .submit).1 = .ok () ∧ m.worker.waitsFor block m.kernel.armed ≠ 0

/-- One stage of a turn: where the loop stands, what it does there, and where it stands then. -/
inductive Passes (serve : Run.Serve α) (block : Bool) : LoopStage × Machine α → LoopStage × Machine α → Prop
  | beginDrain {m m' : Machine α} (hstop : m.worker.isToDrain = true) (hrun : Run.beginDrain m = .ok () m') :
    Passes serve block (.check, m) (.check, m')
  | check {m m' : Machine α} (hstop : m.worker.isToDrain = false) (hrun : Run.drained m = .ok false m') :
    Passes serve block (.check, m) (.arm, m')
  | finish {m m' : Machine α} (hstop : m.worker.isToDrain = false) (hrun : Run.drained m = .ok true m') :
    Passes serve block (.check, m) (.ended, m')
  | arm {m m' : Machine α} (hrun : Run.arm m = .ok () m') : Passes serve block (.arm, m) (.submit, m')
  | submit {m m' : Machine α} (hrun : Run.submitQueue block m = .ok () m') (hwaits : ¬ m.Waits block) :
    Passes serve block (.submit, m) (.harvest, m')
  | wait {m m' : Machine α} (hrun : Run.submitQueue block m = .ok () m') (hwaits : m.Waits block) :
    Passes serve block (.submit, m) (.waiting, m')
  | woken (m : Machine α) : Passes serve block (.waiting, m) (.harvest, m)
  | batch {m m' : Machine α} {count : Nat} (hrun : Run.takeBatch m = .ok count m') :
    Passes serve block (.harvest, m) (if m.worker.batch ≤ count then .harvest else .drain, m')
  | command {m m' : Machine α} {c : Command} {inbox : List Command} (hinbox : m.worker.inbox = c :: inbox)
    (hrun : Run.execute serve c { m with worker := { m.worker with inbox } } = .ok () m') :
    Passes serve block (.drain, m) (.drain, m')
  | emptied {m : Machine α} (hinbox : m.worker.inbox = []) : Passes serve block (.drain, m) (.check, m)

/-- A row of stages. -/
abbrev PassesOn (serve : Run.Serve α) (block : Bool) : LoopStage × Machine α → LoopStage × Machine α → Prop :=
  Relation.ReflTransGen (Passes serve block)

/-! ## Completions that are due -/

/-- How many completions come of one: itself, and the end of a close where it ends the operation of its slot. -/
def Machine.weight (m : Machine α) (c : Completion) : Nat :=
  if m.worker.slots[c.ctx.slot]?.any (fun s => s.state = .receiving || s.state = .sending) then 2 else 1

/-- How many completions may have to be taken in yet, where these are ready. -/
def Machine.burden (m : Machine α) : List Completion → Nat
  | [] => 0
  | c :: cs => m.weight c + m.burden cs

namespace Machine

theorem weight_pos (m : Machine α) (c : Completion) : 0 < m.weight c := by
  unfold weight
  split <;> decide

theorem weight_le_two (m : Machine α) (c : Completion) : m.weight c ≤ 2 := by
  unfold weight
  split <;> decide

theorem burden_cons (m : Machine α) (c : Completion) (cs : List Completion) :
    m.burden (c :: cs) = m.weight c + m.burden cs := rfl

theorem burden_append (m : Machine α) (cs cs' : List Completion) :
    m.burden (cs ++ cs') = m.burden cs + m.burden cs' := by
  induction cs with
  | nil => exact (Nat.zero_add _).symm
  | cons c cs ih => rw [List.cons_append, burden_cons, burden_cons, ih, Nat.add_assoc]

theorem burden_le (m : Machine α) (cs : List Completion) : m.burden cs ≤ 2 * cs.length := by
  induction cs with
  | nil => exact Nat.le_refl 0
  | cons c cs ih =>
    have hweight := m.weight_le_two c
    rw [m.burden_cons, List.length_cons]
    omega

theorem burden_mono (hle : ∀ c, m'.weight c ≤ m.weight c) (cs : List Completion) : m'.burden cs ≤ m.burden cs := by
  induction cs with
  | nil => exact Nat.le_refl 0
  | cons c cs ih =>
    have hone := hle c
    rw [burden_cons, burden_cons]
    omega

/-- Where one slot is touched and has no operation after that, no completion weighs more than before. -/
theorem Touched.weight_le {i n : Nat} {since : List Event} (h : m.Touched i since n m')
    (hone : ∀ c : Completion, c.ctx.slot = i → m'.weight c = 1) (c : Completion) : m'.weight c ≤ m.weight c := by
  by_cases hi : c.ctx.slot = i
  · rw [hone c hi]
    exact m.weight_pos c
  · apply Nat.le_of_eq
    unfold weight
    rw [h.others _ hi]

end Machine

/-- A connection that is settled has no operation, and at most one close of it was answered at once. -/
theorem Settles.readies {i n : Nat} {fd : Int} {s : Slot} {since : List Event} (h : Settles i fd s since n)
    (k : Kernel) : s.state ≠ .receiving ∧ s.state ≠ .sending ∧ ((k.replay since).ready = k.ready ∨
      (k.replay since).ready = k.ready ++ [⟨.ofSlot i, 0, 0⟩]) := by
  rw [← k.replay_calls]
  cases h with
  | idle hidle _ _ hcalls =>
    rw [hcalls]
    refine ⟨?_, ?_, .inl rfl⟩ <;>
      (intro hstate
       rw [hstate] at hidle
       cases hidle)
  | closing hstate _ hcalls =>
    rw [hcalls, hstate]
    exact ⟨nofun, nofun, (k.push_ready _).imp_right And.right⟩
  | closed hstate _ hcalls =>
    have hready : ∀ op : Op, ∀ e : Error, (k.replay (Confined.cuts i fd ++ [.refused op e])).ready =
        (k.push op).2.ready := by
      intro op e
      unfold Confined.cuts
      split <;> rfl
    rw [hcalls, hstate, hready]
    exact ⟨nofun, nofun, (k.push_ready _).imp_right And.right⟩

/-- What a completion makes ready is less than it weighs, and weighs no more than one. -/
theorem Completion.Absorbed.readies (h : c.Absorbed m m') (hslot : ∀ s : Slot, m.worker.slots[c.ctx.slot]? = some s →
    (Context.ofSlot c.ctx.slot).slot = c.ctx.slot) : ∃ more, m'.kernel.ready = m.kernel.ready ++ more ∧
      m'.burden more + 1 ≤ m.weight c ∧ ∀ x, m'.weight x ≤ m.weight x := by
  by_cases hstray : ∀ s : Slot, m.worker.slots[c.ctx.slot]? = some s → s.state.isPending = false
  · rw [h.stray hstray]
    exact ⟨[], (List.append_nil _).symm, m.weight_pos c, fun _ => Nat.le_refl _⟩
  · push Not at hstray
    obtain ⟨s, hs, hpending⟩ := hstray
    obtain ⟨s', since, n, hs', htouched, hends⟩ := h.waiting s hs (by simpa using hpending)
    have hweight : s'.state ≠ .receiving → s'.state ≠ .sending →
        ∀ x : Completion, x.ctx.slot = c.ctx.slot → m'.weight x = 1 := by
      intro hreceiving hsending x hx
      unfold Machine.weight
      rw [hx, hs', if_neg (by simp [hreceiving, hsending])]
    -- the end of an operation may ready the end of a close; that of a close readies nothing
    have hoperation : ∀ half : Half, s.state = half.working → ∃ more, m'.kernel.ready = m.kernel.ready ++ more ∧
        m'.burden more + 1 ≤ m.weight c ∧ ∀ x, m'.weight x ≤ m.weight x := by
      intro half hstate
      obtain ⟨hreceiving, hsending, hready⟩ := (hends.operation half hstate).settles.readies m.kernel
      have hone := hweight hreceiving hsending
      have htwo : m.weight c = 2 := by
        unfold Machine.weight
        rw [hs, if_pos (by cases half <;> simp [hstate, Half.working])]
      rw [← htouched.kernel] at hready
      rw [htwo]
      rcases hready with hnone | hclose
      · exact ⟨[], by rw [hnone, List.append_nil], Nat.le_succ 1, htouched.weight_le hone⟩
      · refine ⟨_, hclose, ?_, htouched.weight_le hone⟩
        rw [Machine.burden_cons, hone _ (hslot s hs)]
        exact Nat.le_refl 2
    cases hstate : s.state with
    | receiving => exact hoperation .receive hstate
    | sending => exact hoperation .send hstate
    | disconnecting =>
      obtain ⟨heq, hmute, -⟩ := hends.close hstate
      have hready : m'.kernel.ready = m.kernel.ready := by
        rw [htouched.kernel, Kernel.replay_of_calls_nil _ hmute.calls]
      refine ⟨[], by rw [hready, List.append_nil], m.weight_pos c, htouched.weight_le ?_⟩
      exact hweight (by rw [heq]; exact nofun) (by rw [heq]; exact nofun)
    | _ =>
      rw [hstate] at hpending
      exact absurd rfl hpending

/-- With a completion that was taken to its slot, less is due. -/
theorem Completion.Absorbed.burden (h : c.Absorbed m m') (hslot : ∀ s : Slot, m.worker.slots[c.ctx.slot]? = some s →
    (Context.ofSlot c.ctx.slot).slot = c.ctx.slot) (cs : List Completion) :
    m'.burden (cs ++ m'.kernel.ready) + 1 ≤ m.burden (c :: (cs ++ m.kernel.ready)) := by
  obtain ⟨more, hmore, hless, hle⟩ := h.readies hslot
  have hrest := Machine.burden_mono hle (cs ++ m.kernel.ready)
  rw [hmore, ← List.append_assoc, Machine.burden_append, Machine.burden_cons]
  omega

/-- With a batch that was taken to its slots, as much less is due as there were completions in it. -/
theorem burden_routes (hall : m.All (Muted Afloat) []) (hrun : (cs.forM Run.route : Run α PUnit) m = .ok () m') :
    m'.burden m'.kernel.ready + cs.length ≤ m.burden (cs ++ m.kernel.ready) ∧ m'.All (Muted Afloat) [] := by
  induction cs generalizing m with
  | nil =>
    cases hrun
    exact ⟨Nat.le_refl _, hall⟩
  | cons c cs ih =>
    obtain ⟨⟨⟩, m₁, hroute, hrest⟩ := Run.of_bind hrun
    obtain ⟨habsorbed, hall₁⟩ := hall.absorbed hroute
    have hslot : ∀ s : Slot, m.worker.slots[c.ctx.slot]? = some s → (Context.ofSlot c.ctx.slot).slot = c.ctx.slot := by
      intro s hs
      rcases hall c.ctx.slot with ⟨t, htallied⟩ | hmissing
      · exact htallied.slot_ofSlot
      · cases hs.symm.trans hmissing.slot
    have hfirst := habsorbed.burden hslot cs
    obtain ⟨hothers, hall'⟩ := ih hall₁ hrest
    rw [List.length_cons, List.cons_append]
    exact ⟨by omega, hall'⟩

/-! ## Rows of stages -/

/-- A batch is taken out, and each of its completions is taken to its slot. -/
theorem Run.of_takeBatch {count : Nat} (hrun : takeBatch m = .ok count m') :
    count = (m.kernel.harvest m.worker.batch).1.length ∧
      ((m.kernel.harvest m.worker.batch).1.forM route : Run α PUnit)
        { m with kernel := (m.kernel.harvest m.worker.batch).2, trace := .polled :: m.trace } = .ok () m' := by
  have hsplit : takeBatch m = ((m.kernel.harvest m.worker.batch).1.forM route >>= fun _ =>
      pure (m.kernel.harvest m.worker.batch).1.length : Run α Nat)
      { m with kernel := (m.kernel.harvest m.worker.batch).2, trace := .polled :: m.trace } := rfl
  rw [hsplit] at hrun
  obtain ⟨⟨⟩, m₁, hroutes, hrest⟩ := of_bind hrun
  cases hrest
  exact ⟨rfl, hroutes⟩

/-- A batch was taken out of those that were ready. -/
theorem burden_takeBatch {count : Nat} (hall : m.All (Muted Afloat) []) (hrun : Run.takeBatch m = .ok count m') :
    m'.burden m'.kernel.ready + count ≤ m.burden m.kernel.ready ∧ m'.All (Muted Afloat) [] ∧
      m'.worker.batch = m.worker.batch := by
  obtain ⟨hcount, hroutes⟩ := Run.of_takeBatch hrun
  obtain ⟨hdue, hall'⟩ := burden_routes (hall.of_twins ((Twins.refl m).harvest m.worker.batch)) hroutes
  have hready : (m.kernel.harvest m.worker.batch).1 ++ (m.kernel.harvest m.worker.batch).2.ready = m.kernel.ready :=
    List.take_append_drop ..
  rw [hready, ← hcount] at hdue
  refine ⟨Nat.le_trans hdue (Machine.burden_mono (fun c => ?_) _), hall',
    (Blind.grows (.forM Blind.route _) hroutes).batch⟩
  exact Nat.le_refl (m.weight c)

theorem Run.harvestUpTo_succ (n : Nat) : harvestUpTo (n + 1) = (do
    let most := (← worker).batch
    let taken ← takeBatch
    if most ≤ taken then return (← harvestUpTo n) + taken
    return taken : Run α Nat) := by
  unfold takeBatch
  simp only [bind_assoc, pure_bind]
  rfl

/-- Batches are taken until one is short, where the bound is greater than what is due. -/
theorem stages_harvestUpTo {n count : Nat} (hall : m.All (Muted Afloat) []) (hbatch : 0 < m.worker.batch)
    (hdue : m.burden m.kernel.ready < n) (hrun : Run.harvestUpTo n m = .ok count m') :
    PassesOn serve block (.harvest, m) (.drain, m') := by
  induction n generalizing m count with
  | zero => exact absurd hdue (Nat.not_lt_zero _)
  | succ n ih =>
    rw [Run.harvestUpTo_succ] at hrun
    obtain ⟨w, m₁, hworker, hrest⟩ := Run.of_bind hrun
    cases hworker
    obtain ⟨taken, m₁, htaken, hrest⟩ := Run.of_bind hrest
    obtain ⟨hless, hall₁, hsame⟩ := burden_takeBatch hall htaken
    have hstage : Passes serve block (.harvest, m) _ := .batch htaken
    split at hrest
    · rename_i hfull
      obtain ⟨others, m₂, hothers, hrest⟩ := Run.of_bind hrest
      cases hrest
      rw [if_pos hfull] at hstage
      exact .head hstage (ih hall₁ (by rw [hsame]; exact hbatch) (by omega) hothers)
    · rename_i hshort
      cases hrest
      rw [if_neg hshort] at hstage
      exact .single hstage

/-- Commands are carried out one by one. -/
theorem Carries.stages {commands : List Command} (h : Carries serve m commands m') :
    PassesOn serve block (.drain, m) (.drain, m') := by
  induction h with
  | nil => exact .refl
  | cons hinbox hrun _ ih => exact .head (.command hinbox hrun) ih

/-- A turn begins. After that no drain is to begin any more. -/
theorem stages_openTurn (serve : Run.Serve α) (block : Bool) (hrun : Run.openTurn m = .ok () m') :
    PassesOn serve block (.check, m) (.check, m') ∧ m'.worker.isToDrain = false := by
  rw [Run.openTurn_eq] at hrun
  split at hrun
  · rename_i hstop
    refine ⟨.single (.beginDrain hstop hrun), ?_⟩
    rw [Worker.isToDrain, Run.deadline_of_beginDrain hrun]
    rfl
  · rename_i hstop
    cases hrun
    exact ⟨.refl, Bool.eq_false_iff.2 hstop⟩

/-- What a turn does unless the drain is over, up to where it may rest. -/
theorem Machine.Steady.stages_goOn (hserve : Modest serve) (h : m.Steady) (hexited : m.worker.exited = false)
    {completed commands : Nat} {m₁ m₂ : Machine α} (htaken : Run.takeIn block m = .ok completed m₁)
    (hdrain : Run.drainInbox serve m₁ = .ok commands m₂) : PassesOn serve block (.arm, m) (.check, m₂) := by
  have hall : m.All (Muted Afloat) [] := fun i => (h.moored i).afloat
  obtain ⟨hafloat, hexited₁⟩ := h.takenIn hexited htaken
  obtain ⟨⟨⟩, a₁, harm, hrest⟩ := Run.of_bind htaken
  obtain ⟨⟨⟩, a₂, hsubmit, hharvest⟩ := Run.of_bind hrest
  have htwins := ((Twins.refl m).arm harm).submitQueue hsubmit
  have hsubmits : PassesOn serve block (.submit, a₁) (.harvest, a₂) := by
    by_cases hwaits : a₁.Waits block
    · exact .head (.wait hsubmit hwaits) (.single (.woken a₂))
    · exact .single (.submit hsubmit hwaits)
  have hbatches : PassesOn serve block (.harvest, a₂) (.drain, m₁) := by
    have hdue := a₂.burden_le a₂.kernel.ready
    refine stages_harvestUpTo (hall.of_twins htwins) ?_ (Nat.lt_succ_of_le hdue) hharvest
    rw [← htwins.worker]
    exact h.batch
  have hexecute : Run.executeUpTo serve (2 * m₁.worker.inboxCapacity + 1) m₁ = .ok commands m₂ := hdrain
  obtain ⟨cs, hcarries, -⟩ := Carries.of_executeUpTo hexecute
  have hnil := (hafloat.empties hexited₁).inbox_nil hserve hdrain
  exact .head (.arm harm) (hsubmits.trans (hbatches.trans (hcarries.stages.tail (.emptied hnil))))

/-- A turn is a row of stages. In the end a worker that drains may rest. -/
theorem FeralRun.turn_stages (hserve : Modest serve) (h : FeralRun serve m) (hexited : m.worker.exited = false)
    {b : Bool} (hrun : Run.turn serve block m = .ok b m') :
    ∃ m₁, PassesOn serve block (.check, m) (if b then .check else .ended, m₁) ∧
      (m' = m₁ ∨ Run.rest m₁ = .ok () m') := by
  obtain ⟨m₁, done, m₂, hopen, hdone, hrest⟩ := Run.of_turn hrun
  obtain ⟨m₁', hopen', hsteady, hexited₁⟩ :=
    (h.steady hserve).openTurn hserve hexited (Run.not_balks_of_openTurn hopen)
  rw [hopen] at hopen'
  cases hopen'
  obtain ⟨hbegun, hstop⟩ := stages_openTurn serve block hopen
  cases done with
  | true =>
    cases hrest
    exact ⟨m', hbegun.tail (.finish hstop hdone), .inl rfl⟩
  | false =>
    obtain rfl := Run.of_drained_false hdone
    obtain ⟨rfl, completed, m₃, commands, m₄, htaken, hdrain, hslept⟩ := Run.steps_of_goOn hrest
    exact ⟨m₄, (hbegun.tail (.check hstop hdone)).trans (hsteady.stages_goOn hserve hexited₁ htaken hdrain), hslept⟩

end SlotServer
