import Mathlib.Data.List.Perm.Basic
import SlotServer.Proofs.Drains
import SlotServer.Proofs.Failing

/-!
# The end of a drain

A drain is given up when its time is over, and otherwise it ends when the kernel's count of unanswered operations is
zero and the inbox is empty. Over an honest kernel that counts what it was given less what was taken out, this is just
when nothing is left to be done: no slot is looked at, and no slot needs to be.

- `Machine.Counts`: the kernel counts what the record tells of as outstanding;
- `Machine.Level`: this, at a machine whose slots are at rest, and that a turn keeps it (`Level.turn`);
- `Machine.Loyal`: what an honest kernel does, and that its count is right in every run (`LoggedRun.counts`);
- `Machine.Quiet`: nothing is left that the teardown would cut short (`Level.quiet`);
- `LoggedRun.drains`: a drain comes to its end just when the worker is quiet.
-/

namespace SlotServer

variable {α β : Type}

/-! ## The kernel's count -/

/-- The kernel counts the operations that are outstanding, but for those whose answers were taken out. -/
structure Machine.Counts (pending : List Completion) (m : Machine α) : Prop where
  accounting : m.kernel.accounting = .queued
  inflight : m.kernel.inflight + pending.length = (outstanding m.trace).length

/-- The kernel counts what is outstanding, and the slots are at rest. -/
structure Machine.Level (pending : List Completion) (m : Machine α) : Prop extends m.Counts pending where
  rest : m.All Resting pending
  exited : m.worker.exited = false

/-- What a program keeps up, it comes to where it comes to an answer. -/
theorem TidyAt.holds {strict : Bool} {n : UInt64} {x : Run α β} {m : Machine α} (h : TidyAt strict n x m) :
    Holds (fun _ => True) x m fun _ m' => Upkeep strict n m m' := by
  unfold Holds
  cases hrun : x m with
  | ok b m' => exact h b m' hrun
  | error fault m' => trivial

theorem Strides.even {m m' : Machine α} (h : Strides true m m') : m.Even m' := by
  induction h with
  | refl => exact ⟨rfl, rfl⟩
  | tail _ hstride ih =>
    cases hstride with
    | upkeep hkept => exact ih.trans (hkept.even rfl)
    | serve hserves => exact ih.trans hserves.even

/-- A completion that is ready is the only one for its slot, and answers the one operation that is outstanding. -/
theorem Resting.owes {i : Nat} {v : View} {c : Completion} (h : Resting i v) (hexited : v.exited = false)
    (hc : c ∈ v.answers) : ∃ op, v.answers = [c] ∧ outstanding v.history = [op] ∧ c.ctx = op.ctx := by
  rcases h with ⟨s, hcalm, -⟩ | habsent
  · rcases hcalm.answered hexited with hnil | ⟨c', op, hone, hout, hctx⟩
    · rw [hnil] at hc
      cases hc
    · rw [hone] at hc
      obtain rfl := List.mem_singleton.1 hc
      exact ⟨op, hone, hout, hctx⟩
  · rw [habsent.answers] at hc
    cases hc

theorem Machine.outstanding_history (m : Machine α) (i : Nat) :
    outstanding (m.history i) = (outstanding m.trace).filter (·.ctx.slot = i) := outstanding_concerns ..

/-- A list with no more entries of any kind than another has no more entries. -/
theorem length_le_of_filter {γ δ : Type} {l : List γ} {l' : List δ} (f : γ → Nat) (g : δ → Nat)
    (h : ∀ i, (l.filter (f · = i)).length ≤ (l'.filter (g · = i)).length) : l.length ≤ l'.length := by
  have hsub : (l.map f).Subperm (l'.map g) := by
    refine List.subperm_ext_iff.2 fun i _ => ?_
    rw [List.count_eq_countP, List.count_eq_countP, List.countP_map, List.countP_map, List.countP_eq_length_filter,
      List.countP_eq_length_filter]
    exact h i
  have hlength := hsub.length_le
  rwa [List.length_map, List.length_map] at hlength

namespace Machine

variable {pending : List Completion} {m m' : Machine α}

theorem Counts.even (h : m.Counts pending) (heven : m.Even m') : m'.Counts pending where
  accounting := heven.accounting.trans h.accounting
  inflight := by
    have hbefore := h.inflight
    have hafter := heven.inflight
    omega

theorem Counts.tidy {x : Run α β} (h : m.Counts pending) (hx : Tidy true 0 x) :
    Holds (fun _ => True) x m fun _ m' => m'.Counts pending :=
  (hx m).holds.mono fun _ _ hkept => h.even (hkept.even rfl)

/-- No more completions are ready than operations are outstanding. -/
theorem length_ready_le (h : m.All Resting []) (hexited : m.worker.exited = false) :
    m.kernel.ready.length ≤ (outstanding m.trace).length := by
  refine length_le_of_filter (·.ctx.slot) (·.ctx.slot) fun i => ?_
  rw [← m.outstanding_history]
  show (m.view [] i).answers.length ≤ _
  cases hanswers : (m.view [] i).answers with
  | nil => exact Nat.zero_le _
  | cons c rest =>
    obtain ⟨op, hone, hout, -⟩ := (h i).owes hexited (hanswers ▸ List.mem_cons_self ..)
    rw [← hanswers, hone, show outstanding (m.history i) = [op] from hout]
    exact Nat.le_refl 1

namespace Level

variable {serve : Run.Serve α}

/-- A program that leaves every view as it is, and the kernel's count right. -/
theorem still {x : Run α β} (h : m.Level pending) (hstill : Still x) (htidy : Tidy true 0 x) :
    Holds (fun _ => True) x m fun _ m' => m'.Level pending := by
  refine ((Holds.still hstill fun _ m' hview => ?_).and (h.toCounts.tidy htidy)).mono
    fun _ m' (hboth : (m'.All Resting pending ∧ m'.worker.exited = false) ∧ m'.Counts pending) =>
      ⟨hboth.2, hboth.1.1, hboth.1.2⟩
  exact ⟨h.rest.congr (hview pending), (congrArg View.exited (hview pending 0)).trans h.exited⟩

/-- A completion that was taken out is taken to its slot. The operation that it answers is no longer outstanding. -/
theorem route (hserve : Modest serve) {c : Completion} (h : m.Level (c :: pending)) :
    Holds (fun _ => True) (Run.route c : Run α Unit) m fun _ m' => m'.Level pending := by
  have hmem : c ∈ (m.view (c :: pending) c.ctx.slot).answers :=
    List.mem_filter.2 ⟨List.mem_cons_self .., decide_eq_true rfl⟩
  obtain ⟨op, -, hout, hctx⟩ := (h.rest c.ctx.slot).owes h.exited hmem
  have hop : op ∈ (outstanding m.trace).filter (·.ctx.slot = c.ctx.slot) := by
    rw [← m.outstanding_history, show outstanding (m.history c.ctx.slot) = [op] from hout]
    exact List.mem_singleton_self op
  replace hop := (List.mem_filter.1 hop).1
  have hanswered : ({ m with trace := .answered c :: m.trace } : Machine α).Counts pending := by
    refine ⟨h.accounting, ?_⟩
    have hless : (outstanding (.answered c :: m.trace)).length = (outstanding m.trace).length - 1 :=
      List.length_eraseP_of_mem hop (decide_eq_true hctx.symm)
    have hpos := List.length_pos_of_mem hop
    have hcount := h.inflight
    rw [List.length_cons] at hcount
    show m.kernel.inflight + _ = (outstanding (.answered c :: m.trace)).length
    omega
  have hcounts : Holds (fun _ => True) (Run.route c : Run α Unit) m fun _ m' => m'.Counts pending := by
    rw [Run.route_eq]
    exact Holds.bind (Holds.of_eq rfl (hanswered.tidy (.conclude c)))
  have hrest := (honest hserve).routed (fun j => ⟨h.rest j, h.exited⟩) h.exited
  exact (hcounts.and hrest).mono fun _ m' ⟨hcounts', hbusy, hexited⟩ => ⟨hcounts', fun j => (hbusy j).1, hexited⟩

theorem harvestUpTo (hserve : Modest serve) (n : Nat) (h : m.Level []) :
    Holds (fun _ => True) (Run.harvestUpTo n : Run α Nat) m fun _ m' => m'.Level [] := by
  induction n generalizing m with
  | zero => exact Holds.pure h
  | succ n ih =>
    refine Holds.bind (Holds.worker (Holds.bind ?_))
    refine (h.still (.record_aside fun _ => rfl) (.record rfl)).mono fun _ m₁ h₁ => ?_
    -- what is taken out is not counted any more, and is outstanding until it is routed
    have htaken : ({ m₁ with kernel := (m₁.kernel.harvest m.worker.batch).2 } : Machine α).Level
        (m₁.kernel.harvest m.worker.batch).1 := by
      refine ⟨⟨h₁.accounting, ?_⟩, h₁.rest.congr (m₁.view_harvest _), h₁.exited⟩
      have hready := length_ready_le h₁.rest h₁.exited
      have hcount := h₁.inflight
      show m₁.kernel.inflight - (m₁.kernel.ready.take m.worker.batch).length +
        (m₁.kernel.ready.take m.worker.batch).length = (outstanding m₁.trace).length
      rw [List.length_take]
      rw [List.length_nil] at hcount
      omega
    refine Holds.bind (Holds.of_eq rfl (Holds.bind ?_))
    refine (Holds.forM (I := fun pending m' => m'.Level pending) (fun c rest m' h' => h'.route hserve) htaken).mono
      fun _ m₂ h₂ => ?_
    split
    · exact Holds.bind ((ih h₂).mono fun _ _ h' => Holds.pure h')
    · exact Holds.pure h₂

theorem goOn (hserve : Modest serve) (hthrifty : Thrifty serve) (block : Bool) (h : m.Level []) :
    Holds (fun _ => True) (Run.goOn serve block : Run α Bool) m fun _ m' => m'.Counts [] := by
  refine Holds.bind ((h.still Regime.still_arm .arm).mono fun _ m₁ h₁ => ?_)
  refine Holds.bind ((h₁.still (Regime.still_submitQueue block) (.submitQueue block)).mono fun _ m₂ h₂ => ?_)
  refine Holds.bind (Holds.bind (Holds.get ((h₂.harvestUpTo hserve _).mono fun completed m₃ h₃ => ?_)))
  have hdrained : Holds (fun _ => True) (Run.drainInbox serve : Run α Nat) m₃ fun _ m' => m'.Counts [] := by
    unfold Holds
    cases hrun : Run.drainInbox serve m₃ with
    | ok n m' => exact h₃.toCounts.even (Walks.drainInbox (hthrifty.tame hserve) m₃ n m' hrun).even
    | error fault m' => trivial
  refine Holds.bind (hdrained.mono fun commands m₄ h₄ => Holds.bind (Holds.worker ?_))
  split
  · exact h₄.tidy (.bind .rest fun _ => .pure _)
  · exact Holds.pure h₄

theorem openTurn (hserve : Modest serve) (h : m.Level []) (hrun : Run.openTurn m = .ok () m') : m'.Level [] := by
  have heven : m.Even m' := by
    have hopened : m.Even m.opened := by
      unfold opened
      split <;> exact ⟨rfl, rfl⟩
    have hkept : Upkeep true 0 m.opened m' := Tidy.openTurn hrun
    exact hopened.trans (hkept.even rfl)
  obtain ⟨hrest, hexited⟩ := ((honest hserve).openTurn h.rest h.exited).of_ok hrun
  exact ⟨h.toCounts.even heven, hrest, hexited⟩

/-- A turn leaves the kernel's count right. -/
theorem turn (hserve : Modest serve) (hthrifty : Thrifty serve) {block b : Bool} (h : m.Level [])
    (hrun : Run.turn serve block m = .ok b m') : m'.Counts [] := by
  obtain ⟨m₁, done, m₂, hopen, hdone, hrest⟩ := Run.of_turn hrun
  have h₂ := ((h.openTurn hserve hopen).still Regime.still_drained .drained).of_ok hdone
  cases done with
  | true =>
    cases hrest
    exact h₂.toCounts
  | false => exact (h₂.goOn hserve hthrifty block).of_ok hrest

end Level

end Machine

/-! ## Runs over an honest kernel -/

/-- What an honest kernel may do around a worker: it answers what it owes an answer, and leaves its count to the
worker. Results have negations. -/
structure Machine.Loyal (m : Machine α) (kernel : Kernel) : Prop where
  negates : kernel.Negates
  accounting : kernel.accounting = m.kernel.accounting
  inflight : kernel.inflight = m.kernel.inflight
  ready : kernel.ready = m.kernel.ready ∨ ∃ op result flags, m.Owed op ∧
    kernel.ready = m.kernel.ready ++ [⟨op.ctx, result, flags⟩]

/-- A machine that was just built over a kernel that counts the operations queued less the completions taken out. -/
structure Machine.StartsCounting (m : Machine α) : Prop extends m.Starts where
  accounting : m.kernel.accounting = .queued
  inflight : m.kernel.inflight = 0

/-- A loyal kernel is one of any kernels. -/
theorem LoggedRun.unbridled {serve : Run.Serve α} {log : List Reply} {m : Machine α}
    (h : LoggedRun serve Machine.StartsCounting Machine.Loyal log m) :
    LoggedRun serve Machine.Starts (fun _ _ => True) log m := by
  induction h with
  | start h => exact .start h.toStarts
  | move before move hwhole hallowed hrun ih => exact ih.move move hwhole hallowed hrun
  | around before kernel app h ih => exact ih.around kernel app trivial

/-- Nothing is outstanding at a worker that was just built. -/
theorem Machine.Fresh.outstanding {m : Machine α} (h : m.Fresh) : SlotServer.outstanding m.trace = [] := by
  obtain ⟨id, config, cores, k, -, hbuild⟩ := h.built
  obtain ⟨-, -, haside⟩ := Worker.new_of_build hbuild
  refine List.eq_nil_iff_forall_not_mem.2 fun op hop => ?_
  exact of_decide_eq_false (haside _ (mem_outstanding hop) op.ctx.slot) rfl

namespace LoggedRun

variable {serve : Run.Serve α} {start : Machine α → Prop} {log : List Reply} {m : Machine α}

/-- A logged run over a kernel that is loyal is one over an honest kernel. -/
theorem honest (hstart : ∀ m, start m → m.Fresh) (h : LoggedRun serve start Machine.Loyal log m) :
    HonestRun serve m := by
  induction h with
  | start h => exact .start (hstart _ h)
  | move before move hwhole hallowed hrun ih => exact ih.step (.move move hallowed (Move.run_of_reply hrun))
  | @around log m before kernel app h ih =>
    rcases h.ready with hready | ⟨op, result, flags, howed, hready⟩
    · exact ih.step (.around kernel app hready)
    · exact (ih.step (.answer op result flags howed)).step (.around kernel app hready)

end LoggedRun

/-- A whole move that neither turns the loop nor tears the worker down leaves the kernel's count right. -/
theorem Move.even_or {serve : Run.Serve α} {move : Move} {m m' : Machine α} (hwhole : move.isWhole = true)
    (hrun : move.run serve m = .ok () m') :
    m.Even m' ∧ m'.worker.exited = m.worker.exited ∨
      (∃ block b, move = .turn block ∧ Run.turn serve block m = .ok b m') ∨ Run.finish m = .ok () m' := by
  have hexited : ∀ {x : Run α Unit}, Makes .all (fun _ => True) x → x m = .ok () m' →
      m'.worker.exited = m.worker.exited := fun hmakes hx => (hmakes m trivial () m' hx).exited
  cases move with
  | assign fd peer =>
    refine .inl ⟨?_, hexited (.bind (.assign fd peer) fun _ => .pure _) hrun⟩
    obtain ⟨answer, m₁, hassign, hrest⟩ := Run.of_bind hrun
    cases hrest
    have hdone := Run.of_assign true hassign
    cases answer with
    | error e => exact hdone.even rfl
    | ok i =>
      obtain ⟨-, m₁, m₂, hbefore, hbinds, hafter⟩ := hdone
      exact ((hbefore.even rfl).trans hbinds.even).trans (hafter.even rfl)
  | deed i d =>
    have hkept : Upkeep true 0 m m' := Tidy.deed d m () m' hrun
    exact .inl ⟨hkept.even rfl, hexited (.deed d) hrun⟩
  | stop =>
    have hkept : Upkeep true 0 _ m' := Tidy.requestStop hrun
    have hasked : m.Even { m with worker := { m.worker with stopping := true } } := ⟨rfl, rfl⟩
    exact .inl ⟨hasked.trans (hkept.even rfl), hexited .requestStop hrun⟩
  | turn block =>
    obtain ⟨b, m₁, hturn, hrest⟩ := Run.of_bind hrun
    cases hrest
    exact .inr (.inl ⟨block, b, rfl, hturn⟩)
  | finish => exact .inr (.inr hrun)
  | _ => cases hwhole

namespace LoggedRun

variable {serve : Run.Serve α} {log : List Reply} {m : Machine α}

/-- Until the teardown, a loyal kernel counts what is outstanding. -/
theorem counts (hserve : Modest serve) (hthrifty : Thrifty serve)
    (h : LoggedRun serve Machine.StartsCounting Machine.Loyal log m) (hexited : m.worker.exited = false) :
    m.Counts [] := by
  induction h with
  | start h =>
    refine ⟨h.accounting, ?_⟩
    rw [h.inflight, h.toFresh.outstanding]
    rfl
  | @move log m m' reply before move hwhole hallowed hrun ih =>
    rcases Move.even_or hwhole (Move.run_of_reply hrun) with ⟨heven, hsame⟩ | ⟨block, b, rfl, hturn⟩ | hfinish
    · exact (ih (hsame ▸ hexited)).even heven
    · have hrest := (before.honest fun _ h => h.toFresh).resting hserve
      exact Machine.Level.turn hserve hthrifty ⟨ih hallowed, hrest, hallowed⟩ hturn
    · rw [(Run.changes_finish hfinish).exited] at hexited
      cases hexited
  | around before kernel app h ih =>
    obtain ⟨haccounting, hinflight⟩ := ih hexited
    exact ⟨h.accounting.trans haccounting, by rw [h.inflight]; exact hinflight⟩

end LoggedRun

/-! ## Nothing left to be done -/

/-- Without a command and an operation, a slot has an idle connection or none. -/
theorem Calm.idle_or {i : Nat} {v : View} {s : Slot} (h : Calm i v s) (hcommands : v.commands = [])
    (hout : outstanding v.history = []) : s.state = .disconnected ∨ s.state.isIdle = true := by
  obtain ⟨p, hp, hstage⟩ := h.stage
  have hops : p.ops = [] := (outstanding_of_phase hp).symm.trans hout
  rw [hcommands] at hstage
  have hnone : ∀ half : Half, ¬ Underway i s half p [] := by
    rintro half (⟨-, hdue⟩ | ⟨rfl, -⟩)
    · cases hdue
    · cases hops
  rw [Stage] at hstage
  cases hstate : s.state <;> rw [hstate] at hstage
  case disconnected => exact .inl rfl
  case accepted | received | sent => exact .inr rfl
  case accepting => cases hstage.2
  case receiving | sending => exact absurd hstage (hnone _)
  case disconnecting =>
    rcases hstage with ⟨-, hdue⟩ | ⟨rfl, -⟩
    · cases hdue
    · cases hops

namespace Machine

/-- Nothing is left that the teardown would cut short. -/
structure Quiet (m : Machine α) : Prop where
  /-- Every slot has no connection, or an idle one with a handle that is alive. -/
  idle : ∀ (i : Nat) (s : Slot), m.worker.slots[i]? = some s →
    s.state = .disconnected ∨ s.state.isIdle = true ∧ i ∈ m.held
  /-- No operation is outstanding. -/
  answered : SlotServer.outstanding m.trace = []
  /-- The teardown completes no cell and wakes nobody. -/
  spared : ∃ m', Run.finish m = .ok () m' ∧
    ∀ (i : Nat) (s s' : Slot), m.worker.slots[i]? = some s → m'.worker.slots[i]? = some s' → ∀ half,
      Connection.cell s' half = Connection.cell s half ∧ wokenAt half (m'.history i) = wokenAt half (m.history i)

theorem Level.quiet {serve : Run.Serve α} {m : Machine α} (hserve : Modest serve) (h : m.Level [])
    (hrun : WildRun serve m) (hout : outstanding m.trace = []) (hinbox : m.worker.inbox = []) : m.Quiet := by
  have hslots : ∀ (i : Nat) (s : Slot), m.worker.slots[i]? = some s →
      s.state = .disconnected ∨ s.state.isIdle = true ∧ i ∈ m.held := fun i s hs => by
    rcases h.rest i with ⟨s', hcalm, -⟩ | habsent
    case inr =>
      rw [show m.worker.slots[i]? = none from habsent.slot] at hs
      cases hs
    obtain rfl : s = s' := Option.some.inj (hs.symm.trans hcalm.here)
    have hcommands : (m.view [] i).commands = [] := by
      show m.worker.inbox.filter _ = []
      rw [hinbox]
      rfl
    have hnone : SlotServer.outstanding (m.view [] i).history = [] := by
      show SlotServer.outstanding (m.history i) = []
      rw [m.outstanding_history, hout]
      rfl
    refine (hcalm.idle_or hcommands hnone).imp_right fun hidle => ⟨hidle, ?_⟩
    exact List.count_pos_iff.1 (hcalm.attached (hcalm.idle hidle))
  obtain ⟨m', hfinish, -, -, hforsakes⟩ := hrun.fails hserve h.exited
  refine ⟨hslots, hout, m', hfinish, fun i s s' hs hs' half => ?_⟩
  obtain ⟨s'', hfailing⟩ := hforsakes i s hs
  obtain rfl := Option.some.inj (hfailing.here.symm.trans hs')
  obtain ⟨since, hhistory, hfails⟩ := hfailing.fails
  have hidle : s.state.works half = false := by
    rcases hslots i s hs with hstate | ⟨hidle, -⟩
    · rw [hstate]
      cases half <;> rfl
    · exact SlotState.works_of_isIdle hidle half
  rcases hfails half with ⟨-, hcell, hnobody⟩ | ⟨-, hworks, -⟩
  · refine ⟨hcell, ?_⟩
    rw [show m'.history i = since ++ m.history i from hhistory, wokenAt_append, hnobody]
    rfl
  · rw [hidle] at hworks
    cases hworks

end Machine

namespace Run

variable {serve : Serve α} {block b : Bool} {m m' : Machine α}

/-- As long as there is time, a drain is over just when nothing is unanswered and the inbox is empty. -/
theorem drained_run {deadline : Nat} (hdeadline : m.worker.deadline = some deadline) (hnow : m.kernel.now < deadline) :
    (drained : Run α Bool) m = .ok (m.kernel.outstanding = 0 && m.worker.inbox.isEmpty) m := by
  refine (bind_run (x := worker) rfl).trans ?_
  rw [hdeadline]
  refine (bind_run (x := Run.outstanding) rfl).trans ((bind_run (x := worker) rfl).trans ?_)
  cases hidle : (decide (m.kernel.outstanding = 0) && m.worker.inbox.isEmpty) with
  | true => exact congrFun (if_pos rfl) m
  | false =>
    refine (congrFun (if_neg Bool.false_ne_true) m).trans ((bind_run (x := get) rfl).trans ?_)
    rw [if_neg (Nat.not_le.2 hnow)]
    rfl

/-- A turn that does not stop the loop goes on with it. -/
theorem of_goOn (hrun : goOn serve block m = .ok b m') : b = true := (steps_of_goOn hrun).1

end Run

/-- As long as there is time, a drain comes to its end just when nothing is left to be done. -/
structure Machine.Drains (serve : Run.Serve α) (m : Machine α) : Prop where
  /-- A turn can begin, unless it is to begin a drain whose end no clock can tell. -/
  opens : ¬ m.Balks → ∃ m₁, Run.openTurn m = .ok () m₁
  /-- A turn that is to begin such a drain is at fault, and changes nothing. -/
  balks : m.Balks → ∀ block, Run.turn serve block m = .error .timeOverflow m
  /-- Before the drain's time is over, a turn ends the loop just if it begins with nothing outstanding and an empty
  inbox. -/
  ends : ∀ block m₁ deadline, Run.openTurn m = .ok () m₁ → m₁.worker.deadline = some deadline →
    m₁.kernel.now < deadline → ∃ b m', Run.turn serve block m = .ok b m' ∧
      (b = false ↔ outstanding m₁.trace = [] ∧ m₁.worker.inbox = []) ∧ (b = false → m'.Quiet)

/-- A worker that was asked to stop takes nothing new, and over an honest kernel its loop ends just when it is quiet. -/
theorem LoggedRun.drains {serve : Run.Serve α} (hserve : Modest serve) (hthrifty : Thrifty serve) :
    (∀ log m, LoggedRun serve Machine.Starts (fun _ _ => True) log m → m.Heeds serve log) ∧
      ∀ log m, LoggedRun serve Machine.StartsCounting Machine.Loyal log m → m.worker.exited = false →
        m.Drains serve := by
  refine ⟨fun log m h => h.heeds hserve, fun log m h hexited => ?_⟩
  have hlevel : m.Level [] :=
    ⟨h.counts hserve hthrifty hexited, (h.honest fun _ h => h.toFresh).resting hserve, hexited⟩
  have hwild : WildRun serve m := h.wild (fun _ h => h.toStarts) fun _ _ h => h.negates
  have hcomes : ¬ m.Balks → ∀ block, ∃ b m', Run.turn serve block m = .ok b m' := fun hbalks block => by
    obtain ⟨m', hmove⟩ := (hwild.conserved hserve).faultless (.turn block) rfl hexited hbalks
    obtain ⟨b, m₁, hturn, -⟩ := Run.of_bind hmove
    exact ⟨b, m₁, hturn⟩
  refine ⟨fun hbalks => ?_, fun hbalks block => Run.turn_balks serve block hbalks,
    fun block m₁ deadline hopen hdeadline hnow => ?_⟩
  · obtain ⟨b, m', hturn⟩ := hcomes hbalks true
    obtain ⟨m₁, done, m₂, hopen, -⟩ := Run.of_turn hturn
    exact ⟨m₁, hopen⟩
  obtain ⟨b, m', hturn⟩ := hcomes (Run.not_balks_of_openTurn hopen) block
  obtain ⟨m₁', done, m₂, hopen', hdone, hrest⟩ := Run.of_turn hturn
  cases hopen.symm.trans hopen'
  cases (Run.drained_run hdeadline hnow).symm.trans hdone
  have hopened := hlevel.openTurn hserve hopen
  have hcount : m₁.kernel.outstanding = (outstanding m₁.trace).length := by
    rw [Kernel.outstanding, hopened.accounting]
    exact hopened.inflight
  have hdone : (decide (m₁.kernel.outstanding = 0) && m₁.worker.inbox.isEmpty) = true ↔
      outstanding m₁.trace = [] ∧ m₁.worker.inbox = [] := by
    rw [Bool.and_eq_true, decide_eq_true_iff, hcount, List.length_eq_zero_iff, List.isEmpty_iff]
  refine ⟨b, m', hturn, ?_⟩
  rw [← hdone]
  cases hquiet : (decide (m₁.kernel.outstanding = 0) && m₁.worker.inbox.isEmpty) with
  | true =>
    rw [hquiet, if_pos rfl] at hrest
    cases hrest
    obtain ⟨hout, hinbox⟩ := hdone.1 hquiet
    have hended : WildRun serve m₁ := hwild.step (.move (.turn block) rfl hexited (Run.bind_run hturn))
    exact ⟨⟨fun _ => rfl, fun _ => rfl⟩, fun _ => hopened.quiet hserve hended hout hinbox⟩
  | false =>
    rw [hquiet, if_neg Bool.false_ne_true] at hrest
    obtain rfl := Run.of_goOn hrest
    exact ⟨⟨nofun, nofun⟩, nofun⟩

/-- A connection is open when the worker is asked to stop, over a kernel that answers closes at once. -/
def Machine.closed? : Option (List Reply × Machine Application) :=
  Machine.small?.bind fun m =>
    ({ m with kernel := { m.kernel with answersCloses := true } } : Machine Application).logged? Application.serve []
      [.assign 5 none, .turn false, .stop, .turn false]

theorem LoggedRun.of_closed? {log : List Reply} {m : Machine Application} (h : Machine.closed? = some (log, m)) :
    LoggedRun Application.serve Machine.StartsCounting Machine.Loyal log m := by
  unfold Machine.closed? at h
  obtain ⟨m₀, hbuilt, hmoves⟩ := Option.bind_eq_some_iff.1 h
  have hall : Machine.small?.all (fun m => m.kernel.ready.isEmpty && m.kernel.accounting = .queued &&
      m.kernel.inflight = 0) = true := by decide +kernel
  have hfacts := (Option.all_eq_true ..).1 hall m₀ hbuilt
  rw [Bool.and_eq_true, Bool.and_eq_true] at hfacts
  obtain ⟨⟨hready, haccounting⟩, hinflight⟩ := hfacts
  have hstart : m₀.StartsCounting :=
    { Machine.Starts.of_built? hbuilt (by decide +kernel) with
      accounting := of_decide_eq_true haccounting
      inflight := of_decide_eq_true hinflight }
  have hloyal : m₀.Loyal { m₀.kernel with answersCloses := true } :=
    { negates := fun c hc => by
        rw [show m₀.kernel.ready = [] from List.isEmpty_iff.1 hready] at hc
        cases hc
      accounting := rfl
      inflight := rfl
      ready := .inl rfl }
  exact ((LoggedRun.start hstart).around _ m₀.app hloyal).of_logged? (by decide) hmoves

/-- The connection was closed, and the next turn is the last one. -/
theorem LoggedRun.drains_closed : ∃ (log : List Reply) (m m' : Machine Application),
    Machine.closed? = some (log, m) ∧ stopAsked log = true ∧ m.Heeds Application.serve log ∧
      Run.turn Application.serve false m = .ok false m' ∧ m'.Quiet := by
  have hany : Machine.closed?.any (fun (log, m) => stopAsked log && !m.worker.exited && !m.worker.isToDrain &&
      m.worker.deadline.any (m.kernel.now < ·) && (outstanding m.trace).isEmpty && m.worker.inbox.isEmpty) = true := by
    decide +kernel
  obtain ⟨⟨log, m⟩, hlogged, hfacts⟩ := (Option.any_eq_true ..).1 hany
  simp only [Bool.and_eq_true, Bool.not_eq_true', Option.any_eq_true, decide_eq_true_eq, List.isEmpty_iff] at hfacts
  obtain ⟨⟨⟨⟨⟨hasked, hexited⟩, hbegun⟩, deadline, hdeadline, hnow⟩, hout⟩, hinbox⟩ := hfacts
  have hrun := LoggedRun.of_closed? hlogged
  have hboth := LoggedRun.drains Application.modest_serve Application.thrifty_serve
  have hopen : Run.openTurn m = .ok () m := by
    rw [Run.openTurn_eq, hbegun]
    rfl
  obtain ⟨b, m', hturn, hends, hquiet⟩ := (hboth.2 log m hrun hexited).ends false m deadline hopen hdeadline hnow
  obtain rfl := hends.2 ⟨hout, hinbox⟩
  exact ⟨log, m, m', hlogged, hasked, hboth.1 log m hrun.unbridled, hturn, hquiet rfl⟩

end SlotServer
