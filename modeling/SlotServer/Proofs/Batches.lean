import SlotServer.Proofs.Inboxes
import SlotServer.Proofs.Twins

/-!
# The size of a batch makes no difference

A turn takes completions out of the kernel batch by batch, until a batch is short, and operations are queued meanwhile.
What comes of it is the same as if the completions were taken to their slots one by one.

- `Routes`: completions are taken to their slots one by one;
- `Twins.routes`, `Twins.harvestUpTo`: a batch, and all of them, do the same;
- `PlainTurn`, `PlainTurn.Tells`: a turn told without batches, and what it comes to;
- `WildRun.plainTurn`: every turn that goes on comes to that.
-/

namespace SlotServer

variable {α : Type} {m m' a a' : Machine α} {cs : List Completion}

/-- Completions are taken to their slots one after the other. Each is the first that is ready when it is taken out. -/
inductive Routes : Machine α → List Completion → Machine α → Prop
  | nil (m : Machine α) : Routes m [] m
  | cons {c : Completion} {ready cs : List Completion} {m m₁ m' : Machine α} (hready : m.kernel.ready = c :: ready)
    (hrun : Run.route c { m with kernel := { m.kernel with ready } } = .ok () m₁) (rest : Routes m₁ cs m') :
    Routes m (c :: cs) m'

theorem Routes.append {m₁ : Machine α} {cs' : List Completion} (h : Routes m cs m₁) (h' : Routes m₁ cs' m') :
    Routes m (cs ++ cs') m' := by
  induction h with
  | nil => exact h'
  | cons hready hrun _ ih => exact .cons hready hrun (ih h')

/-- A program that is blind makes nothing ready but answers to closes. -/
theorem Blind.grows {β : Type} {x : Run α β} {b : β} (hx : Blind x) (hrun : x m = .ok b m') : m.Grows m' := by
  have hends := hx (.refl m)
  rw [hrun] at hends
  cases hends with
  | ok _ hgrows => exact hgrows

/-- Those that were taken to their slots and those that are ready yet are those that were ready, and answers to closes
after them. -/
theorem Routes.grows (h : Routes m cs m') :
    m.Grows { m' with kernel := { m'.kernel with ready := cs ++ m'.kernel.ready } } := by
  induction h with
  | nil m => exact .refl m
  | @cons c ready cs m m₁ m' hready hrun _ ih =>
    have hfirst := Blind.grows (.route c) hrun
    obtain ⟨more, hmore, hnone⟩ := hfirst.ready
    obtain ⟨more', hmore', hnone'⟩ := ih.ready
    refine ⟨ih.closes.trans hfirst.closes, ⟨more ++ more', ?_, fun hno => ?_⟩, ih.batch.trans hfirst.batch⟩
    · show c :: (cs ++ m'.kernel.ready) = m.kernel.ready ++ (more ++ more')
      rw [hready, List.cons_append, ← List.append_assoc]
      exact congrArg (c :: ·) (hmore'.trans (congrArg (· ++ more') hmore))
    · rw [hnone hno, hnone' (hfirst.closes.trans hno)]
      rfl

/-- Where closes are not answered at once, all those that were ready are all that there are. -/
theorem Routes.exact (h : Routes m cs m') (hno : m.kernel.answersCloses = false)
    (hlength : m.kernel.ready.length ≤ cs.length) : cs = m.kernel.ready ∧ m'.kernel.ready = [] := by
  obtain ⟨more, hmore, hnone⟩ := h.grows.ready
  rw [hnone hno, List.append_nil] at hmore
  change cs ++ m'.kernel.ready = m.kernel.ready at hmore
  have hsum := congrArg List.length hmore
  rw [List.length_append] at hsum
  have hleft : m'.kernel.ready = [] := List.eq_nil_of_length_eq_zero (by omega)
  rw [hleft, List.append_nil] at hmore
  exact ⟨hmore, hleft⟩

namespace Twins

/-! ## Batches -/

/-- Completions that were taken out in one go are taken to their slots. They are so one by one at the twin. -/
theorem routes (h : Twins cs m a) (hrun : (cs.forM Run.route : Run α PUnit) a = .ok () a') :
    ∃ m', Routes m cs m' ∧ Twins [] m' a' := by
  induction cs generalizing m a with
  | nil =>
    cases hrun
    exact ⟨m, .nil m, h⟩
  | cons c cs ih =>
    obtain ⟨⟨⟩, a₁, hroute, hrest⟩ := Run.of_bind hrun
    have htaken : Twins cs { m with kernel := { m.kernel with ready := cs ++ a.kernel.ready } } a :=
      { h with ready := rfl }
    have hends := Blind.route c htaken
    rw [hroute] at hends
    generalize hfirst : Run.route c _ = first at hends
    cases hends with
    | ok h₁ =>
      obtain ⟨m', hroutes, h'⟩ := ih h₁ hrest
      exact ⟨m', .cons h.ready hfirst hroutes, h'⟩

/-- A batch is taken out. -/
theorem harvest (h : Twins [] m a) (most : Nat) : Twins (a.kernel.harvest most).1 m
    { a with kernel := (a.kernel.harvest most).2, trace := .polled :: a.trace } :=
  { h with
    facts := h.facts
    ready := by
      show m.kernel.ready = a.kernel.ready.take most ++ a.kernel.ready.drop most
      rw [List.take_append_drop]
      exact h.ready }

/-- Batch by batch, the completions are taken to their slots. As long as there were that many batches to be taken, none
of those that were ready is left. -/
theorem harvestUpTo {n k count : Nat} (h : Twins [] m a) (hbatch : 0 < a.worker.batch)
    (hready : k ≤ a.kernel.ready.length) (hk : k ≤ n) (hrun : Run.harvestUpTo n a = .ok count a') :
    ∃ cs m', Routes m cs m' ∧ Twins [] m' a' ∧ k ≤ cs.length := by
  -- every batch but the last one is full, so `k` falls with the number of batches that may be taken yet
  induction n generalizing m a k count with
  | zero =>
    cases hrun
    exact ⟨[], m, .nil m, h, hk⟩
  | succ n ih =>
    obtain ⟨w, a₁, hworker, hrest⟩ := Run.of_bind hrun
    cases hworker
    obtain ⟨⟨⟩, a₁, hpolled, hrest⟩ := Run.of_bind hrest
    cases hpolled
    obtain ⟨batch, a₂, hharvest, hrest⟩ := Run.of_bind hrest
    cases hharvest
    obtain ⟨⟨⟩, a₃, hroute, hrest⟩ := Run.of_bind hrest
    obtain ⟨m₁, hroutes, h₁⟩ := (h.harvest a.worker.batch).routes hroute
    have hgrows := Blind.grows (.forM Blind.route _) hroute
    obtain ⟨more, hmore, -⟩ := hgrows.ready
    have hlength : (a.kernel.harvest a.worker.batch).1.length = min a.worker.batch a.kernel.ready.length :=
      List.length_take
    split at hrest
    · rename_i hfull
      change a.worker.batch ≤ (a.kernel.harvest a.worker.batch).1.length at hfull
      obtain ⟨others, a₄, hothers, hrest⟩ := Run.of_bind hrest
      cases hrest
      have hleft : k - a.worker.batch ≤ a₃.kernel.ready.length := by
        rw [hmore, List.length_append]
        show _ ≤ (a.kernel.ready.drop a.worker.batch).length + _
        rw [List.length_drop]
        omega
      obtain ⟨cs, m', hroutes', h', hcount⟩ := ih h₁ (by rw [hgrows.batch]; exact hbatch) hleft (by omega) hothers
      refine ⟨_, m', hroutes.append hroutes', h', ?_⟩
      rw [List.length_append]
      omega
    · rename_i hshort
      change ¬a.worker.batch ≤ (a.kernel.harvest a.worker.batch).1.length at hshort
      cases hrest
      refine ⟨_, m₁, hroutes, h₁, ?_⟩
      omega

/-! ## Calls by which the loop waits -/

/-- A chore is recorded. -/
theorem chore (h : Twins [] m a) {e : Event} (he : e.isChore = true) : Twins [] m { a with trace := e :: a.trace } :=
  { h with
    facts := by
      rw [h.facts]
      unfold Machine.facts
      rw [List.filter_cons_of_neg (by rw [he]; exact nofun)] }

theorem say (h : Twins [] m a) {level : LogLevel} {message : String} (hrun : Run.say level message a = .ok () a') :
    Twins [] m a' := by
  obtain ⟨line, hsay⟩ := Run.say_run level message a
  rw [hsay] at hrun
  cases hrun
  exact h.chore rfl

/-- The kernel is asked for what the loop waits by. -/
theorem waits (h : Twins [] m a) {call : Call} (hcall : call = .arm ∨ call = .submit) :
    Twins [] m { a with kernel := (a.kernel.ask call).2 } :=
  { h with
    asked := fun other harm hsubmit => by
      have hother : other ≠ call := by rintro rfl; exact hcall.elim harm hsubmit
      exact (h.asked other harm hsubmit).trans (if_neg hother).symm }

theorem arm (h : Twins [] m a) (hrun : Run.arm a = .ok () a') : Twins [] m a' := by
  obtain ⟨answer, a₁, harm, hrest⟩ := Run.of_bind hrun
  have harmed : Twins [] m { a with kernel := a.kernel.arm.2 } := by
    have hasked := h.waits (.inl rfl)
    unfold Kernel.arm
    generalize a.kernel.ask .arm = asked at hasked
    obtain ⟨answer, k⟩ := asked
    cases answer with
    | error e => exact hasked
    | ok _ => exact { hasked with }
  have h₁ : Twins [] m a₁ := by
    cases harm
    exact harmed
  cases answer with
  | error e => exact h₁.say hrest
  | ok _ =>
    cases hrest
    exact h₁

theorem submitQueue (h : Twins [] m a) {block : Bool} (hrun : Run.submitQueue block a = .ok () a') :
    Twins [] m a' := by
  obtain ⟨w, a₁, hworker, hrest⟩ := Run.of_bind hrun
  obtain ⟨a₂, a₁, hget, hrest⟩ := Run.of_bind hrest
  obtain ⟨⟨⟩, a₁, hrecord, hrest⟩ := Run.of_bind hrest
  obtain ⟨answer, a₁, hsubmit, hrest⟩ := Run.of_bind hrest
  cases hworker
  cases hget
  cases hrecord
  have h₁ : Twins [] m a₁ := by
    cases hsubmit
    exact (h.chore (e := .submitted _) rfl).waits (.inr rfl)
  cases answer with
  | error e => exact h₁.say hrest
  | ok _ =>
    cases hrest
    exact h₁

/-- A turn takes the completions in that its worker finds. -/
theorem takeIn (h : Twins [] m a) {block : Bool} {count : Nat} (hbatch : 0 < a.worker.batch)
    (hrun : Run.takeIn block a = .ok count a') :
    ∃ cs m', Routes m cs m' ∧ Twins [] m' a' ∧ m.kernel.ready.length ≤ cs.length := by
  obtain ⟨⟨⟩, a₁, harm, hrest⟩ := Run.of_bind hrun
  obtain ⟨⟨⟩, a₂, hsubmit, hrest⟩ := Run.of_bind hrest
  obtain ⟨a₃, a₄, hget, hrest⟩ := Run.of_bind hrest
  cases hget
  have hready := (h.arm harm).submitQueue hsubmit
  have hlength : m.kernel.ready.length = a₂.kernel.ready.length := congrArg List.length hready.ready
  refine hready.harvestUpTo ?_ (Nat.le_of_eq hlength) (by omega) hrest
  rw [← hready.worker, h.worker]
  exact hbatch

/-! ## Commands -/

/-- Commands are carried out blindly where handlers are started so. -/
theorem carries {serve : Run.Serve α} {commands : List Command} (hserve : ∀ i, Blind (serve i)) (h : Twins [] m a)
    (hcarries : Carries serve a commands a') : ∃ m', Carries serve m commands m' ∧ Twins [] m' a' := by
  induction hcarries generalizing m with
  | nil a => exact ⟨m, .nil m, h⟩
  | @cons c inbox commands a a₁ a' hinbox hrun _ ih =>
    have hpopped : Twins [] { m with worker := { m.worker with inbox } } { a with worker := { a.worker with inbox } } :=
      h.modifyWorker ({ · with inbox })
    have hends := Blind.execute hserve c hpopped
    rw [hrun] at hends
    generalize hfirst : Run.execute serve c _ = first at hends
    cases hends with
    | ok h₁ =>
      obtain ⟨m', hcarries, h'⟩ := ih h₁
      exact ⟨m', .cons (by rw [h.worker]; exact hinbox) hfirst hcarries, h'⟩

end Twins

/-! ## Turns -/

/-- A turn begins, and makes nothing ready but answers to closes. -/
theorem Machine.grows_openTurn (hrun : Run.openTurn m = .ok () m') : m.Grows m' := by
  rw [Run.openTurn_eq] at hrun
  split at hrun
  · have hstops : ∀ count : Nat, Blind (do
        Run.say .info s!"draining, {count} operations in flight"
        (List.range (← Run.worker).slots.length).forM Run.drainSlot : Run α Unit) := fun _ =>
      .bind .say fun _ => .bind .worker fun _ => .forM (fun _ => .drainSlot) _
    rw [Run.beginDrain_run (Run.not_overlong_of_beginDrain hrun)] at hrun
    obtain ⟨count, m₁, hcount, hrest⟩ := Run.of_bind hrun
    have hgrows := Blind.grows (hstops count) hrest
    cases hcount
    have hbegun : m.Grows m.drain := .of_same rfl rfl rfl
    exact hbegun.trans hgrows
  · cases hrun
    exact .refl m

/-- The stations of a turn, told without its batches. -/
structure PlainTurn (α : Type) where
  /-- The turn has begun. -/
  opened : Machine α
  completions : List Completion
  /-- The completions are at their slots. -/
  routed : Machine α
  /-- What the turn itself has come to meanwhile. -/
  twin : Machine α
  commands : List Command
  /-- The commands are carried out. -/
  emptied : Machine α

/-- A turn that goes on comes through these stations. -/
structure PlainTurn.Tells (t : PlainTurn α) (serve : Run.Serve α) (m m' : Machine α) : Prop where
  /-- The drain begins, if the worker was asked to stop and has not begun it before. -/
  opens : Run.openTurn m = .ok () t.opened
  /-- The completions are taken to their slots one by one. -/
  routes : Routes t.opened t.completions t.routed
  /-- Those that were ready come first, each once. Only closes that were answered at once may come after them. -/
  whole : t.opened.kernel.ready <+: t.completions
  exact : m.kernel.answersCloses = false → t.completions = m.kernel.ready ∧ t.routed.kernel.ready = []
  meets : Twins [] t.routed t.twin
  /-- The commands are carried out one by one, those too that come meanwhile, until none is left. -/
  carries : Carries serve t.twin t.commands t.emptied
  empty : t.emptied.worker.inbox = []
  ends : Twins [] t.emptied m'
  /-- Handlers that see no difference between twins may go on from where the completions were taken one by one. -/
  blindly : (∀ i, Blind (serve i)) → ∃ m₁, Carries serve t.routed t.commands m₁ ∧ Twins [] m₁ m'

namespace Twins

theorem trans {m₁ m₂ m₃ : Machine α} (h : Twins [] m₁ m₂) (h' : Twins [] m₂ m₃) : Twins [] m₁ m₃ where
  worker := h.worker.trans h'.worker
  app := h.app.trans h'.app
  held := h.held.trans h'.held
  facts := h.facts.trans h'.facts
  sockets := h.sockets.trans h'.sockets
  schedule := h.schedule.trans h'.schedule
  asked call harm hsubmit := (h.asked call harm hsubmit).trans (h'.asked call harm hsubmit)
  closes := h.closes.trans h'.closes
  ready := h.ready.trans h'.ready

end Twins

/-- A turn has taken its completions in, as one that takes them to their slots one by one does. From there it does what
it is told to do without batches. -/
theorem PlainTurn.tells_of_taken {serve : Run.Serve α} (hserve : Modest serve) {m₁ m₂ a₂ a₃ : Machine α} {count : Nat}
    (hopen : Run.openTurn m = .ok () m₁) (hroutes : Routes m₁ cs m₂) (h₂ : Twins [] m₂ a₂)
    (hlength : m₁.kernel.ready.length ≤ cs.length) (hafloat : a₂.All Afloat []) (hexited : a₂.worker.exited = false)
    (hdrain : Run.drainInbox serve a₂ = .ok count a₃) (hslept : m' = a₃ ∨ Run.rest a₃ = .ok () m') :
    ∃ commands, (⟨m₁, cs, m₂, a₂, commands, a₃⟩ : PlainTurn α).Tells serve m m' := by
  have hgrows := Machine.grows_openTurn hopen
  obtain ⟨more, hmore, -⟩ := hroutes.grows.ready
  obtain ⟨early, hearly, hnone⟩ := hgrows.ready
  have hexecute : Run.executeUpTo serve (2 * a₂.worker.inboxCapacity + 1) a₂ = .ok count a₃ := hdrain
  obtain ⟨commands, hcarries, -⟩ := Carries.of_executeUpTo hexecute
  have hends : Twins [] a₃ m' := by
    rcases hslept with rfl | hslept
    · exact .refl m'
    · cases hslept
      exact { Twins.refl a₃ with }
  refine ⟨commands, ?_⟩
  exact
    { opens := hopen
      routes := hroutes
      whole := List.prefix_of_prefix_length_le ⟨more, rfl⟩ ⟨m₂.kernel.ready, hmore⟩ hlength
      exact := fun hno => by
        rw [hnone hno, List.append_nil] at hearly
        rw [← hearly]
        exact hroutes.exact (hgrows.closes.trans hno) hlength
      meets := h₂
      carries := hcarries
      empty := (hafloat.empties hexited).inbox_nil hserve hdrain
      ends := hends
      blindly := fun hblind => by
        obtain ⟨m₃, hplain, h₃⟩ := h₂.carries hblind hcarries
        exact ⟨m₃, hplain, h₃.trans hends⟩ }

/-- A turn that goes on does what it is told to do without batches. -/
theorem Machine.All.tells_plainTurn {serve : Run.Serve α} (hserve : Modest serve) (h : m.All Moored [])
    (hexited : m.worker.exited = false) (hbatch : 0 < m.worker.batch) {block : Bool}
    (hrun : Run.turn serve block m = .ok true m') : ∃ t : PlainTurn α, t.Tells serve m m' := by
  obtain ⟨m₁, completed, a₂, count, a₃, hopen, -, htaken, hdrain, hslept⟩ := Run.of_turn_true hrun
  have hgrows := Machine.grows_openTurn hopen
  obtain ⟨cs, m₂, hroutes, h₂, hlength⟩ := (Twins.refl m₁).takeIn (hgrows.batch ▸ hbatch) htaken
  obtain ⟨hafloat, hexited₂⟩ := h.takenIn hserve hexited hopen htaken
  obtain ⟨commands, htells⟩ :=
    PlainTurn.tells_of_taken hserve hopen hroutes h₂ hlength hafloat hexited₂ hdrain hslept
  exact ⟨_, htells⟩

/-- The machine with batches of another size. -/
abbrev Machine.batched (m : Machine α) (n : Nat) : Machine α := { m with worker := { m.worker with batch := n } }

/-- However large its batches are, whatever completions are ready and whatever calls of the kernel fail, a turn that
does not stop the loop comes to its end, and does what it is told to do without batches. It stops the loop where the
drain is over, and, at once, where it is to begin one whose end no clock can tell. -/
theorem WildRun.plainTurn {serve : Run.Serve α} {n : Nat} (hserve : Modest serve) (h : WildRun serve m)
    (hexited : m.worker.exited = false) (hbatch : 0 < n) (block : Bool) :
    (m.Balks → Run.turn serve block (m.batched n) = .error .timeOverflow (m.batched n)) ∧
      (¬ m.Balks → ∃ b m', Run.turn serve block (m.batched n) = .ok b m' ∧
        (b = true → ∃ t : PlainTurn α, t.Tells serve (m.batched n) m')) := by
  have hall : (m.batched n).All Moored [] := fun i => h.moored hserve i
  refine ⟨fun hbalks => Run.turn_balks serve block hbalks, fun hbalks => ?_⟩
  obtain ⟨b, m', hrun, -⟩ := ((wild hserve).turn block hall hexited).comesUnless hbalks
  refine ⟨b, m', hrun, fun hgoes => ?_⟩
  subst hgoes
  exact hall.tells_plainTurn hserve hexited hbatch hrun

/-- The machine once two completions have come, where no wake-up read can be left and no queue be handed over. -/
abbrev Machine.unawaited (m : Machine α) : Machine α :=
  { m with kernel := { m.kernel with
    schedule := fun call _ => if call = .arm ∨ call = .submit then some .connectionClosed else none
    ready := [⟨.ofSlot 0, 1, 0⟩, ⟨.ofSlot 0, 1, 0⟩] } }

/-- Two completions come, and two batches of one are full. -/
theorem WildRun.plainTurn_full : ∃ (m m' : Machine Application) (t : PlainTurn Application),
    Machine.small?.bind (·.after? Application.serve [.assign 5 none, .turn false, .deed 0 .receive, .turn false]) =
      some m ∧
    Run.turn Application.serve true (m.unawaited.batched 1) = .ok true m' ∧
    t.Tells Application.serve (m.unawaited.batched 1) m' := by
  have hany : (Machine.small?.bind
      (·.after? Application.serve [.assign 5 none, .turn false, .deed 0 .receive, .turn false])).any (fun m =>
        !m.worker.exited && !m.worker.isToDrain &&
          match Run.turn Application.serve true (m.unawaited.batched 1) with
          | .ok b _ => b
          | .error _ _ => false) = true := by decide +kernel
  obtain ⟨m, hafter, hgoes⟩ := (Option.any_eq_true ..).1 hany
  obtain ⟨hlive, hgoes⟩ := Bool.and_eq_true_iff.1 hgoes
  rw [Bool.and_eq_true, Bool.not_eq_true', Bool.not_eq_true'] at hlive
  obtain ⟨hexited, hbegun⟩ := hlive
  have hbalks : ¬ m.unawaited.Balks := fun hbalks => by
    rw [show m.worker.isToDrain = true from hbalks.1] at hbegun
    cases hbegun
  obtain ⟨m₀, hbuilt, hmoves⟩ := Option.bind_eq_some_iff.1 hafter
  have hstart : m₀.Starts := .of_built? hbuilt (by decide +kernel)
  have hrun : WildRun Application.serve m :=
    Reached.after (fun move => move.isWhole = true) (.start hstart)
      (fun hwhole hallowed hrun => .move _ hwhole hallowed hrun) (by decide) hmoves
  have hready : ∀ c ∈ m.unawaited.kernel.ready, c.result ≠ Int32.minValue := by
    show ∀ c ∈ [(⟨.ofSlot 0, 1, 0⟩ : Completion), ⟨.ofSlot 0, 1, 0⟩], c.result ≠ Int32.minValue
    decide
  obtain ⟨b, m', hturn, htold⟩ := (WildRun.plainTurn Application.modest_serve
    (hrun.step (.around m.unawaited.kernel m.app hready)) hexited Nat.one_pos true).2 hbalks
  rw [hturn] at hgoes
  obtain rfl : b = true := hgoes
  obtain ⟨t, ht⟩ := htold rfl
  exact ⟨m, m', t, hafter, hturn, ht⟩

end SlotServer
