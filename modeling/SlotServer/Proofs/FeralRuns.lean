import SlotServer.Proofs.Absorbing

/-!
# Workers over kernels that answer anything

A kernel is feral if any completions may become ready at any time: for slots that wait for none or are not there, again
and again, with results that mean nothing. Wherever a worker over such a kernel comes to, its slots keep their leases
right, and a turn comes to its end. There is one completion that it does not survive: the least result has no error
number.

- `Sized`: programs that leave batches as large as they were; a turn whose batches were empty would never take anything
  out;
- `Machine.Steady`: what holds of a worker between operations, and `FeralRun.steady`: that it does;
- `Turned`: what comes of a turn, and `FeralRun.turn_turned`: that it does;
- `FeralRun.not_survives`: the turn that is at fault.
-/

namespace SlotServer

variable {α β γ : Type} {serve : Run.Serve α} {m m' : Machine α}

/-! ## Batches -/

/-- The program leaves batches as large as they were. -/
def Sized (x : Run α β) : Prop := ∀ m b m', x m = .ok b m' → m'.worker.batch = m.worker.batch

/-- So do the calls of a handle. -/
theorem Deeds.batch {i : Nat} (h : Deeds i m m') : m'.worker.batch = m.worker.batch := by
  induction h with
  | done m => rfl
  | deed d _ hrun _ ih => exact ih.trans (Blind.grows (.deed d) hrun).batch
  | aside _ _ _ _ _ _ ih => exact ih

namespace Sized

theorem of_blind {x : Run α β} (hx : Blind x) : Sized x := fun _ _ _ hrun => (Blind.grows hx hrun).batch

theorem bind {x : Run α β} {k : β → Run α γ} (hx : Sized x) (hk : ∀ b, Sized (k b)) : Sized (x >>= k) := by
  intro m c m'' hrun
  obtain ⟨b, m', hfirst, hrest⟩ := Run.of_bind hrun
  exact (hk b m' c m'' hrest).trans (hx m b m' hfirst)

theorem takeOver (hserve : Modest serve) (i : Nat) (peer : Option Net.SocketAddress) :
    Sized (Run.takeOver serve i peer) := by
  refine bind (of_blind (.stepSlot _)) fun answer => ?_
  cases answer with
  | error e => exact of_blind .violation
  | ok _ =>
    refine bind (of_blind .bump) fun _ => bind (of_blind .say) fun _ => ?_
    intro m b m' hrun
    obtain ⟨⟨⟩, m₁, hattach, hrest⟩ := Run.of_bind hrun
    obtain ⟨⟨⟩, m₂, hrecord, hrest⟩ := Run.of_bind hrest
    obtain ⟨answer, m₃, hserved, hrest⟩ := Run.of_bind hrest
    -- the handler is started once the handle of its connection is there
    have hheld : i ∈ m₂.held := by
      obtain ⟨⟨⟩, m₀, hslot, hheld⟩ := Run.of_bind hattach
      cases hslot
      cases hheld
      cases hrecord
      exact List.mem_cons_self ..
    have hdeeds : Deeds i m₂ m₃ := by
      have hacted := hserve i m₂ hheld
      rwa [hserved] at hacted
    have hattached : m₂.worker.batch = m.worker.batch :=
      (of_blind (.record _) m₁ () m₂ hrecord).trans
        (of_blind (.bind (.modifySlot _) fun _ => .modifyHeld _) m () m₁ hattach)
    have hlast : m'.worker.batch = m₃.worker.batch := by
      cases answer with
      | error e => exact bind (of_blind .say) (fun _ => of_blind .bump) m₃ b m' hrest
      | ok _ => exact of_blind (.pure _) m₃ b m' hrest
    rw [hlast, hdeeds.batch, hattached]

theorem onAccept (hserve : Modest serve) (i : Nat) : Sized (Run.onAccept serve i) := by
  refine bind (of_blind .slot?) fun here => ?_
  cases here with
  | none => exact of_blind (.pure _)
  | some s =>
    refine bind (of_blind .worker) fun w => ?_
    dsimp only
    split
    · exact of_blind (.bind .abandon fun _ => .pure _)
    split
    · refine bind (of_blind (.setNoDelay _)) fun answer => ?_
      cases answer with
      | error e => exact of_blind (.bind .say fun _ => .bind .bump fun _ => .bind .abandon fun _ => .pure _)
      | ok _ => exact takeOver hserve i s.peer
    · exact takeOver hserve i s.peer

theorem execute (hserve : Modest serve) (c : Command) : Sized (Run.execute serve c) := by
  cases c with
  | accept i => exact onAccept hserve i
  | receive i => exact of_blind (.issueHalf .receive)
  | send i => exact of_blind (.issueHalf .send)
  | disconnect i => exact of_blind .issueClose

theorem executeUpTo (hserve : Modest serve) (n : Nat) : Sized (Run.executeUpTo serve n) := by
  induction n with
  | zero => exact of_blind (.pure _)
  | succ n ih =>
    refine bind (of_blind .popCommand) fun c => ?_
    cases c with
    | none => exact of_blind (.pure _)
    | some c => exact bind (execute hserve c) fun _ => bind ih fun _ => of_blind (.pure _)

theorem drainInbox (hserve : Modest serve) : Sized (Run.drainInbox serve) :=
  bind (of_blind .worker) fun _ => executeUpTo hserve _

end Sized

/-! ## Between operations -/

/-- What holds of a worker between operations, whatever completions are ready. -/
structure Machine.Steady (m : Machine α) : Prop where
  moored : m.All (Muted Moored) []
  batch : 0 < m.worker.batch

namespace Machine.Steady

theorem of_starts (h : m.Starts) : m.Steady where
  moored i := Moored.muted i _ (Moored.of_starts h i)
  batch := by
    obtain ⟨id, config, cores, k, -, hbuild⟩ := h.built
    exact Worker.batch_of_build hbuild

/-- What a blind program keeps where nothing is ready, it keeps. -/
theorem blind {x : Run α β} {b : β} (h : m.Steady) (hx : Blind x)
    (hkeeps : Holds (fun _ => False) x m.hushed fun _ m' => m'.All Moored []) (hrun : x m = .ok b m') : m'.Steady where
  moored := (hx.muted Moored.muted hkeeps).of_ok hrun
  batch := by
    rw [(Blind.grows hx hrun).batch]
    exact h.batch

/-- A turn begins, unless it is to begin a drain whose end no clock can tell. -/
theorem openTurn (hserve : Modest serve) (h : m.Steady) (hexited : m.worker.exited = false) (hbalks : ¬ m.Balks) :
    ∃ m', Run.openTurn m = .ok () m' ∧ m'.Steady ∧ m'.worker.exited = false := by
  have hstop : ∀ i (m : Machine α), m.All (Muted fun i v => Moored i v ∧ v.exited = false) [] →
      Holds (fun _ => False) (Run.drainSlot i : Run α Unit) m fun _ m' =>
        m'.All (Muted fun i v => Moored i v ∧ v.exited = false) [] := by
    intro i m₁ h₁
    refine Blind.drainSlot.muted (fun i v h' => ⟨Moored.muted i v h'.1, h'.2⟩) ?_
    exact ((wild hserve).stopSlot (m := m₁.hushed) i (fun j => (h₁ j).1) (h₁ 0).2).mono
      fun _ m₂ ⟨h₂, he₂⟩ j => ⟨h₂ j, he₂⟩
  have hholds : Holds (fun fault => False ∨ fault = .timeOverflow ∧ m.Balks) (Run.openTurn : Run α Unit) m fun _ m' =>
      m'.All (Muted fun i v => Moored i v ∧ v.exited = false) [] := by
    refine Holds.bind (Holds.worker ?_)
    split
    · rename_i hdrain
      exact (Holds.beginDrain hstop fun i => ⟨h.moored i, hexited⟩).widen
        fun _ hfault => hfault.imp_right fun ⟨hlate, hlong⟩ => ⟨hlate, hdrain, hlong⟩
    · exact Holds.pure fun i => ⟨h.moored i, hexited⟩
  obtain ⟨⟨⟩, m', hopen, hall⟩ := hholds.comesUnless hbalks
  refine ⟨m', hopen, ⟨fun i => (hall i).1, ?_⟩, (hall 0).2⟩
  rw [(Machine.grows_openTurn hopen).batch]
  exact h.batch

end Machine.Steady

/-! ## Turns -/

/-- What comes of a turn whatever completions are ready. -/
inductive Turned (serve : Run.Serve α) (m : Machine α) : EStateM.Result Fault (Machine α) Bool → Prop
  /-- The turn is to begin a drain whose end no clock can tell, and no completion has come to it. -/
  | late (hbalks : m.Balks) : Turned serve m (.error .timeOverflow m)
  /-- The drain is over. -/
  | over {m₁ m' : Machine α} (hopen : Run.openTurn m = .ok () m₁) (hdone : Run.drained m₁ = .ok true m') :
    Turned serve m (.ok false m')
  /-- The turn goes on, and every completion is absorbed. -/
  | goes {t : PlainTurn α} {m' : Machine α} (htells : t.Tells serve m m')
    (habsorbs : Absorbs t.opened t.completions t.routed) : Turned serve m (.ok true m')
  /-- After others were absorbed, a completion comes that has the least result, and its slot waits for one. -/
  | stumbles {m₁ m₂ m' : Machine α} {cs ready : List Completion} {c : Completion}
    (hopen : Run.openTurn m = .ok () m₁) (habsorbs : Absorbs m₁ cs m₂) (hready : m₂.kernel.ready = c :: ready)
    (hstumbles : m₂.Stumbles c) : Turned serve m (.error .negOverflow m')

/-- The end of a turn: a worker that drains rests where nothing came. -/
def Run.doze (block : Bool) (completed commands : Nat) : Run α Bool := do
  if (← worker).deadline.isSome && block && completed = 0 && commands = 0 then rest
  return true

theorem Run.doze_run (block : Bool) (completed commands : Nat) (m : Machine α) :
    ∃ m', (m' = m ∨ rest m = .ok () m') ∧ doze block completed commands m = .ok true m' := by
  refine Exists.imp (fun _ => And.imp_right (bind_run (x := worker) rfl).trans) ?_
  split
  · exact ⟨_, .inr rfl, rfl⟩
  · exact ⟨m, .inl rfl, rfl⟩

theorem Run.goOn_eq (block : Bool) : goOn serve block = (do
    let completed ← takeIn block
    let commands ← drainInbox serve
    doze block completed commands) := by
  unfold goOn takeIn doze
  simp only [bind_assoc]

/-- Absorbing a completion leaves the rest of the worker alone. -/
theorem Absorbs.worker {cs : List Completion} (h : Absorbs m cs m') :
    m'.worker.exited = m.worker.exited ∧ m'.worker.batch = m.worker.batch := by
  induction h with
  | nil m => exact ⟨rfl, rfl⟩
  | cons _ habsorbed _ ih =>
    obtain ⟨since, n, htouched⟩ := habsorbed.touched
    rw [ih.1, ih.2, htouched.worker]
    exact ⟨rfl, rfl⟩

theorem Sized.drained : Sized (Run.drained : Run α Bool) := by
  have hget : Sized (MonadState.get : Run α (Machine α)) := fun m b m' hrun => by
    cases hrun
    rfl
  refine bind (of_blind .worker) fun w => ?_
  split
  · exact of_blind (.pure _)
  · refine bind (bind hget fun _ => of_blind (.pure _)) fun count => bind (of_blind .worker) fun w => ?_
    split
    · exact of_blind (.pure _)
    · refine bind hget fun m => ?_
      split
      · exact of_blind (.bind .say fun _ => .pure _)
      · exact of_blind (.pure _)

/-- Once all that were ready are absorbed, the slots are as within a turn, however the completions were taken out. -/
theorem Absorbs.afloat {a : Machine α} {cs : List Completion} (h : Absorbs m cs m') (htwins : Twins [] m' a)
    (hall : m'.All (Muted Afloat) []) (hleast : m.kernel.ready.length ≤ cs.length) :
    a.All Afloat [] ∧ a.worker.exited = m.worker.exited ∧ a.worker.batch = m.worker.batch := by
  have hready : ∀ c ∈ a.kernel.ready, c.result ≠ Int32.minValue := by
    have hleft := h.left hleast
    rwa [htwins.ready] at hleft
  have hsame := h.worker
  rw [htwins.worker] at hsame
  exact ⟨(hall.of_twins htwins).unmuted hready, hsame⟩

/-- Once completions were taken in, the slots are as within a turn. -/
theorem Machine.Steady.takenIn (h : m.Steady) (hexited : m.worker.exited = false) {block : Bool} {completed : Nat}
    (htaken : Run.takeIn block m = .ok completed m') : m'.All Afloat [] ∧ m'.worker.exited = false := by
  have htakes := (Twins.refl m).takes_takeIn (fun i => (h.moored i).afloat) h.batch block
  rw [htaken] at htakes
  cases htakes with
  | all habsorbs htwins hall hleast =>
    obtain ⟨hafloat, hsame, -⟩ := habsorbs.afloat htwins hall hleast
    exact ⟨hafloat, hsame.trans hexited⟩

/-- After its beginning a turn comes to its end, but for a completion that cannot be absorbed. -/
theorem Machine.Steady.goOn (hserve : Modest serve) {m₁ : Machine α} (hopen : Run.openTurn m = .ok () m₁)
    (h : m₁.Steady) (hexited : m₁.worker.exited = false) (block : Bool) :
    Turned serve m (Run.goOn serve block m₁) ∧ ∀ b m', Run.goOn serve block m₁ = .ok b m' → m'.Steady := by
  have hall : m₁.All (Muted Afloat) [] := fun i => (h.moored i).afloat
  have htakes := (Twins.refl m₁).takes_takeIn hall h.batch block
  rw [Run.goOn_eq]
  generalize htaken : Run.takeIn block m₁ = r at htakes
  cases htakes with
  | stumbles habsorbs hready hstumbles =>
    rw [Run.bind_error htaken]
    exact ⟨.stumbles hopen habsorbs hready hstumbles, fun _ _ heq => nomatch heq⟩
  | @all cs count m₃ a habsorbs htwins hall₃ hleast =>
    obtain ⟨hafloat, hsame, hbatch⟩ := habsorbs.afloat htwins hall₃ hleast
    obtain ⟨commands, a', hdrain, hmoored⟩ := (drainInbox_moored hserve hafloat (hsame.trans hexited)).comes
    have hsteady : a'.Steady :=
      ⟨fun i => Moored.muted i _ (hmoored i), by rw [Sized.drainInbox hserve _ _ _ hdrain, hbatch]; exact h.batch⟩
    obtain ⟨m', hslept, hdozed⟩ := Run.doze_run block count commands a'
    have hrun : (do
        let completed ← Run.takeIn block
        let commands ← Run.drainInbox serve
        Run.doze block completed commands : Run α Bool) m₁ = .ok true m' :=
      (Run.bind_run htaken).trans ((Run.bind_run hdrain).trans hdozed)
    rw [hrun]
    constructor
    · obtain ⟨_, htells⟩ := PlainTurn.tells_of_taken hserve hopen habsorbs.routes htwins hleast hafloat
        (hsame.trans hexited) hdrain hslept
      exact .goes htells habsorbs
    · intro b m'' heq
      cases heq
      rcases hslept with rfl | hslept
      · exact hsteady
      · cases hslept
        exact ⟨hsteady.moored, hsteady.batch⟩

/-- A turn comes to its end, but for a drain that cannot begin and for a completion that cannot be absorbed. -/
theorem Machine.Steady.turned (hserve : Modest serve) (h : m.Steady) (hexited : m.worker.exited = false)
    (block : Bool) : Turned serve m (Run.turn serve block m) ∧
      ∀ b m', Run.turn serve block m = .ok b m' → m'.Steady := by
  by_cases hbalks : m.Balks
  · rw [Run.turn_balks serve block hbalks]
    exact ⟨.late hbalks, fun _ _ heq => nomatch heq⟩
  obtain ⟨m₁, hopen, hsteady, hexited₁⟩ := h.openTurn hserve hexited hbalks
  obtain ⟨done, m₂, hdone, hview⟩ := Regime.still_drained m₁
  have hturn : Run.turn serve block m = (if done then pure false else Run.goOn serve block : Run α Bool) m₂ := by
    rw [Run.turn_eq]
    exact (Run.bind_run hopen).trans (Run.bind_run hdone)
  rw [hturn]
  cases done with
  | true =>
    refine ⟨.over hopen hdone, fun b m' hrun => ?_⟩
    cases hrun
    refine ⟨hsteady.moored.congr (hview []), ?_⟩
    rw [Sized.drained _ _ _ hdone]
    exact hsteady.batch
  | false =>
    obtain rfl := Run.of_drained_false hdone
    exact hsteady.goOn hserve hopen hexited₁ block

/-! ## Runs -/

/-- What may happen at a worker over a feral kernel. -/
inductive FeralStep (serve : Run.Serve α) (m : Machine α) : Machine α → Prop
  /-- The worker is made to do something. -/
  | move (move : Move) {m' : Machine α} (hwhole : move.isWhole = true) (hallowed : move.Allowed m)
    (hrun : move.run serve m = .ok () m') : FeralStep serve m m'
  /-- Something happens around the worker. Any completions may become ready, with any results, and any operations may
  fail from now on. -/
  | around (kernel : Kernel) (app : α) : FeralStep serve m { m with kernel, app }

/-- A machine that a worker over a feral kernel comes to. -/
abbrev FeralRun (serve : Run.Serve α) : Machine α → Prop := Reached Machine.Starts (FeralStep serve)

theorem Machine.Steady.step (hserve : Modest serve) (h : m.Steady) (hstep : FeralStep serve m m') : m'.Steady := by
  cases hstep with
  | around kernel app => exact ⟨h.moored, h.batch⟩
  | move move hwhole hallowed hrun =>
    have hquiet : ∀ {move : Move}, move.isWhole = true → move.Allowed m.hushed → ¬ move.Balks m.hushed →
        Blind (move.run serve) → move.run serve m = .ok () m' → m'.Steady := fun hwhole hallowed hbalks hblind hrun =>
      h.blind hblind (((wild hserve).move (m := m.hushed) h.moored hwhole hallowed).widen
        fun _ hfault => hfault.elim id fun hlate => hbalks hlate.2) hrun
    cases move with
    | assign fd peer => exact hquiet hwhole hallowed id (.bind (.assign fd peer) fun _ => .pure _) hrun
    | deed i d => exact hquiet hwhole hallowed id (.deed d) hrun
    | stop => exact hquiet hwhole hallowed id .requestStop hrun
    | finish => exact hquiet hwhole hallowed id .finish hrun
    | turn block =>
      obtain ⟨b, m₁, hturn, hrest⟩ := Run.of_bind hrun
      cases hrest
      exact (h.turned hserve hallowed block).2 b m' hturn
    | _ => cases hwhole

theorem FeralRun.steady (hserve : Modest serve) (h : FeralRun serve m) : m.Steady :=
  Reached.keeps h (fun _ => Machine.Steady.of_starts) fun _ _ => Machine.Steady.step hserve

/-- Whatever completions were and are ready, a turn comes to its end unless one with the least result comes for a slot
that waits, or the drain that it is to begin is one whose end no clock can tell. What a receive or a send waited for has
ended then: its outcome is told, and its connection is closed or left idle. -/
theorem FeralRun.turn_turned (hserve : Modest serve) (h : FeralRun serve m) (hexited : m.worker.exited = false)
    (block : Bool) : Turned serve m (Run.turn serve block m) := ((h.steady hserve).turned hserve hexited block).1

/-- The machine once completions have come. -/
abbrev Machine.beset (m : Machine α) (ready : List Completion) : Machine α :=
  { m with kernel := { m.kernel with ready } }

/-- A connection waits for bytes. -/
def Machine.waiting? : Option (Machine Application) :=
  small?.bind (·.after? Application.serve [.assign 5 none, .turn false, .deed 0 .receive, .turn false])

theorem FeralRun.of_waiting? {m : Machine Application} (h : Machine.waiting? = some m) :
    FeralRun Application.serve m := by
  unfold Machine.waiting? at h
  obtain ⟨m₀, hbuilt, hmoves⟩ := Option.bind_eq_some_iff.1 h
  have hstart : m₀.Starts := .of_built? hbuilt (by decide +kernel)
  exact Reached.after (fun move => move.isWhole = true) (.start hstart)
    (fun hwhole hallowed hrun => .move _ hwhole hallowed hrun) (by decide) hmoves

/-- A connection that waits for bytes gets some, after a completion for a slot that is not there and before another one
for itself. Either of these has the least result. -/
theorem FeralRun.turn_turned_beset : ∃ m m' : Machine Application, Machine.waiting? = some m ∧
    Run.turn Application.serve true
      (m.beset [⟨.wake, .minValue, 0⟩, ⟨.ofSlot 0, 1, 0⟩, ⟨.ofSlot 0, .minValue, 0⟩]) = .ok true m' ∧
    Turned Application.serve (m.beset [⟨.wake, .minValue, 0⟩, ⟨.ofSlot 0, 1, 0⟩, ⟨.ofSlot 0, .minValue, 0⟩])
      (.ok true m') := by
  have hany : Machine.waiting?.any (fun m => !m.worker.exited &&
      match Run.turn Application.serve true
        (m.beset [⟨.wake, .minValue, 0⟩, ⟨.ofSlot 0, 1, 0⟩, ⟨.ofSlot 0, .minValue, 0⟩]) with
      | .ok b _ => b
      | .error _ _ => false) = true := by decide +kernel
  obtain ⟨m, hwaiting, hgoes⟩ := (Option.any_eq_true ..).1 hany
  obtain ⟨hlive, hgoes⟩ := Bool.and_eq_true_iff.1 hgoes
  have hexited : m.worker.exited = false := by simpa using hlive
  have hrun : FeralRun Application.serve
      (m.beset [⟨.wake, .minValue, 0⟩, ⟨.ofSlot 0, 1, 0⟩, ⟨.ofSlot 0, .minValue, 0⟩]) :=
    (FeralRun.of_waiting? hwaiting).step (.around _ m.app)
  have hturned := FeralRun.turn_turned Application.modest_serve hrun hexited true
  split at hgoes
  · rename_i b m' hturn
    obtain rfl : b = true := hgoes
    rw [hturn] at hturned
    exact ⟨m, m', hwaiting, hturn, hturned⟩
  · cases hgoes

/-- Not every turn comes to its end. -/
theorem FeralRun.not_survives : ¬∀ (m : Machine Application), FeralRun Application.serve m →
    m.worker.exited = false → ∃ b m', Run.turn Application.serve true m = .ok b m' := by
  intro hsurvives
  have hany : Machine.waiting?.any (fun m => !m.worker.exited &&
      match Run.turn Application.serve true (m.beset [⟨.ofSlot 0, .minValue, 0⟩]) with
      | .ok _ _ => false
      | .error _ _ => true) = true := by decide +kernel
  obtain ⟨m, hwaiting, hfaulty⟩ := (Option.any_eq_true ..).1 hany
  obtain ⟨hlive, hfaulty⟩ := Bool.and_eq_true_iff.1 hfaulty
  have hexited : m.worker.exited = false := by simpa using hlive
  obtain ⟨b, m', hturn⟩ := hsurvives (m.beset [⟨.ofSlot 0, .minValue, 0⟩])
    ((FeralRun.of_waiting? hwaiting).step (.around _ m.app)) hexited
  rw [hturn] at hfaulty
  cases hfaulty

end SlotServer
