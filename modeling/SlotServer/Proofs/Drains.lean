import SlotServer.Proofs.Accounts
import SlotServer.Proofs.HandOver
import SlotServer.Proofs.Rows

/-!
# Workers that were asked to stop

A worker that was asked to stop takes no socket any more, and the first turn of its loop after that begins the drain.
From then on the loop gives no connection to the handler. This holds over any kernel.

- `stopAsked`, `drainBegun`: what the log tells of the request and of the drain;
- `Machine.Numbered`: the slots keep their places, so a program that works on one slot leaves the others;
- `Run.of_forM_drainSlot`: the start of the drain closes what is idle;
- `Run.turn_congr`: while the worker drains, its turns do not depend on the handler;
- `Machine.Heeds`: what comes of a request to stop (`LoggedRun.heeds`).
-/

namespace SlotServer

variable {α β γ : Type}

/-! ## What the log tells -/

/-- The worker was asked to stop. -/
def stopAsked : List Reply → Bool
  | [] => false
  | .asked :: _ => true
  | _ :: log => stopAsked log

/-- The loop has made a turn since the worker was asked to stop. -/
def drainBegun : List Reply → Bool
  | [] => false
  | .turned _ :: log => stopAsked log
  | _ :: log => drainBegun log

/-- A drain begins only after it was asked for. -/
theorem stopAsked_of_drainBegun {log : List Reply} (h : drainBegun log = true) : stopAsked log = true := by
  induction log with
  | nil => cases h
  | cons reply log ih =>
    cases reply with
    | turned b => exact h
    | asked => rfl
    | assigned answer | done => exact ih h

/-! ## Places of slots -/

/-- The slots are numbered by their places, with numbers of 32 bits. -/
structure Machine.Numbered (m : Machine α) : Prop where
  size : m.worker.slots.length ≤ 0x100000000
  index : ∀ (i : Nat) (s : Slot), m.worker.slots[i]? = some s → s.index = i

namespace Machine.Numbered

variable {strict : Bool} {m m' : Machine α}

theorem small (h : m.Numbered) {i : Nat} {s : Slot} (hs : m.worker.slots[i]? = some s) :
    (Context.ofSlot i).slot = i := by
  rw [Context.slot_ofSlot]
  exact Nat.mod_eq_of_lt (Nat.lt_of_lt_of_le (List.getElem?_eq_some_iff.1 hs).1 h.size)

theorem of_starts (h : m.Starts) : m.Numbered where
  size := h.size
  index i s hs := by
    rw [(h.new.slots i s hs).eq]
    exact Nat.mod_eq_of_lt (Nat.lt_of_lt_of_le (List.getElem?_eq_some_iff.1 hs).1 h.size)

theorem upkeep {n : UInt64} (h : m.Numbered) (hkept : Upkeep strict n m m') : m'.Numbered where
  size := hkept.size ▸ h.size
  index i s' hs' := by
    have hi : i < m.worker.slots.length := hkept.size ▸ (List.getElem?_eq_some_iff.1 hs').1
    have hs := List.getElem?_eq_getElem hi
    exact (hkept.slots i _ s' hs hs').index.trans (h.index i _ hs)

theorem enters {i : Nat} {before after : SlotState} {e : Event} (h : m.Numbered)
    (henters : Enters i before after e m m') : m'.Numbered := by
  obtain ⟨s, t, hs, -, -, hindex, hslots⟩ := henters.slot
  refine ⟨by rw [hslots, List.length_set]; exact h.size, fun j s' hs' => ?_⟩
  rw [hslots] at hs'
  by_cases hj : j = i
  · subst hj
    rw [List.getElem?_set_self (List.getElem?_eq_some_iff.1 hs).1] at hs'
    obtain rfl := Option.some.inj hs'
    exact hindex.trans (h.index j s hs)
  · rw [List.getElem?_set_ne (Ne.symm hj)] at hs'
    exact h.index j s' hs'

theorem strides (h : m.Numbered) (hstrides : Strides strict m m') : m'.Numbered := by
  induction hstrides with
  | refl => exact h
  | tail _ hstride ih =>
    cases hstride with
    | upkeep hkept => exact ih.upkeep hkept
    | serve hserves => exact ih.enters hserves.toEnters

theorem advance {reply : Reply} (h : m.Numbered) (hadvance : Advance m m' reply) : m'.Numbered := by
  cases hadvance with
  | refused e hkept => exact h.upkeep hkept
  | accepted hfree hbefore hbinds hafter => exact ((h.upkeep hbefore).enters hbinds.toEnters).upkeep hafter
  | asked hkept =>
    have hasked : ({ m with worker := { m.worker with stopping := true } } : Machine α).Numbered := ⟨h.size, h.index⟩
    exact hasked.upkeep hkept
  | turned b hstrides =>
    refine strides ?_ hstrides
    unfold opened
    split
    · exact ⟨h.size, h.index⟩
    · exact h
  | done hkept => exact h.upkeep hkept

end Machine.Numbered

/-! ## The start of the drain -/

namespace Run

/-- An idle slot that is stopped for the drain is over. -/
theorem of_drainSlot_idle {i : Nat} {s : Slot} {m m' : Machine α} (hs : m.worker.slots[i]? = some s)
    (hidle : s.state.isIdle = true) (hrun : drainSlot i m = .ok () m') :
    ∃ s', m'.worker.slots[i]? = some s' ∧ s'.state.isOver = true := by
  replace hrun := (bind_run (slot?_run hs)).symm.trans hrun
  dsimp only at hrun
  have hdisconnect : disconnect i m = .ok () m' := by
    cases hstate : s.state <;> rw [hstate] at hrun hidle <;> first | exact hrun | cases hidle
  replace hdisconnect := (bind_run (stepSlot_run hs)).symm.trans hdisconnect
  rw [Slot.startDisconnect, Slot.advance_of_mem (SlotState.mem_of_isIdle hidle)] at hdisconnect
  have hkept : Upkeep false 0 _ m' := Tidy.issueClose _ () m' hdisconnect
  have hself : (m.worker.setSlot i { s with state := .disconnecting }).slots[i]? =
      some { s with state := .disconnecting } := List.getElem?_set_self (List.getElem?_eq_some_iff.1 hs).1
  have hi : i < m'.worker.slots.length := by
    rw [hkept.size]
    exact (List.getElem?_eq_some_iff.1 hself).1
  have hs' := List.getElem?_eq_getElem hi
  exact ⟨_, hs', (hkept.slots i _ _ hself hs').gone rfl⟩

/-- Stopping a slot for the drain leaves the others alone. -/
theorem of_drainSlot_ne {i j : Nat} {m m' : Machine α} (h : m.Numbered) (hrun : drainSlot j m = .ok () m')
    (hij : i ≠ j) : m'.worker.slots[i]? = m.worker.slots[i]? := by
  cases hs : m.worker.slots[j]? with
  | none =>
    cases (bind_run (slot?_run_none hs)).symm.trans hrun
    rfl
  | some s =>
    have hlead := Handles.drainSlot (h.small hs) (m.view [] j) s hs (h.index j s hs) m [] (fun _ _ => trivial) rfl
    rw [hrun] at hlead
    exact congrArg View.slot? (hlead.2 i hij)

/-- Every slot that was idle is over once the drain has begun. -/
theorem of_forM_drainSlot {l : List Nat} {m m' : Machine α} (h : m.Numbered)
    (hrun : (l.forM drainSlot : Run α PUnit) m = .ok () m') {i : Nat} {s : Slot} (hi : i ∈ l)
    (hs : m.worker.slots[i]? = some s) (hidle : s.state.isIdle = true) :
    ∃ s', m'.worker.slots[i]? = some s' ∧ s'.state.isOver = true := by
  induction l generalizing m s with
  | nil => cases hi
  | cons j l ih =>
    obtain ⟨⟨⟩, m₁, hfirst, hrest⟩ := of_bind hrun
    by_cases hij : i = j
    · -- the slot is over from here on
      subst hij
      obtain ⟨s₁, hs₁, hover⟩ := of_drainSlot_idle hs hidle hfirst
      have hkept : Upkeep false 0 m₁ m' := Tidy.forM (fun _ => Tidy.drainSlot) m₁ () m' hrest
      have hlength : i < m'.worker.slots.length := hkept.size ▸ (List.getElem?_eq_some_iff.1 hs₁).1
      have hs' := List.getElem?_eq_getElem hlength
      exact ⟨_, hs', (hkept.slots i _ _ hs₁ hs').gone hover⟩
    · have hkept : Upkeep false 0 m m₁ := Tidy.drainSlot m () m₁ hfirst
      refine ih (h.upkeep hkept) hrest ((List.mem_cons.1 hi).resolve_left hij) ?_ hidle
      exact (of_drainSlot_ne h hfirst hij).trans hs

theorem of_beginDrain {m m' : Machine α} (h : m.Numbered) (hrun : beginDrain m = .ok () m') {i : Nat} {s : Slot}
    (hs : m.worker.slots[i]? = some s) (hidle : s.state.isIdle = true) :
    ∃ s', m'.worker.slots[i]? = some s' ∧ s'.state.isOver = true := by
  have hrest : ∃ m₁ : Machine α, m₁.worker.slots = m.worker.slots ∧
      ((List.range m.worker.slots.length).forM drainSlot : Run α PUnit) m₁ = .ok () m' := by
    rw [beginDrain_run (not_overlong_of_beginDrain hrun)] at hrun
    obtain ⟨count, m₁, hcount, hrest⟩ := of_bind hrun
    obtain ⟨⟨⟩, m₂, hsay, hrest⟩ := of_bind hrest
    obtain ⟨w, m₃, hworker, hrest⟩ := of_bind hrest
    cases hcount
    cases hsay
    cases hworker
    refine ⟨_, ?_, hrest⟩
    rfl
  obtain ⟨m₁, hslots, hrest⟩ := hrest
  have hnumbered : m₁.Numbered := ⟨hslots ▸ h.size, hslots ▸ h.index⟩
  exact of_forM_drainSlot hnumbered hrest (List.mem_range.2 (List.getElem?_eq_some_iff.1 hs).1) (hslots ▸ hs) hidle

/-! ## Turns while the worker drains -/

/-- Two programs that go on alike from wherever they come to. -/
theorem bind_congr_run {x : Run α β} {k k' : β → Run α γ} {m : Machine α}
    (hk : ∀ b m', x m = .ok b m' → k' b m' = k b m') : (x >>= k') m = (x >>= k) m := by
  show EStateM.bind x k' m = EStateM.bind x k m
  unfold EStateM.bind
  cases hrun : x m with
  | ok b m' => exact hk b m' hrun
  | error fault m' => rfl

/-- Two programs that begin alike. -/
theorem bind_congr_left {x x' : Run α β} {k : β → Run α γ} {m : Machine α} (hx : x' m = x m) :
    (x' >>= k) m = (x >>= k) m := by
  show EStateM.bind x' k m = EStateM.bind x k m
  unfold EStateM.bind
  rw [hx]

variable {serve serve' : Serve α} {m : Machine α}

theorem execute_congr (hdraining : m.worker.deadline.isSome = true) (c : Command) :
    execute serve' c m = execute serve c m := by
  cases c with
  | accept i =>
    refine bind_congr_run fun here m' hrun => ?_
    cases hrun
    cases m.worker.slots[i]? with
    | none => rfl
    | some s =>
      refine bind_congr_run fun w m' hrun => ?_
      cases hrun
      dsimp only
      rw [if_pos hdraining, if_pos hdraining]
  | receive i | send i | disconnect i => rfl

theorem executeUpTo_congr (hserve : Tame false serve) (hdraining : m.worker.deadline.isSome = true) (n : Nat) :
    executeUpTo serve' n m = executeUpTo serve n m := by
  induction n generalizing m with
  | zero => rfl
  | succ n ih =>
    refine bind_congr_run fun c m₁ hpop => ?_
    have hkept : Upkeep false 0 m m₁ := Tidy.popCommand m c m₁ hpop
    rw [← hkept.deadline] at hdraining
    cases c with
    | none => rfl
    | some c =>
      refine (bind_congr_left (execute_congr hdraining c)).trans (bind_congr_run fun _ m₂ hexecute => ?_)
      rw [← (Walks.execute hserve c m₁ _ m₂ hexecute).deadline] at hdraining
      exact bind_congr_left (ih hdraining)

theorem goOn_congr (hserve : Tame false serve) (hdraining : m.worker.deadline.isSome = true) (block : Bool) :
    goOn serve' block m = goOn serve block m := by
  unfold goOn
  refine bind_congr_run fun _ m₁ harm => bind_congr_run fun _ m₂ hsubmit => bind_congr_run fun _ m₃ hharvest => ?_
  have hkept : Upkeep false 0 m m₃ := ((Tidy.arm m _ m₁ harm).andThen (Tidy.submitQueue block m₁ _ m₂ hsubmit)).andThen
    (Tidy.harvest m₂ _ m₃ hharvest)
  rw [← hkept.deadline] at hdraining
  refine bind_congr_left (bind_congr_run fun w m₄ hworker => ?_)
  cases hworker
  exact executeUpTo_congr hserve hdraining _

/-- While the worker drains, its turns do not depend on the handler. -/
theorem turn_congr (hserve : Tame false serve) (hdraining : m.opened.worker.deadline.isSome = true) (block : Bool) :
    turn serve' block m = turn serve block m := by
  rw [turn_eq, turn_eq]
  refine bind_congr_run fun _ m₁ hopen => bind_congr_run fun done m₂ hdone => ?_
  have hkept : Upkeep false 0 m.opened m₂ := (Tidy.openTurn hopen).andThen (Tidy.drained m₁ done m₂ hdone)
  rw [← hkept.deadline] at hdraining
  cases done with
  | true => rw [if_pos rfl, if_pos rfl]
  | false =>
    rw [if_neg Bool.false_ne_true, if_neg Bool.false_ne_true]
    exact goOn_congr hserve hdraining block

end Run

/-! ## Requests to stop -/

theorem SlotState.of_isOver {state : SlotState} (h : state.isOver = true) :
    state = disconnecting ∨ state = disconnected := by
  cases state <;> first | exact .inl rfl | exact .inr rfl | cases h

namespace Machine

/-- What the log tells of a request to stop, the worker knows. -/
structure Informed (log : List Reply) (m : Machine α) : Prop extends m.Numbered where
  stopping : m.worker.stopping = stopAsked log
  draining : m.worker.deadline.isSome = drainBegun log

/-- The drain begins with the turn after the request. -/
theorem Informed.opened {log : List Reply} {m : Machine α} (h : m.Informed log) :
    m.opened.worker.deadline.isSome = stopAsked log := by
  unfold Machine.opened Worker.isToDrain
  rw [← Option.not_isSome, h.draining, h.stopping]
  cases hbegun : drainBegun log with
  | true => rw [stopAsked_of_drainBegun hbegun, if_neg nofun, h.draining, hbegun]
  | false =>
    cases hasked : stopAsked log with
    | true => rfl
    | false => rw [if_neg nofun, h.draining, hbegun]

theorem Informed.advance {log : List Reply} {reply : Reply} {m m' : Machine α} (h : m.Informed log)
    (hadvance : Advance m m' reply) : m'.Informed (reply :: log) := by
  refine ⟨h.toNumbered.advance hadvance, ?_, ?_⟩
  · cases hadvance with
    | refused e hkept => exact hkept.stopping.trans h.stopping
    | accepted hfree hbefore hbinds hafter =>
      exact hafter.stopping.trans (hbinds.stopping.trans (hbefore.stopping.trans h.stopping))
    | asked hkept => exact hkept.stopping
    | turned b hstrides =>
      refine hstrides.stopping.trans (Eq.trans ?_ h.stopping)
      unfold Machine.opened
      split <;> rfl
    | done hkept => exact hkept.stopping.trans h.stopping
  · cases hadvance with
    | refused e hkept => exact (congrArg Option.isSome hkept.deadline).trans h.draining
    | accepted hfree hbefore hbinds hafter =>
      exact (congrArg Option.isSome (hafter.deadline.trans (hbinds.deadline.trans hbefore.deadline))).trans h.draining
    | asked hkept => exact (congrArg Option.isSome hkept.deadline).trans h.draining
    | turned b hstrides => exact (congrArg Option.isSome hstrides.deadline).trans h.opened
    | done hkept => exact (congrArg Option.isSome hkept.deadline).trans h.draining

theorem Informed.of_starts {m : Machine α} (h : m.Starts) : m.Informed [] := by
  obtain ⟨id, config, cores, k, -, hbuild⟩ := h.built
  obtain ⟨-, hstopping, hdeadline⟩ := Worker.untouched_of_build hbuild
  exact ⟨.of_starts h, hstopping, congrArg Option.isSome hdeadline⟩

/-- What comes of a request to stop. -/
structure Heeds (serve : Run.Serve α) (log : List Reply) (m : Machine α) : Prop where
  /-- Without a request the loop goes on. -/
  goesOn : stopAsked log = false → ∀ block b m', Run.turn serve block m = .ok b m' → b = true
  /-- No socket is taken any more. -/
  refuses : stopAsked log = true → ∀ fd peer, ∃ m', Run.assign fd peer m = .ok (.error .noFreeSlot) m'
  /-- No turn gives a connection to the handler, or counts one. -/
  serves : stopAsked log = true → ∀ block b m', Run.turn serve block m = .ok b m' →
    m'.trace.countP (·.isServed) = m.trace.countP (·.isServed) ∧
      m'.worker.counters.accepts = m.worker.counters.accepts
  /-- No turn depends on what the handler is. -/
  unhandled : stopAsked log = true → ∀ block serve', Run.turn serve' block m = Run.turn serve block m
  /-- After the first turn, every connection that was idle is closed or being closed. -/
  closes : stopAsked log = true → drainBegun log = false → ∀ block b m', Run.turn serve block m = .ok b m' →
    ∀ (i : Nat) (s : Slot), m.worker.slots[i]? = some s → s.state.isIdle = true →
      ∃ s', m'.worker.slots[i]? = some s' ∧ (s'.state = .disconnecting ∨ s'.state = .disconnected)

end Machine

/-- A worker that was asked to stop refuses every socket. -/
theorem Run.assign_stopping {m : Machine α} (hstopping : m.worker.stopping = true) (fd : Int)
    (peer : Option Net.SocketAddress) : ∃ m', Run.assign fd peer m = .ok (.error .noFreeSlot) m' := by
  have hacquire : (Run.acquire : Run α (Option Nat)) m = .ok none m := by
    refine (bind_run (x := Run.worker) rfl).trans ?_
    rw [if_pos hstopping]
    rfl
  have hclose : ∀ m₁ : Machine α, ∃ m', (Run.closeNow none fd : Run α Unit) m₁ = .ok () m' := by
    intro m₁
    unfold closeNow
    split <;> exact ⟨_, rfl⟩
  obtain ⟨m', hclosed⟩ := hclose { m with worker := m.worker.bump .rejected 1 }
  exact ⟨m', (bind_run hacquire).trans ((bind_run rfl).trans (bind_run hclosed))⟩

namespace Machine.Informed

variable {serve : Run.Serve α} {log : List Reply} {m m' : Machine α} {block : Bool}

/-- A turn that ends the loop comes after a request to stop. -/
theorem asked_of_turn (hserve : Modest serve) (h : m.Informed log) (hrun : Run.turn serve block m = .ok false m') :
    stopAsked log = true := by
  obtain ⟨m₁, -, hdone⟩ := Run.of_turn_false hrun
  obtain ⟨deadline, said, hdeadline, rfl, -⟩ := Run.of_drained hdone
  rw [← h.opened, ← (Walks.turn hserve.tame hrun).deadline]
  show m₁.worker.deadline.isSome = true
  rw [hdeadline]
  rfl

/-- The first turn after a request to stop closes every connection that is idle. -/
theorem closes (hserve : Modest serve) (h : m.Informed log) (hasked : stopAsked log = true)
    (hbegun : drainBegun log = false) {b : Bool} (hrun : Run.turn serve block m = .ok b m') {i : Nat} {s : Slot}
    (hs : m.worker.slots[i]? = some s) (hidle : s.state.isIdle = true) :
    ∃ s', m'.worker.slots[i]? = some s' ∧ (s'.state = .disconnecting ∨ s'.state = .disconnected) := by
  obtain ⟨m₁, hopen, hstrides⟩ := Walks.of_turn hserve.tame hrun
  have hdrain : m.worker.isToDrain = true := by
    rw [Worker.isToDrain, ← Option.not_isSome, h.draining, hbegun, h.stopping, hasked]
    rfl
  rw [Run.openTurn_eq, if_pos hdrain] at hopen
  obtain ⟨s₁, hs₁, hover⟩ := Run.of_beginDrain h.toNumbered hopen hs hidle
  have hbegins : Upkeep false 0 m.drain m₁ := Tidy.beginDrain hopen
  have hkept := hstrides.upkeep (congrArg Option.isSome hbegins.deadline)
  -- the slot is over once the drain has begun, and stays so for the rest of the turn
  have hi : i < m'.worker.slots.length := hkept.size ▸ (List.getElem?_eq_some_iff.1 hs₁).1
  have hs' := List.getElem?_eq_getElem hi
  exact ⟨_, hs', SlotState.of_isOver ((hkept.slots i _ _ hs₁ hs').gone hover)⟩

theorem heeds (hserve : Modest serve) (h : m.Informed log) : m.Heeds serve log := by
  have hkept : stopAsked log = true → ∀ block b m', Run.turn serve block m = .ok b m' → Upkeep false 0 m.opened m' :=
    fun hasked block b m' hrun => (Walks.turn hserve.tame hrun).upkeep (h.opened.trans hasked)
  have hsame : m.opened.trace = m.trace ∧ m.opened.worker.counters = m.worker.counters := by
    unfold Machine.opened
    split <;> exact ⟨rfl, rfl⟩
  exact
    { goesOn := fun hasked block b m' hrun => by
        cases b with
        | true => rfl
        | false => exact hasked.symm.trans (h.asked_of_turn hserve hrun)
      refuses := fun hasked fd peer => Run.assign_stopping (h.stopping.trans hasked) fd peer
      serves := fun hasked block b m' hrun => by
        have hkept := hkept hasked block b m' hrun
        rw [Machine.countP_isServed_of_services hkept.services, hsame.1, hkept.accepts, hsame.2]
        exact ⟨rfl, rfl⟩
      unhandled := fun hasked block serve' => Run.turn_congr hserve.tame (h.opened.trans hasked) block
      closes := fun hasked hbegun _ _ _ hrun _ _ hs hidle => h.closes hserve hasked hbegun hrun hs hidle }

end Machine.Informed

theorem LoggedRun.heeds {serve : Run.Serve α} {lawful : Machine α → Kernel → Prop} {log : List Reply} {m : Machine α}
    (hserve : Modest serve) (h : LoggedRun serve Machine.Starts lawful log m) : m.Heeds serve log := by
  refine Machine.Informed.heeds hserve ?_
  induction h with
  | start h => exact .of_starts h
  | move before move hwhole hallowed hrun ih => exact ih.advance (move.advance hserve hwhole hrun)
  | around before kernel app h ih => exact { ih with }

end SlotServer
