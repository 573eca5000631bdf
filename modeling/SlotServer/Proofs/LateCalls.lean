import SlotServer.Proofs.Leases

/-!
# Calls after the end

Acceptors and handles may outlive the dispatch loop. What they ask of the worker then is done or refused at once, by
whoever asks.

- `Run.submit_run`: a command is failed at once;
- `Run.assign_exited`: a socket that is offered is closed, and its slot is free again;
- `Connection.drop_exited`: a handle is let go, and its slot is free from then on.
-/

namespace SlotServer

variable {α : Type} {m m' : Machine α} {i : Nat} {s : Slot}

/-- The descriptor that was closed past the queue. -/
def Event.closes? : Event → Option Int
  | .closed _ fd => some fd
  | _ => none

/-- One descriptor was closed, and no handle came or went. -/
structure Machine.Cuts (m : Machine α) (fd : Int) (m' : Machine α) : Prop where
  held : m'.held = m.held
  sockets : m'.kernel.sockets = m.kernel.sockets.close fd
  record : ∃ since, m'.trace = since ++ m.trace ∧ since.filterMap Event.closes? = [fd]

/-- The machine after a descriptor was closed past the queue. -/
abbrev Machine.cut (m : Machine α) (slot : Option Nat) (fd : Int) : Machine α :=
  { m with
    kernel := { m.kernel with sockets := m.kernel.sockets.close fd }
    trace := .closed slot fd :: m.trace }

theorem Run.closeNow_run {slot : Option Nat} {fd : Int} (hfd : 0 ≤ fd) :
    (Run.closeNow slot fd : Run α Unit) m = .ok () (m.cut slot fd) := by
  rw [Run.closeNow, if_pos hfd]
  rfl

/-- A command after the end is failed by whoever asks. -/
theorem Run.submit_run (c : Command) (hexited : m.worker.exited = true) (hinbox : m.worker.inbox = []) :
    ∃ kernel since, (Run.submit c : Run α Unit) m = Run.failCommand c { m with kernel, trace := since ++ m.trace } ∧
      kernel.sockets = m.kernel.sockets ∧ since.filterMap Event.closes? = [] := by
  have hsettle : ∀ kernel trace,
      (Run.settle : Run α Unit) { m with worker := { m.worker with inbox := [c] }, kernel, trace } =
        Run.failCommand c { m with kernel, trace } := by
    intro kernel trace
    show (if m.worker.exited = true then Run.failOrphans else pure () : Run α Unit) _ = _
    rw [if_pos hexited, Run.failOrphans_run rfl]
    show Run.failCommand c { m with worker := { m.worker with inbox := [] }, kernel, trace } = _
    rw [← hinbox]
  unfold Run.submit
  by_cases hfull : m.worker.inboxFull = true
  · refine ⟨m.kernel, [], ?_, rfl, rfl⟩
    refine (Run.bind_run ((Run.enqueue_run m c).trans (if_pos hfull))).trans ?_
    show (if m.worker.exited = true then Run.failCommand c else throw .inboxStalled : Run α Unit) m = _
    rw [if_pos hexited]
    rfl
  · have hplace : (Run.enqueue c : Run α Bool) m = .ok true { m with worker := { m.worker with inbox := [c] } } := by
      rw [Run.enqueue_run, if_neg hfull, hinbox]
      rfl
    have hring : (Run.ring : Run α (Except Error Unit)) { m with worker := { m.worker with inbox := [c] } } =
        .ok (m.kernel.ask .notify).1
          { m with
            worker := { m.worker with inbox := [c] }
            kernel := (m.kernel.ask .notify).2
            trace := .rung :: m.trace } := rfl
    cases hanswer : (m.kernel.ask .notify).1 with
    | ok _ =>
      rw [hanswer] at hring
      refine ⟨(m.kernel.ask .notify).2, [.rung], ?_, rfl, rfl⟩
      exact (Run.bind_run hplace).trans ((Run.bind_run hring).trans (hsettle _ _))
    | error e =>
      rw [hanswer] at hring
      obtain ⟨line, hsay⟩ := Run.say_run .warn s!"notify failed: {e.message}"
        { m with
          worker := { m.worker with inbox := [c] }
          kernel := (m.kernel.ask .notify).2
          trace := .rung :: m.trace }
      refine ⟨(m.kernel.ask .notify).2, [.said .warn line, .rung], ?_, rfl, rfl⟩
      exact (Run.bind_run hplace).trans ((Run.bind_run hring).trans ((Run.bind_run hsay).trans (hsettle _ _)))

/-- The last lease is given back where there is a place among the free slots. -/
theorem Run.release_run (hs : m.worker.slots[i]? = some s) (hleases : s.leases = 1)
    (hroom : m.worker.free.length < m.worker.freeCapacity) :
    ∃ m', (Run.release i : Run α Unit) m = .ok () m' ∧ m'.worker.free = m.worker.free ++ [i] ∧
      m'.kernel = m.kernel ∧ m'.trace = m.trace ∧ m'.held = m.held := by
  refine ⟨{ m with worker := { m.worker.setSlot i { s with leases := 0 } with free := m.worker.free ++ [i] } }, ?_, rfl,
    rfl, rfl, rfl⟩
  refine (Run.bind_run (Run.slot?_run hs)).trans ?_
  dsimp only
  have hlast : s.releaseLease = (some true, { s with leases := 0 }) := by
    rw [Slot.releaseLease, hleases]
    rfl
  rw [hlast]
  refine (Run.bind_run rfl).trans ((Run.bind_run (b := true) ?_).trans rfl)
  refine (Run.pushFree_run _).trans (if_neg ?_)
  show ¬ (m.worker.slots.set i _).length ≤ m.worker.free.length
  rw [List.length_set]
  exact Nat.not_le.2 hroom

/-- A slot that is disconnecting is closed past the queue. -/
theorem Run.closeSlot_run (hs : m.worker.slots[i]? = some s) (hstate : s.state = .disconnecting)
    (hleases : s.leases = 1) (hfd : 0 ≤ s.fd) (hroom : m.worker.free.length < m.worker.freeCapacity) :
    ∃ m', (Run.closeSlot i : Run α Unit) m = .ok () m' ∧ m'.worker.free = m.worker.free ++ [i] ∧ m.Cuts s.fd m' := by
  have hstep := Run.stepSlot_eq hs (Slot.finishDisconnect_ok hstate)
  have hself : (m.worker.setSlot i s.unbound).slots[i]? = some s.unbound :=
    List.getElem?_set_self (List.getElem?_eq_some_iff.1 hs).1
  have hlength : m.worker.freeCapacity = (m.worker.setSlot i s.unbound).freeCapacity := (List.length_set ..).symm
  obtain ⟨m', hrun, hfree, hkernel, htrace, hheld⟩ := Run.release_run
    (m := { m.cut (some i) s.fd with worker := (m.worker.setSlot i s.unbound).bump .disconnects 1 })
    hself hleases (Nat.lt_of_lt_of_eq hroom hlength)
  refine ⟨m', ?_, hfree, hheld, congrArg Kernel.sockets hkernel, [.closed (some i) s.fd], htrace, rfl⟩
  exact (Run.bind_run hstep).trans ((Run.bind_run (Run.closeNow_run hfd)).trans ((Run.bind_run rfl).trans hrun))

/-- A socket that nobody takes over is closed, and its slot is free again. -/
theorem Run.failAccept_run (hs : m.worker.slots[i]? = some s) (hstate : s.state = .accepting) (hleases : s.leases = 1)
    (hfd : 0 ≤ s.fd) (hroom : m.worker.free.length < m.worker.freeCapacity) :
    ∃ m', (Run.failCommand (.accept i) : Run α Unit) m = .ok () m' ∧ m'.worker.free = m.worker.free ++ [i] ∧
      m.Cuts s.fd m' := by
  obtain ⟨line, hsay⟩ := Run.say_run .debug s!"failing orphaned {(Command.accept i).text}" m
  have habort : s.abortAccept = (.ok (), { s with state := .disconnecting }) :=
    Slot.advance_of_mem (List.mem_singleton.2 hstate)
  have hstep := Run.stepSlot_eq (m := { m with trace := .said .debug line :: m.trace }) hs habort
  have hself : (m.worker.setSlot i { s with state := .disconnecting }).slots[i]? =
      some { s with state := .disconnecting } := List.getElem?_set_self (List.getElem?_eq_some_iff.1 hs).1
  have hlength : m.worker.freeCapacity = (m.worker.setSlot i { s with state := .disconnecting }).freeCapacity :=
    (List.length_set ..).symm
  obtain ⟨m', hrun, hfree, hheld, hsockets, since, htrace, hcloses⟩ := Run.closeSlot_run
    (m := { m with
      worker := m.worker.setSlot i { s with state := .disconnecting }
      trace := .said .debug line :: m.trace }) hself rfl hleases hfd (Nat.lt_of_lt_of_eq hroom hlength)
  refine ⟨m', ?_, hfree, hheld, hsockets, since ++ [.said .debug line], ?_, ?_⟩
  · exact (Run.bind_run hsay).trans ((Run.bind_run hstep).trans hrun)
  · rw [htrace, List.append_assoc]
    rfl
  · rw [List.filterMap_append, hcloses]
    rfl

/-- After the end the inbox is empty. -/
theorem Machine.All.inbox_nil (h : m.All Moored []) (hexited : m.worker.exited = true) : m.worker.inbox = [] := by
  refine List.eq_nil_iff_forall_not_mem.2 fun c hc => ?_
  have hmem : c ∈ (m.view [] c.slot).commands := List.mem_filter.2 ⟨hc, decide_eq_true rfl⟩
  rw [(h c.slot).commands_nil hexited] at hmem
  exact List.not_mem_nil hmem

/-- A socket is bound to a slot that was taken out of the free ones: the slot is free again at once. -/
theorem Run.startAccept_exited (hs : m.worker.slots[i]? = some s) (hstate : s.state = .disconnected)
    (hexited : m.worker.exited = true) (hinbox : m.worker.inbox = [])
    (hroom : m.worker.free.length < m.worker.freeCapacity) {fd : Int} (hfd : 0 ≤ fd)
    (peer : Option Net.SocketAddress) :
    ∃ m', (Run.startAccept i fd peer : Run α (Except Error Unit)) m = .ok (.ok ()) m' ∧
      m'.worker.free = m.worker.free ++ [i] ∧ m.Cuts fd m' := by
  have hstep := Run.stepSlot_eq hs (Slot.startAccept_ok hstate fd peer)
  have hself : (m.worker.setSlot i (s.withSocket fd peer)).slots[i]? = some (s.withSocket fd peer) :=
    List.getElem?_set_self (List.getElem?_eq_some_iff.1 hs).1
  have hlength : m.worker.freeCapacity = (m.worker.setSlot i (s.withSocket fd peer)).freeCapacity :=
    (List.length_set ..).symm
  obtain ⟨kernel, since, hsubmit, hsockets, hquiet⟩ := Run.submit_run (.accept i)
    (m := { m with worker := m.worker.setSlot i (s.withSocket fd peer), trace := .bound i fd :: m.trace })
    hexited hinbox
  obtain ⟨m', hrun, hfree, hheld, hclosed, since', htrace, hcloses⟩ := Run.failAccept_run
    (m := { m with
      worker := m.worker.setSlot i (s.withSocket fd peer)
      kernel
      trace := since ++ .bound i fd :: m.trace })
    hself rfl rfl hfd (Nat.lt_of_lt_of_eq hroom hlength)
  refine ⟨m', ?_, hfree, hheld, ?_, since' ++ since ++ [.bound i fd], ?_, ?_⟩
  · exact (Run.bind_run (Run.slot?_run hs)).trans ((Run.bind_run hstep).trans ((Run.bind_run rfl).trans
      (Run.bind_run (hsubmit.trans hrun))))
  · rw [hclosed]
    exact congrArg (Sockets.close · fd) hsockets
  · rw [htrace]
    simp
  · rw [List.filterMap_append, List.filterMap_append, hcloses, hquiet]
    rfl

/-- A socket that is offered after the end is closed, and the slot that it was bound to, if there was one, is free as
before. -/
theorem Run.assign_exited (h : m.All Moored []) (hexited : m.worker.exited = true) {fd : Int} (hfd : 0 ≤ fd)
    (peer : Option Net.SocketAddress) :
    ∃ answer m', (Run.assign fd peer : Run α (Except Error Nat)) m = .ok answer m' ∧
      m'.worker.free.Perm m.worker.free ∧ m.Cuts fd m' := by
  have hrefuse : (Run.acquire : Run α (Option Nat)) m = .ok none m → ∃ answer m',
      (Run.assign fd peer : Run α (Except Error Nat)) m = .ok answer m' ∧ m'.worker.free.Perm m.worker.free ∧
        m.Cuts fd m' := by
    intro hacquire
    refine ⟨.error .noFreeSlot, { m.cut none fd with worker := m.worker.bump .rejected 1 }, ?_, .refl _, rfl, rfl,
      [.closed none fd], rfl, rfl⟩
    exact (Run.bind_run hacquire).trans ((Run.bind_run rfl).trans (Run.bind_run (Run.closeNow_run hfd)))
  by_cases hstopping : m.worker.stopping = true
  · apply hrefuse
    refine (Run.bind_run rfl).trans ?_
    rw [if_pos hstopping]
    rfl
  cases hfree : m.worker.free with
  | nil =>
    rw [← hfree]
    apply hrefuse
    refine (Run.bind_run rfl).trans ?_
    rw [if_neg hstopping, hfree]
    rfl
  | cons i free =>
    obtain ⟨s, hs, -⟩ := (h.mem_free i).1 (hfree ▸ List.mem_cons_self ..)
    have hacquire : (Run.acquire : Run α (Option Nat)) m =
        .ok (some i) { m with worker := { m.worker with free } } := by
      refine (Run.bind_run rfl).trans ?_
      rw [if_neg hstopping, hfree]
      rfl
    have hlength := length_le_of_count (fun j => (h j).afloat.few.places.1)
      fun j hj => (h j).afloat.few.places.2 (List.getElem?_eq_none hj)
    rw [hfree, List.length_cons] at hlength
    obtain ⟨m', hrun, hplace, hcuts⟩ := Run.startAccept_exited (m := { m with worker := { m.worker with free } }) hs
      ((h.settled hs).halted hexited) hexited (h.inbox_nil hexited) hlength hfd peer
    refine ⟨.ok i, m', (Run.bind_run hacquire).trans (Run.bind_run hrun), ?_, hcuts.held, hcuts.sockets, hcuts.record⟩
    rw [hplace]
    exact List.perm_append_singleton i free

/-- The handle of a connection is let go after the end: the slot is free from now on. -/
theorem Connection.drop_exited (h : m.All Moored []) (hexited : m.worker.exited = true) (hheld : i ∈ m.held) :
    ∃ m', (Connection.drop i : Run α Unit) m = .ok () m' ∧ i ∉ m.worker.free ∧ m'.worker.free = m.worker.free ++ [i] ∧
      m'.held = m.held.erase i := by
  have hcount : 0 < (m.view [] i).handles := List.count_pos_iff.2 hheld
  obtain ⟨s, hsettled⟩ : ∃ s, Settled i (m.view [] i) s := by
    rcases h i with hsettled | hmissing
    · exact hsettled
    · exact absurd hmissing.handles (Nat.ne_of_gt hcount)
  have hs : m.worker.slots[i]? = some s := hsettled.here
  have hstate := hsettled.halted hexited
  have hleases : s.leases = 1 := by
    have hone := hsettled.leases
    rw [hstate, Nat.le_antisymm hsettled.single hcount] at hone
    exact UInt8.toNat_inj.1 hone
  have hnonzero : s.leases ≠ 0 := by
    rw [hleases]
    decide
  have hnot : i ∉ m.worker.free := fun hfree => by
    obtain ⟨s', hs', hzero⟩ := (h.mem_free i).1 hfree
    obtain rfl := Option.some.inj (hs.symm.trans hs')
    exact hnonzero hzero
  have hdetached : (m.worker.slots.modify i Slot.detach)[i]? = some s.detach := by
    rw [List.getElem?_modify_eq, hs]
    rfl
  have hlength : m.worker.freeCapacity = (m.worker.slots.modify i Slot.detach).length := (List.length_modify ..).symm
  have hrefuse : s.detach.startDisconnect = (.error s.detach.wrongState, s.detach) := by
    apply Slot.advance_of_not_mem
    show s.state ∉ _
    rw [hstate]
    decide
  have hstep := Run.stepSlot_same
    (m := { m with worker := { m.worker with slots := m.worker.slots.modify i Slot.detach }, held := m.held.erase i })
    hdetached hrefuse
  obtain ⟨m', hrun, hfree, -, -, hheld'⟩ := Run.release_run
    (m := { m with worker := { m.worker with slots := m.worker.slots.modify i Slot.detach }, held := m.held.erase i })
    hdetached hleases (Nat.lt_of_lt_of_eq (h.room hs hnonzero) hlength)
  refine ⟨m', ?_, hnot, hfree, hheld'⟩
  have hhere := Run.slot?_run (m := { m with held := m.held.erase i }) hs
  refine (Run.bind_run rfl).trans ((Run.bind_run hhere).trans ?_)
  exact (Run.bind_run rfl).trans ((Run.bind_run hstep).trans hrun)

end SlotServer
