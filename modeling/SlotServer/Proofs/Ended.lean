import SlotServer.Proofs.Failing
import SlotServer.Proofs.LateCalls

/-!
# Workers that have come to their end

The teardown leaves nothing under way. What handles and acceptors ask of the worker after that is done or refused at
once.

- `Machine.Deregistered`: the registration of the pool is undone once, after the last operation was queued. It is undone
  once the worker was torn down (`Enrolled.finish`) and stays so (`Machine.Deregistered.step`);
- `Machine.Resolves`: what the teardown does with the operations that are under way;
- `Machine.Retired`: what holds of a worker after the end, and `WildRun.finished`: that it does.
-/

namespace SlotServer

variable {α : Type} {serve : Run.Serve α} {part : Part} {m m' : Machine α}

/-! ## The registration -/

/-- The registration of the pool was undone once, and nothing was queued after that. -/
structure Machine.Deregistered (m : Machine α) : Prop where
  exited : m.worker.exited = true
  registered : m.worker.pool.registered = false
  once : ∃ after before, m.trace = after ++ .unregistered :: before ∧ .unregistered ∉ after ∧ .unregistered ∉ before ∧
    ∀ e ∈ after, e.ofQueue = false

namespace Machine.Deregistered

/-- The end stays as it is, whatever changes then. -/
theorem change (h : m.Deregistered) (hchange : Change part m m') : m'.Deregistered := by
  obtain ⟨hsame, since, htrace, hnone, hqueue⟩ | ⟨-, hregistered, -⟩ := hchange.registration
  · obtain ⟨after, before, heq, hafter, hbefore, hquiet⟩ := h.once
    refine ⟨hchange.exited.trans h.exited, hsame.trans h.registered, since ++ after, before, ?_, ?_, hbefore, ?_⟩
    · rw [htrace, heq, List.append_assoc]
    · exact fun hmem => (List.mem_append.1 hmem).elim hnone hafter
    · exact fun e he => (List.mem_append.1 he).elim (hqueue h.exited e) (hquiet e)
  · exact absurd (hregistered.symm.trans h.registered) (by decide)

theorem changes (h : m.Deregistered) (hchanges : Changes part m m') : m'.Deregistered := by
  induction hchanges with
  | refl => exact h
  | tail _ hchange ih => exact ih.change hchange

theorem step (hserve : Discreet serve) (h : m.Deregistered) (hstep : WildStep serve m m') : m'.Deregistered := by
  cases hstep with
  | move move _ hallowed hrun =>
    rcases Move.changes hserve hallowed hrun with hchanges | hchanges
    · exact h.changes hchanges
    · exact Deregistered.changes (m := m.exit) ⟨rfl, h.registered, h.once⟩ hchanges
  | around kernel app hready => exact ⟨h.exited, h.registered, h.once⟩

end Machine.Deregistered

/-- How the registration of the pool stands. -/
inductive Enrolled (m : Machine α) : Prop
  | registered (h : m.worker.pool.registered = true) (hnone : .unregistered ∉ m.trace)
  | undone (h : m.Deregistered)

namespace Enrolled

theorem deregistered (h : Enrolled m) (hregistered : m.worker.pool.registered = false) : m.Deregistered := by
  cases h with
  | registered htrue => exact absurd (htrue.symm.trans hregistered) (by decide)
  | undone h => exact h

theorem change (h : Enrolled m) (hchange : Change part m m') : Enrolled m' := by
  cases h with
  | undone h => exact .undone (h.change hchange)
  | registered hregistered hbefore =>
    obtain ⟨hsame, since, htrace, hnone, -⟩ | ⟨hended, -, hundone, htrace⟩ := hchange.registration
    · refine .registered (hsame.trans hregistered) fun hmem => ?_
      rw [htrace] at hmem
      exact (List.mem_append.1 hmem).elim hnone hbefore
    · exact .undone
        ⟨hchange.exited.trans hended, hundone, [], m.trace, htrace, List.not_mem_nil, hbefore, nofun⟩

theorem changes (h : Enrolled m) (hchanges : Changes part m m') : Enrolled m' := by
  induction hchanges with
  | refl => exact h
  | tail _ hchange ih => exact ih.change hchange

/-- That the loop comes to its end does not matter by itself. -/
theorem exit (h : Enrolled m) : Enrolled m.exit := by
  cases h with
  | registered hregistered hnone => exact .registered hregistered hnone
  | undone h => exact .undone ⟨rfl, h.registered, h.once⟩

theorem of_fresh (h : m.Fresh) : Enrolled m := by
  obtain ⟨id, config, cores, k, -, hbuild⟩ := h.built
  obtain ⟨hregistered, hnone⟩ := Worker.registered_of_build hbuild
  exact .registered hregistered hnone

theorem step (hserve : Discreet serve) (h : Enrolled m) (hstep : WildStep serve m m') : Enrolled m' := by
  cases h with
  | undone h => exact .undone (h.step hserve hstep)
  | registered hregistered hnone =>
    cases hstep with
    | move move _ hallowed hrun =>
      rcases Move.changes hserve hallowed hrun with hchanges | hchanges
      · exact Enrolled.changes (.registered hregistered hnone) hchanges
      · exact Enrolled.changes (m := m.exit) (.registered hregistered hnone) hchanges
    | around kernel app hready => exact .registered hregistered hnone

/-- Once the worker was torn down, the registration is undone. -/
theorem finish (h : Enrolled m) (hrun : Run.finish m = .ok () m') : m'.Deregistered := by
  obtain ⟨m₁, m₂, horphans, hchanges, hregistered, hlast⟩ := Run.of_finish hrun
  have hfailed : Changes .all m.exit m₁ := Makes.failOrphans m.exit rfl () m₁ horphans
  have hundone := ((h.exit.changes hfailed).changes hchanges).deregistered hregistered
  have hreleased : Changes .all m₂ { m₂ with trace := .released :: m₂.trace } := .single (.release hundone.exited)
  exact (hundone.changes hreleased).changes hlast

end Enrolled

theorem WildRun.enrolled (hserve : Discreet serve) (h : WildRun serve m) : Enrolled m :=
  Reached.keeps h (fun _ hstart => Enrolled.of_fresh hstart.toFresh) fun _ _ => Enrolled.step hserve

/-! ## Operations that were under way -/

/-- Who is left waiting at a cell. -/
def Cell.registered (c : Cell) : Option Waker := if c.phase = .waiting then c.waker else none

theorem Cell.complete_registered {c c' : Cell} {o : Outcome} {waker : Option Waker}
    (h : c.complete o = .ok (waker, c')) : waker = c.registered := by
  unfold complete at h
  unfold registered
  cases hphase : c.phase <;> rw [hphase] at h <;> cases h <;> rfl

/-- What the teardown does with a half. An operation that began and has no outcome yet is ended once, with the error
that the connection is closed, and who waits for it is woken. An outcome that is there stays, and nobody is woken. -/
structure Half.Resolves (half : Half) (h : List Event) (s s' : Slot) (since : List Event) : Prop where
  pending : begun half h = true → (Connection.cell s half).phase ≠ .completed →
    (Connection.cell s half).complete (.error .connectionClosed) =
        .ok ((Connection.cell s half).registered, Connection.cell s' half) ∧
      (Connection.cell s' half).outcome? = some (.error .connectionClosed) ∧
      wokenAt half since = (Connection.cell s half).registered.toList
  completed : (Connection.cell s half).phase = .completed →
    Connection.cell s' half = Connection.cell s half ∧ wokenAt half since = []

/-- What the teardown does with all operations. -/
def Machine.Resolves (m m' : Machine α) : Prop :=
  ∀ i (s : Slot), m.worker.slots[i]? = some s → ∃ (s' : Slot) (since : List Event), m'.worker.slots[i]? = some s' ∧
    m'.history i = since ++ m.history i ∧ ∀ half : Half, half.Resolves (m.history i) s s' since

/-- What becomes of a half whose operation is not under way any more. -/
theorem Fails.resolves {half : Half} {h : List Event} {s s' : Slot} {since : List Event}
    (hfails : Fails half false s s' since) (hpending : Pending s.state.works h s) : half.Resolves h s s' since where
  pending hbegun hphase := by
    rcases hfails with ⟨hidle, -, -⟩ | ⟨-, -, waker, hcomplete, hwoken⟩
    · exact absurd (hpending.resolved half hidle.symm hbegun) hphase
    · rw [← Cell.complete_registered hcomplete]
      exact ⟨hcomplete, Cell.outcome?_complete hcomplete, hwoken⟩
  completed hphase := by
    rcases hfails with ⟨-, hcell, hnone⟩ | ⟨-, hworks, -⟩
    · exact ⟨hcell, hnone⟩
    · exact absurd hphase (hpending.uncompleted half hworks)

/-! ## After the end -/

/-- What holds of a worker after its end, and what comes of the calls that are made then. -/
structure Machine.Retired (serve : Run.Serve α) (m : Machine α) : Prop where
  slots : ∀ i (s : Slot), m.worker.slots[i]? = some s →
    s.state = .disconnected ∧ s.fd = -1 ∧ s.leases = if i ∈ m.held then 1 else 0
  inbox : m.worker.inbox = []
  /-- The free slots are those without a handle, each once. -/
  free : m.worker.free.Nodup ∧ ∀ i, i ∈ m.worker.free ↔ i < m.worker.slots.length ∧ i ∉ m.held
  deregistered : m.Deregistered
  /-- A receive is refused, and changes nothing. -/
  receive : ∀ i ∈ m.held, ∃ e, Connection.receive i m = .ok (.refused (some e)) m
  /-- A send is refused, and changes nothing. -/
  send : ∀ i ∈ m.held, ∀ length, ∃ e, Connection.send i length m = .ok (.error e) m
  /-- With its handle gone, a slot is free. -/
  drop : ∀ i ∈ m.held, ∃ m', Connection.drop i m = .ok () m' ∧ i ∉ m.worker.free ∧
    m'.worker.free = m.worker.free ++ [i] ∧ m'.held = m.held.erase i
  /-- A socket that is offered is closed once, and no slot is lost by that. -/
  assign : ∀ fd peer, 0 ≤ fd → ∃ answer m', Run.assign fd peer m = .ok answer m' ∧ m.Cuts fd m' ∧
    m'.kernel.sockets.live? fd = none ∧ m'.worker.free.Perm m.worker.free
  /-- Whatever is asked of the worker, it is not at fault. -/
  faultless : ∀ move : Move, move.isWhole = true → move.Allowed m → ∃ m', move.run serve m = .ok () m'

/-- Between operations of a worker that has come to its end, everything is at its end. -/
theorem Machine.All.retired (hserve : Modest serve) (h : m.All Moored []) (hderegistered : m.Deregistered) :
    m.Retired serve := by
  have hexited := hderegistered.exited
  have hheld : ∀ i ∈ m.held, ∃ s : Slot, m.worker.slots[i]? = some s ∧ s.state = .disconnected := by
    intro i hi
    rcases h i with ⟨s, hsettled⟩ | hmissing
    · exact ⟨s, hsettled.here, hsettled.halted hexited⟩
    · exact absurd hmissing.handles (Nat.ne_of_gt (List.count_pos_iff.2 hi))
  have hleases : ∀ i (s : Slot), m.worker.slots[i]? = some s → s.leases = if i ∈ m.held then 1 else 0 := by
    intro i s hs
    have hsettled := h.settled hs
    have hsum := hsettled.leases
    rw [hsettled.halted hexited] at hsum
    have hsingle : m.held.count i ≤ 1 := hsettled.single
    rw [← UInt8.toNat_inj, hsum]
    show 0 + m.held.count i = _
    split
    · rename_i hi
      have hpos := List.count_pos_iff.2 hi
      rw [UInt8.toNat_one]
      omega
    · rename_i hi
      rw [List.count_eq_zero.2 hi]
      rfl
  exact
    { slots := fun i s hs => ⟨(h.settled hs).halted hexited, (h.settled hs).unbound ((h.settled hs).halted hexited),
        hleases i s hs⟩
      inbox := h.inbox_nil hexited
      free := by
        refine ⟨List.nodup_iff_count.2 fun i => (h i).afloat.few.places.1, fun i => ?_⟩
        rw [h.mem_free]
        constructor
        · rintro ⟨s, hs, hzero⟩
          refine ⟨(List.getElem?_eq_some_iff.1 hs).1, fun hi => ?_⟩
          rw [hleases i s hs, if_pos hi] at hzero
          cases hzero
        · rintro ⟨hlength, hi⟩
          have hs := List.getElem?_eq_getElem hlength
          exact ⟨_, hs, (hleases i _ hs).trans (if_neg hi)⟩
      deregistered := hderegistered
      receive := fun i hi => by
        obtain ⟨s, hs, hstate⟩ := hheld i hi
        exact ⟨_, Connection.receive_refused hs (by rw [hstate]; decide)⟩
      send := fun i hi length => by
        obtain ⟨s, hs, hstate⟩ := hheld i hi
        exact Connection.send_refused hs fun hstart => absurd hstart.2 (by rw [hstate]; decide)
      drop := fun i hi => Connection.drop_exited h hexited hi
      assign := fun fd peer hfd => by
        obtain ⟨answer, m', hrun, hperm, hcuts⟩ := Run.assign_exited h hexited hfd peer
        refine ⟨answer, m', hrun, hcuts, ?_, hperm⟩
        rw [hcuts.sockets]
        exact Sockets.live?_close ..
      faultless := fun move hwhole hallowed => by
        have hgoes := move.not_balks_of_exited hexited hwhole hallowed
        obtain ⟨_, m', hrun, -⟩ := ((wild hserve).move h hwhole hallowed).comesUnless hgoes
        exact ⟨m', hrun⟩ }

/-- A worker over an arbitrary kernel can be torn down wherever it comes to. No operation is left under way, and
whatever handles and acceptors ask of the worker after that, it stays at its end. -/
theorem WildRun.finished (hmodest : Modest serve) (hdiscreet : Discreet serve) (h : WildRun serve m)
    (hexited : m.worker.exited = false) :
    ∃ m', Run.finish m = .ok () m' ∧ m.Resolves m' ∧
      ∀ m'', Relation.ReflTransGen (WildStep serve) m' m'' → m''.Retired serve := by
  have hall := h.moored hmodest
  obtain ⟨m', hrun, hexited', hall', hforsakes⟩ := h.fails hmodest hexited
  refine ⟨m', hrun, fun i s hs => ?_, fun m'' hsteps => ?_⟩
  · obtain ⟨s', hhere, hindex, since, hhistory, hfails⟩ := hforsakes i s hs
    have hstate := (hall'.settled hhere).halted hexited'
    refine ⟨s', since, hhere, hhistory, fun half => Fails.resolves ?_ (hall.settled hs).toPending⟩
    have hhalf := hfails half
    rw [hstate, SlotState.works_of_isOver rfl] at hhalf
    exact hhalf
  · have hboth : m''.All Moored [] ∧ m''.Deregistered := by
      induction hsteps with
      | refl => exact ⟨hall', (h.enrolled hdiscreet).finish hrun⟩
      | tail _ hstep ih => exact ⟨Moored.step hmodest ih.1 hstep, ih.2.step hdiscreet hstep⟩
    exact hboth.1.retired hmodest hboth.2

/-- A worker is torn down while a task waits for a receive. -/
theorem WildRun.finished_receiving : ∃ m m' : Machine Application,
    Machine.small?.bind (·.after? Application.serve
      [.assign 5 none, .turn false, .deed 0 .receive, .deed 0 (.poll .receive (.task 7))]) = some m ∧
      Run.finish m = .ok () m' ∧ m.Resolves m' ∧
      ∀ m'', Relation.ReflTransGen (WildStep Application.serve) m' m'' → m''.Retired Application.serve := by
  have hany : (Machine.small?.bind (·.after? Application.serve
      [.assign 5 none, .turn false, .deed 0 .receive, .deed 0 (.poll .receive (.task 7))])).any
      (fun m => m.worker.exited = false) = true := by decide +kernel
  have hsize : Machine.small?.all (fun m => m.worker.slots.length ≤ 0x100000000) = true := by decide +kernel
  obtain ⟨m, hafter, hexited⟩ := (Option.any_eq_true ..).1 hany
  obtain ⟨m₀, hbuilt, hmoves⟩ := Option.bind_eq_some_iff.1 hafter
  have hstart : m₀.Starts :=
    { Machine.fresh_of_built? hbuilt with
      size := of_decide_eq_true ((Option.all_eq_true ..).1 hsize m₀ hbuilt) }
  have hrun : WildRun Application.serve m :=
    Reached.after (fun move => move.isWhole = true) (.start hstart)
      (fun hwhole hallowed hrun => .move _ hwhole hallowed hrun) (by decide) hmoves
  obtain ⟨m', hfinish⟩ := WildRun.finished Application.modest_serve Application.discreet_serve hrun
    (of_decide_eq_true hexited)
  exact ⟨m, m', hafter, hfinish⟩

end SlotServer
