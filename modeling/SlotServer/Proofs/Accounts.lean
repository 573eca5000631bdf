import SlotServer.Proofs.Replies

/-!
# Tenancies and counters

Counters, slots, handles and the record of a worker agree on its tenancies, whatever the worker is made to do: a socket
that is bound begins a tenancy, a connection that is given to the handler serves the slot's last one, and a slot that
lets go of its socket is counted.

- `Machine.Accounted`: that they agree (`WildRun.accounted`);
- `Accounted.disconnects`, `Accounted.accepts_toNat`: what the counters come to;
- `Machine.connections`: the connections that are open (`WildRun.opened_eq`);
- `Machine.Recycles`: what becomes of every socket that was taken (`LoggedRun.recycles`).
-/

namespace SlotServer

variable {α : Type}

/-- A worker that was built has counted nothing, and was not asked to stop. -/
theorem Worker.untouched_of_build {id cores : Nat} {config : Config} {k k' : Kernel} {w : Worker} {es : List Event}
    (h : build id config cores k = (.ok (.ok w), k', es)) :
    w.counters = {} ∧ w.stopping = false ∧ w.deadline = none := by
  obtain ⟨segmentLength, pool, length, -, -, -, -, hw⟩ := of_build h
  have heq := (of_ofPool hw).2
  exact ⟨congrArg Worker.counters heq, congrArg Worker.stopping heq, congrArg Worker.deadline heq⟩

namespace Machine

/-- The tenancies that the record tells of, the latest first. -/
def tenancies (m : Machine α) : List Tenancy := SlotServer.tenancies m.trace

/-- The last tenancy of a slot. -/
def tenancy? (m : Machine α) (i : Nat) : Option Tenancy := SlotServer.tenancy? i m.tenancies

/-- Counters, slots, handles and the record agree on the tenancies. -/
structure Accounted (m : Machine α) : Prop where
  accepts : m.worker.counters.accepts = UInt64.ofNat (Tenancy.served m.tenancies)
  /-- Every tenancy is over and its close was counted, or its slot is in use. -/
  account : m.worker.account = UInt64.ofNat m.tenancies.length
  services : m.trace.countP (·.isServed) = Tenancy.served m.tenancies
  once : ∀ t ∈ m.tenancies, t.services ≤ 1
  bound : ∀ (i : Nat) (s : Slot), m.worker.slots[i]? = some s → s.state ≠ .disconnected → ∃ t, m.tenancy? i = some t
  /-- A connection that the dispatch loop has not taken over yet was not given to the handler. -/
  fresh : ∀ (i : Nat) (s : Slot), m.worker.slots[i]? = some s → s.state = .accepting →
    ∃ t, m.tenancy? i = some t ∧ t.isServed = false
  /-- There are handles only of connections that were given to the handler. -/
  held : ∀ i ∈ m.held, ∃ t, m.tenancy? i = some t ∧ t.isServed = true

theorem tenancies_of_services {m m' : Machine α} (h : m'.services = m.services) : m'.tenancies = m.tenancies := by
  unfold services at h
  rw [tenancies, tenancies, ← tenancies_filter m'.trace, h, tenancies_filter]

theorem countP_isServed_of_services {m m' : Machine α} (h : m'.services = m.services) :
    m'.trace.countP (·.isServed) = m.trace.countP (·.isServed) := by
  unfold services at h
  rw [← countP_isServed_filter m'.trace, h, countP_isServed_filter]

end Machine

/-! ## What a slot enters -/

namespace Enters

variable {i : Nat} {before after : SlotState} {e : Event} {m m' : Machine α}

theorem tenancies (h : Enters i before after e m m') : m'.tenancies = SlotServer.tenancies (e :: m.services) := by
  rw [Machine.tenancies, ← tenancies_filter m'.trace, show m'.trace.filter (·.isService) = m'.services from rfl,
    h.services]

theorem countP_isServed (h : Enters i before after e m m') :
    m'.trace.countP (·.isServed) = m.trace.countP (·.isServed) + if e.isServed then 1 else 0 := by
  rw [← countP_isServed_filter m'.trace, show m'.trace.filter (·.isService) = m'.services from rfl, h.services,
    List.countP_cons, Machine.services, countP_isServed_filter]

/-- The other slots are as they were. -/
theorem slots_of_ne (h : Enters i before after e m m') {j : Nat} (hj : j ≠ i) :
    m'.worker.slots[j]? = m.worker.slots[j]? := by
  obtain ⟨s, t, -, -, -, -, hslots⟩ := h.slot
  rw [hslots, List.getElem?_set_ne hj.symm]

theorem state (h : Enters i before after e m m') {s' : Slot} (hs' : m'.worker.slots[i]? = some s') :
    s'.state = after := by
  obtain ⟨s, t, hs, -, hafter, -, hslots⟩ := h.slot
  rw [hslots, List.getElem?_set_self (List.getElem?_eq_some_iff.1 hs).1] at hs'
  exact Option.some.inj hs' ▸ hafter

theorem account (h : Enters i before after e m m') : ∃ s t : Slot, m.worker.slots[i]? = some s ∧ s.state = before ∧
    t.state = after ∧ m'.worker.account = (m.worker.setSlot i t).account := by
  obtain ⟨s, t, hs, hbefore, hafter, -, hslots⟩ := h.slot
  refine ⟨s, t, hs, hbefore, hafter, ?_⟩
  rw [Worker.account, h.disconnects, hslots]
  rfl

end Enters

theorem Serves.tenancies_eq {i : Nat} {m m' : Machine α} (h : Serves i m m') :
    m'.tenancies = Tenancy.serve i m.tenancies :=
  h.tenancies.trans (congrArg (Tenancy.serve i) (tenancies_filter m.trace))

theorem Binds.tenancies_eq {i : Nat} {fd : Int} {m m' : Machine α} (h : Binds i fd m m') :
    m'.tenancies = { slot := i } :: m.tenancies :=
  h.tenancies.trans (congrArg (Tenancy.mk i 0 :: ·) (tenancies_filter m.trace))

/-- The loop begins no tenancy. -/
theorem Strides.map_slot_tenancies {strict : Bool} {m m' : Machine α} (h : Strides strict m m') :
    m'.tenancies.map (·.slot) = m.tenancies.map (·.slot) := by
  induction h with
  | refl => rfl
  | tail _ hstride ih =>
    cases hstride with
    | upkeep hkept => rw [Machine.tenancies_of_services hkept.services, ih]
    | serve hserves => rw [hserves.tenancies_eq, Tenancy.map_slot_serve, ih]

theorem Machine.tenancies_of_fresh {m : Machine α} (h : m.Fresh) : m.services = [] ∧ m.tenancies = [] := by
  obtain ⟨id, config, cores, k, -, hbuild⟩ := h.built
  obtain ⟨-, -, haside⟩ := Worker.new_of_build hbuild
  have hnone : m.services = [] := List.filter_eq_nil_iff.2 fun e he hservice =>
    Bool.false_ne_true ((Event.isService_of_aside (haside e he)).symm.trans hservice)
  refine ⟨hnone, ?_⟩
  rw [tenancies, ← tenancies_filter]
  exact congrArg SlotServer.tenancies hnone

namespace Machine.Accounted

variable {i : Nat} {fd : Int} {strict : Bool} {m m' : Machine α}

theorem upkeep (h : m.Accounted) (hkept : Upkeep strict 0 m m') : m'.Accounted := by
  have htenancies := tenancies_of_services hkept.services
  have hlast : ∀ j, m'.tenancy? j = m.tenancy? j := fun j => by rw [tenancy?, htenancies]; rfl
  -- a slot of one machine is a slot of the other
  have hslot : ∀ (j : Nat) (s' : Slot), m'.worker.slots[j]? = some s' →
      ∃ s, m.worker.slots[j]? = some s ∧ s.Wanes s' := fun j s' hs' => by
    have hj : j < m.worker.slots.length := hkept.size ▸ (List.getElem?_eq_some_iff.1 hs').1
    exact ⟨_, List.getElem?_eq_getElem hj, hkept.slots j _ s' (List.getElem?_eq_getElem hj) hs'⟩
  exact
    { accepts := by rw [hkept.accepts, htenancies, h.accepts]
      account := by rw [hkept.account, UInt64.add_zero, htenancies, h.account]
      services := by rw [countP_isServed_of_services hkept.services, htenancies, h.services]
      once := htenancies ▸ h.once
      bound := fun j s' hs' hstate => by
        obtain ⟨s, hs, hwanes⟩ := hslot j s' hs'
        rw [hlast]
        exact h.bound j s hs fun hfree => hstate (hwanes.free hfree)
      fresh := fun j s' hs' hstate => by
        obtain ⟨s, hs, hwanes⟩ := hslot j s' hs'
        rw [hlast]
        exact h.fresh j s hs (hwanes.fresh hstate)
      held := fun j hj => by
        rw [hlast]
        exact h.held j (hkept.held.subset hj) }

/-- The connection of a slot is given to the handler. -/
theorem serve (h : m.Accounted) (hserves : Serves i m m') : m'.Accounted := by
  obtain ⟨s, t, hs, hbefore, hafter, haccount⟩ := hserves.account
  obtain ⟨u, hu, hunserved⟩ := h.fresh i s hs hbefore
  have htenancies := hserves.tenancies_eq
  have hserved : Tenancy.served m'.tenancies = Tenancy.served m.tenancies + 1 := by
    rw [htenancies]
    exact Tenancy.served_serve hu
  have hself : m'.tenancy? i = some { u with services := u.services + 1 } := by
    rw [tenancy?, htenancies]
    exact Tenancy.tenancy?_serve_self hu
  have hother : ∀ j, j ≠ i → m'.tenancy? j = m.tenancy? j := fun j hj => by
    rw [tenancy?, htenancies]
    exact Tenancy.tenancy?_serve_of_ne hj
  exact
    { accepts := by rw [hserves.accepts, h.accepts, hserved, UInt64.ofNat_add]; rfl
      account := by
        have hbound : t.isBound = s.isBound := by rw [Slot.isBound, hafter, Slot.isBound, hbefore]; rfl
        have hlength : m'.tenancies.length = m.tenancies.length := by
          rw [htenancies, ← List.length_map, Tenancy.map_slot_serve, List.length_map]
        rw [haccount, Worker.account_setSlot hs hbound, h.account, hlength]
      services := by rw [hserves.countP_isServed, h.services, hserved]; rfl
      once := by
        rw [htenancies]
        exact Tenancy.serve_once h.once hu hunserved
      bound := fun j s' hs' hstate => by
        by_cases hj : j = i
        · exact ⟨_, hj ▸ hself⟩
        · rw [hother j hj]
          exact h.bound j s' (hserves.slots_of_ne hj ▸ hs') hstate
      fresh := fun j s' hs' hstate => by
        by_cases hj : j = i
        · subst hj
          rw [hserves.state hs'] at hstate
          cases hstate
        · rw [hother j hj]
          exact h.fresh j s' (hserves.slots_of_ne hj ▸ hs') hstate
      held := fun j hj => by
        by_cases hi : j = i
        · exact ⟨_, hi ▸ hself, rfl⟩
        · rw [hserves.held] at hj
          rw [hother j hi]
          exact h.held j ((List.mem_cons.1 hj).resolve_left hi) }

/-- A socket is bound to a slot that has no handle. -/
theorem bind (h : m.Accounted) (hbinds : Binds i fd m m') (hfree : i ∉ m.held) : m'.Accounted := by
  obtain ⟨s, t, hs, hbefore, hafter, haccount⟩ := hbinds.account
  have htenancies := hbinds.tenancies_eq
  have hserved : Tenancy.served m'.tenancies = Tenancy.served m.tenancies := by
    rw [htenancies]
    exact Nat.zero_add _
  have hself : m'.tenancy? i = some { slot := i } := by
    rw [tenancy?, htenancies, tenancy?_cons, if_pos rfl]
  have hother : ∀ j, j ≠ i → m'.tenancy? j = m.tenancy? j := fun j hj => by
    rw [tenancy?, htenancies, tenancy?_cons, if_neg hj.symm]
    rfl
  exact
    { accepts := by rw [hbinds.accepts, h.accepts, hserved]
      account := by
        have hunbound : s.isBound = false := by rw [Slot.isBound, hbefore]; rfl
        have hbound : t.isBound = true := by rw [Slot.isBound, hafter]; rfl
        rw [haccount, Worker.account_bound hs hunbound hbound, h.account, htenancies, List.length_cons,
          UInt64.ofNat_add]
        rfl
      services := by rw [hbinds.countP_isServed, h.services, hserved]; rfl
      once := by
        rw [htenancies]
        exact List.forall_mem_cons.2 ⟨Nat.zero_le 1, h.once⟩
      bound := fun j s' hs' hstate => by
        by_cases hj : j = i
        · exact ⟨_, hj ▸ hself⟩
        · rw [hother j hj]
          exact h.bound j s' (hbinds.slots_of_ne hj ▸ hs') hstate
      fresh := fun j s' hs' hstate => by
        by_cases hj : j = i
        · exact ⟨_, hj ▸ hself, rfl⟩
        · rw [hother j hj]
          exact h.fresh j s' (hbinds.slots_of_ne hj ▸ hs') hstate
      held := fun j hj => by
        rw [hbinds.held] at hj
        rw [hother j fun hi => hfree (hi ▸ hj)]
        exact h.held j hj }

theorem strides (h : m.Accounted) (hstrides : Strides strict m m') : m'.Accounted := by
  induction hstrides with
  | refl => exact h
  | tail _ hstride ih =>
    cases hstride with
    | upkeep hkept => exact ih.upkeep hkept
    | serve hserves => exact ih.serve hserves

/-- A worker that was just built has no tenancy. -/
theorem of_fresh (h : m.Fresh) : m.Accounted := by
  obtain ⟨id, config, cores, k, -, hbuild⟩ := h.built
  obtain ⟨hnone, htenancies⟩ := tenancies_of_fresh h
  have hfree : ∀ (i : Nat) (s : Slot), m.worker.slots[i]? = some s → s.state = .disconnected := fun i s hs => by
    rw [(h.new.slots i s hs).eq]
  have hcounters : m.worker.counters = {} := (Worker.untouched_of_build hbuild).1
  exact
    { accepts := by rw [hcounters, htenancies]; rfl
      account := by
        have hcount : m.worker.slots.countP (·.isBound) = 0 := List.countP_eq_zero.2 fun s hs => by
          obtain ⟨i, hi⟩ := List.mem_iff_getElem?.1 hs
          rw [Slot.isBound, hfree i s hi]
          decide
        rw [Worker.account, hcounters, hcount, htenancies]
        rfl
      services := by
        rw [← countP_isServed_filter, show m.trace.filter (·.isService) = [] from hnone, htenancies]
        rfl
      once := fun t ht => by
        rw [htenancies] at ht
        cases ht
      bound := fun i s hs hstate => absurd (hfree i s hs) hstate
      fresh := fun i s hs hstate => by
        rw [hfree i s hs] at hstate
        cases hstate
      held := fun i hi => by
        rw [h.held] at hi
        cases hi }

/-- Whatever a worker is made to do keeps the accounts. -/
theorem advance (hmoored : m.All Moored []) (h : m.Accounted) {reply : Reply} (hadvance : Advance m m' reply) :
    m'.Accounted := by
  cases hadvance with
  | refused e hkept => exact h.upkeep hkept
  | @accepted i fd m₁ m₂ hfree hbefore hbinds hafter =>
    refine ((h.upkeep hbefore).bind hbinds fun hheld => ?_).upkeep hafter
    obtain ⟨s, hs, -⟩ := (hmoored.mem_free i).1 hfree
    obtain ⟨-, -, hhandles, -⟩ := (hmoored.settled hs).free_of_places (List.count_pos_iff.2 hfree)
    exact List.count_eq_zero.1 hhandles (hbefore.held.subset hheld)
  | asked hkept =>
    have hasked : ({ m with worker := { m.worker with stopping := true } } : Machine α).Accounted := { h with }
    exact hasked.upkeep hkept
  | turned b hstrides =>
    refine strides ?_ hstrides
    unfold opened
    split
    · exact { h with }
    · exact h
  | done hkept => exact h.upkeep hkept

end Machine.Accounted

/-! ## What the counters come to -/

namespace Machine

/-- The tenancies that are over. -/
def ended (m : Machine α) : List Tenancy := SlotServer.ended m.worker.inUse m.tenancies

/-- The slots whose connection was given to the handler and is open. -/
def connections (m : Machine α) : List Nat := m.worker.inUse.filter fun i => (m.tenancy? i).any (·.isServed)

/-- How many sockets were closed that were bound, but never given to the handler. -/
def turnedAway (m : Machine α) : Nat := m.ended.countP (!·.isServed)

namespace Accounted

variable {m : Machine α}

theorem tenancy_of_inUse (h : m.Accounted) :
    ∀ i ∈ m.worker.inUse, (SlotServer.tenancy? i m.tenancies).isSome = true := by
  intro i hi
  obtain ⟨s, hs, hstate⟩ := Worker.mem_inUse.1 hi
  obtain ⟨t, ht⟩ := h.bound i s hs hstate
  exact Option.isSome_iff_exists.2 ⟨t, ht⟩

theorem length_ended (h : m.Accounted) : m.ended.length + m.worker.inUse.length = m.tenancies.length :=
  SlotServer.length_ended m.worker.nodup_inUse h.tenancy_of_inUse

/-- Each tenancy that is over was counted, until the counter goes round. -/
theorem disconnects (h : m.Accounted) (hfew : m.tenancies.length < wordCount) :
    m.worker.counters.disconnects.toNat = m.ended.length := by
  have haccount := h.account
  rw [Worker.account, ← Worker.length_inUse, ← h.length_ended, UInt64.ofNat_add] at haccount
  have hlength := h.length_ended
  rw [(UInt64.add_left_inj _).1 haccount]
  exact UInt64.toNat_ofNat_of_lt' (by show _ < wordCount; omega)

/-- Each connection that was given to the handler was counted, until the counter goes round. -/
theorem accepts_toNat (h : m.Accounted) (hfew : m.tenancies.length < wordCount) :
    m.worker.counters.accepts.toNat = m.tenancies.countP (·.isServed) := by
  have hle : m.tenancies.countP (·.isServed) ≤ m.tenancies.length := List.countP_le_length
  rw [h.accepts, ← Tenancy.countP_isServed h.once]
  exact UInt64.toNat_ofNat_of_lt' (by show _ < wordCount; omega)

/-- A connection that was given to the handler is open, or its tenancy is over. -/
theorem length_connections (h : m.Accounted) :
    m.ended.countP (·.isServed) + m.connections.length = m.tenancies.countP (·.isServed) := by
  have hcount := countP_ended (·.isServed) m.worker.nodup_inUse h.tenancy_of_inUse
  rw [connections, ← List.countP_eq_length_filter]
  exact hcount

end Accounted

theorem turnedAway_add (m : Machine α) : m.ended.countP (·.isServed) + m.turnedAway = m.ended.length := by
  rw [List.length_eq_countP_add_countP (·.isServed), turnedAway]
  exact congrArg _ (List.countP_congr fun t _ => by simp)

end Machine

/-- The accounts are right wherever a worker over an arbitrary kernel comes to. -/
theorem WildRun.accounted {serve : Run.Serve α} {m : Machine α} (hserve : Modest serve) (h : WildRun serve m) :
    m.Accounted := by
  induction h with
  | start h => exact .of_fresh h.toFresh
  | step before hstep ih =>
    cases hstep with
    | move move hwhole _ hrun =>
      obtain ⟨reply, hreply⟩ := Move.reply_of_run hrun
      exact ih.advance (WildRun.moored hserve before) (Move.advance hserve hwhole hreply)
    | around kernel app hready => exact { ih with }

/-- The number of open connections that the counters show falls short of what it is by the sockets that were closed
without having been given to the handler. -/
theorem WildRun.opened_eq {serve : Run.Serve α} {m : Machine α} (hserve : Modest serve) (h : WildRun serve m)
    (hfew : m.tenancies.length < wordCount) :
    m.worker.counters.opened = m.connections.length - m.turnedAway ∧
      (m.worker.counters.opened = m.connections.length ↔ m.turnedAway = 0 ∨ m.connections = []) := by
  have haccounted := h.accounted hserve
  have hopened : m.worker.counters.opened = m.connections.length - m.turnedAway := by
    have hconnections := haccounted.length_connections
    have hended := m.turnedAway_add
    rw [Counters.opened, haccounted.accepts_toNat hfew, haccounted.disconnects hfew]
    omega
  refine ⟨hopened, ?_⟩
  rw [hopened, ← List.length_eq_zero_iff]
  omega

/-- The machine with the socket of a local pair and a TCP socket, over a kernel that answers closes at once. -/
abbrev Machine.withSockets (m : Machine α) : Machine α :=
  { m with
    kernel := { m.kernel with sockets := { all := [{ kind := .pair }, { kind := .tcp }] }, answersCloses := true } }

/-- Two sockets are offered, one after the other, the first of which has no choice about small packets. -/
def Machine.oneByOne? : Option (Machine Application) :=
  (built? { backlog := 1, receiveLength := 1, sendLength := 1 } 1 { service := .keep }).bind fun m =>
    m.withSockets.after? Application.serve [.assign 300 none, .turn false, .turn false, .assign 301 none, .turn false]

theorem WildRun.of_oneByOne? {m : Machine Application} (h : Machine.oneByOne? = some m) :
    WildRun Application.serve m := by
  unfold Machine.oneByOne? at h
  obtain ⟨m₀, hbuilt, hafter⟩ := Option.bind_eq_some_iff.1 h
  have hready : (Machine.built? { backlog := 1, receiveLength := 1, sendLength := 1 } 1
      ({ service := .keep } : Application)).all (·.kernel.ready.isEmpty) = true := by decide +kernel
  have hnone : m₀.kernel.ready = [] := List.isEmpty_iff.1 ((Option.all_eq_true ..).1 hready m₀ hbuilt)
  have hstart : m₀.Starts := .of_built? hbuilt (by decide +kernel)
  have haround : WildRun Application.serve m₀.withSockets :=
    (Reached.start hstart).step (.around _ m₀.app fun c hc => by
      rw [show m₀.withSockets.kernel.ready = m₀.kernel.ready from rfl, hnone] at hc
      cases hc)
  exact haround.after (fun move => move.isWhole = true) (fun hwhole hallowed hrun => .move _ hwhole hallowed hrun)
    (by decide) hafter

theorem WildRun.opened_eq_oneByOne : ∃ m : Machine Application, Machine.oneByOne? = some m ∧
    m.worker.counters.opened = m.connections.length - m.turnedAway ∧
      (m.worker.counters.opened = m.connections.length ↔ m.turnedAway = 0 ∨ m.connections = []) := by
  have hany : Machine.oneByOne?.any (fun m => m.tenancies.length = 2) = true := by decide +kernel
  obtain ⟨m, hm, htwo⟩ := (Option.any_eq_true ..).1 hany
  have hfew : m.tenancies.length < wordCount := lt_of_eq_of_lt (of_decide_eq_true htwo) (by decide)
  exact ⟨m, hm, WildRun.opened_eq Application.modest_serve (.of_oneByOne? hm) hfew⟩

/-- A connection is open, and the counters show none: the close of a socket that was never given to the handler is
counted against it. -/
theorem WildRun.not_opened : ∃ m : Machine Application, WildRun Application.serve m ∧
    m.tenancies.length < wordCount ∧ m.connections = [0] ∧ m.worker.counters.opened = 0 := by
  have hany : Machine.oneByOne?.any (fun m => m.tenancies.length = 2 && m.connections = [0] &&
      m.worker.counters.opened = 0) = true := by decide +kernel
  obtain ⟨m, hm, hall⟩ := (Option.any_eq_true ..).1 hany
  rw [Bool.and_eq_true, Bool.and_eq_true] at hall
  obtain ⟨⟨htwo, hconnections⟩, hopened⟩ := hall
  exact ⟨m, .of_oneByOne? hm, lt_of_eq_of_lt (of_decide_eq_true htwo) (by decide), of_decide_eq_true hconnections,
    of_decide_eq_true hopened⟩

/-! ## Sockets that were taken -/

/-- The slots of the sockets that were taken, the latest first. -/
def taken : List Reply → List Nat
  | [] => []
  | .assigned (.ok i) :: log => i :: taken log
  | _ :: log => taken log

/-- Every socket that is taken begins a tenancy of its slot, and nothing else begins one. -/
theorem Advance.map_slot_tenancies {m m' : Machine α} {log : List Reply} {reply : Reply} (h : Advance m m' reply)
    (hbefore : m.tenancies.map (·.slot) = taken log) : m'.tenancies.map (·.slot) = taken (reply :: log) := by
  cases h with
  | refused e hkept => exact (congrArg _ (Machine.tenancies_of_services hkept.services)).trans hbefore
  | accepted _ htaken hbinds hafter =>
    rw [Machine.tenancies_of_services hafter.services, hbinds.tenancies_eq,
      Machine.tenancies_of_services htaken.services, List.map_cons, hbefore]
    rfl
  | asked hkept => exact (congrArg _ (Machine.tenancies_of_services hkept.services)).trans hbefore
  | turned b hstrides =>
    have hopened : m.opened.tenancies = m.tenancies := by
      unfold Machine.opened
      split <;> rfl
    exact hstrides.map_slot_tenancies.trans (hopened ▸ hbefore)
  | done hkept => exact (congrArg _ (Machine.tenancies_of_services hkept.services)).trans hbefore

theorem LoggedRun.map_slot_tenancies {serve : Run.Serve α} {start : Machine α → Prop}
    {lawful : Machine α → Kernel → Prop} {log : List Reply} {m : Machine α} (hserve : Modest serve)
    (hstart : ∀ m, start m → m.Fresh) (h : LoggedRun serve start lawful log m) :
    m.tenancies.map (·.slot) = taken log := by
  induction h with
  | start h => rw [(Machine.tenancies_of_fresh (hstart _ h)).2]; rfl
  | move before move hwhole hallowed hrun ih => exact (Move.advance hserve hwhole hrun).map_slot_tenancies ih
  | around before kernel app h ih => exact ih

/-- What becomes of the sockets that a worker takes. -/
structure Machine.Recycles (log : List Reply) (m : Machine α) : Prop where
  /-- Every socket that was taken is bound to its slot, or its close was counted. -/
  balance : (taken log).length = m.worker.counters.disconnects.toNat + m.worker.inUse.length
  /-- Every socket that was taken began a tenancy of its slot. -/
  slots : m.tenancies.map (·.slot) = taken log
  /-- The handler was given as many connections as were counted, each that of a tenancy. -/
  given : m.trace.countP (·.isServed) = m.worker.counters.accepts.toNat
  served : Tenancy.served m.tenancies = m.worker.counters.accepts.toNat
  once : ∀ t ∈ m.tenancies, t.services ≤ 1
  /-- As long as the handler is not given the connection, there is no handle of it. Without its socket, the slot is a
  free one again. -/
  unserved : ∀ i t, m.tenancy? i = some t → t.isServed = false → i ∉ m.held ∧
    ∀ s : Slot, m.worker.slots[i]? = some s → s.state = .disconnected → i ∈ m.worker.free
  /-- A socket that is not taken is closed, and counted. -/
  refused : ∀ fd peer e m', 0 ≤ fd → Run.assign fd peer m = .ok (.error e) m' → e = .noFreeSlot ∧
    m' = { m with
      worker := m.worker.bump .rejected 1
      kernel := { m.kernel with sockets := m.kernel.sockets.close fd }
      trace := .closed none fd :: m.trace }

/-- A socket that is not taken finds no free slot, or a worker that is stopping. -/
theorem Machine.All.refused {m m' : Machine α} {fd : Int} {peer : Option Net.SocketAddress} {e : Error}
    (h : m.All Moored []) (hfd : 0 ≤ fd) (hrun : Run.assign fd peer m = .ok (.error e) m') : e = .noFreeSlot ∧
    m' = { m with
      worker := m.worker.bump .rejected 1
      kernel := { m.kernel with sockets := m.kernel.sockets.close fd }
      trace := .closed none fd :: m.trace } := by
  obtain ⟨found, m₁, hacquire, hrest⟩ := Run.of_bind hrun
  cases found with
  | none =>
    have hsame : m₁ = m := by
      have hholds : Holds (fun _ => True) (Run.acquire : Run α (Option Nat)) m fun answer m' =>
          answer = none → m' = m := Holds.acquire (fun _ => rfl) nofun
      exact hholds.of_ok hacquire rfl
    subst hsame
    dsimp only at hrest
    unfold Run.closeNow at hrest
    rw [if_pos hfd] at hrest
    cases hrest
    exact ⟨rfl, rfl⟩
  | some i =>
    obtain ⟨free, hfree, rfl⟩ := acquire_some hacquire
    obtain ⟨m₂, hbound⟩ := h.bound hfree fd peer
    cases (Run.bind_run hbound).symm.trans hrest

/-- Every socket that a worker takes is given to the handler at most once, and is closed in the end; a slot whose socket
was closed without having been given to the handler is free. -/
theorem LoggedRun.recycles {serve : Run.Serve α} {log : List Reply} {m : Machine α} (hserve : Modest serve)
    (h : LoggedRun serve Machine.Starts (fun _ kernel => kernel.Negates) log m)
    (hfew : (taken log).length < wordCount) : m.Recycles log := by
  have hwild : WildRun serve m := h.wild (fun _ => id) fun _ _ => id
  have hmoored := hwild.moored hserve
  have haccounted := hwild.accounted hserve
  have hslots := h.map_slot_tenancies hserve fun _ => Machine.Starts.toFresh
  have hlength : m.tenancies.length = (taken log).length := by rw [← hslots, List.length_map]
  have haccepts := haccounted.accepts_toNat (hlength ▸ hfew)
  rw [Tenancy.countP_isServed haccounted.once] at haccepts
  exact
    { balance := by rw [haccounted.disconnects (hlength ▸ hfew), haccounted.length_ended, hlength]
      slots := hslots
      given := haccounted.services.trans haccepts.symm
      served := haccepts.symm
      once := haccounted.once
      unserved := fun i t ht hunserved => by
        have hheld : i ∉ m.held := fun hheld => by
          obtain ⟨t', ht', hserved⟩ := haccounted.held i hheld
          obtain rfl := Option.some.inj (ht.symm.trans ht')
          rw [hunserved] at hserved
          cases hserved
        refine ⟨hheld, fun s hs hstate => (hmoored.mem_free i).2 ⟨s, hs, ?_⟩⟩
        have hleases := (hmoored.settled hs).leases
        rw [hstate, show (m.view [] i).handles = 0 from List.count_eq_zero.2 hheld] at hleases
        exact UInt8.toNat_inj.1 hleases
      refused := fun fd peer e m' hfd hrun => hmoored.refused hfd hrun }

/-- One socket is refused, and another one is taken, given to the handler and closed in the end. -/
theorem LoggedRun.recycles_small : ∃ (log : List Reply) (m : Machine Application),
    Machine.small?.bind (·.logged? Application.serve [] [.assign 5 none, .assign 6 none, .turn false, .deed 0 .drop,
      .finish]) = some (log, m) ∧ taken log = [0] ∧ m.Recycles log := by
  have hany : (Machine.small?.bind (·.logged? Application.serve [] [.assign 5 none, .assign 6 none, .turn false,
      .deed 0 .drop, .finish])).any (fun (log, _) => taken log = [0]) = true := by
    decide +kernel
  obtain ⟨⟨log, m⟩, hlogged, htaken⟩ := (Option.any_eq_true ..).1 hany
  obtain ⟨m₀, hbuilt, hmoves⟩ := Option.bind_eq_some_iff.1 hlogged
  have hstart : m₀.Starts := .of_built? hbuilt (by decide +kernel)
  have hslots : taken log = [0] := of_decide_eq_true htaken
  have hfew : (taken log).length < wordCount := by
    rw [hslots]
    decide
  exact ⟨log, m, hlogged, hslots, LoggedRun.recycles Application.modest_serve
    (LoggedRun.of_logged? (.start hstart) (by decide) hmoves) hfew⟩

end SlotServer
