import Mathlib.Data.Int.CardIntervalMod
import SlotServer.Proofs.Accounts
import SlotServer.Proofs.Inboxes
import SlotServer.Proofs.Layout
import SlotServer.Proofs.LoopChanges
import SlotServer.Server

/-!
# Connections that are dealt in turn

The workers share the slots of the backlog out, rounded up, and take connections in turn. A worker keeps its free slots
while it serves, and loses one with each connection that it takes. So none of the connections of the backlog is refused,
wherever the rotation stands at first, as long as the slots of a worker have different numbers.

- `Rotation.count_picks_even`: the shares of a rotation are the same up to one;
- `Machine.Serving.tends`: a worker that serves keeps its spare slots;
- `Distributor.Dealing`: what each worker has left when so many connections were dealt;
- `Config.deals`: rotation and slots fit together;
- `Server.vacant_of_start`: where a server begins.
-/

namespace SlotServer

namespace Rotation

variable {r : Rotation}

/-- One pick more takes the number whose turn it is. -/
theorem fst_picks_succ (r : Rotation) (count : Nat) :
    (r.picks (count + 1)).1 = (r.picks count).1 ++ [(r.picks count).2.next] := r.picks_add count 1

theorem snd_picks_succ (r : Rotation) (count : Nat) : (r.picks (count + 1)).2 = (r.picks count).2.pick.2 := by
  induction count generalizing r with
  | zero => rfl
  | succ count ih => exact ih r.pick.2

/-- The rotation comes round to one of its numbers. -/
theorem snd_picks (h : r.next < r.size) (count : Nat) :
    (r.picks count).2 = ⟨(r.next + count) % r.size, r.size⟩ := by
  induction count with
  | zero => rw [Nat.add_zero, Nat.mod_eq_of_lt h]; rfl
  | succ count ih =>
    rw [snd_picks_succ, ih]
    show (⟨((r.next + count) % r.size + 1) % r.size, r.size⟩ : Rotation) = _
    rw [Nat.mod_add_mod, Nat.add_assoc]

theorem fst_picks (h : r.next < r.size) (count : Nat) :
    (r.picks count).1 = (List.range count).map fun k => (r.next + k) % r.size := by
  induction count with
  | zero => rfl
  | succ count ih => rw [fst_picks_succ, ih, snd_picks h, List.range_succ, List.map_append]; rfl

/-- The picks of a number are those whose distance to it is a number of rounds. -/
theorem count_picks (h : r.next < r.size) {w : Nat} (hw : w < r.size) (count : Nat) :
    (r.picks count).1.count w =
      count / r.size + if (w + (r.size - r.next)) % r.size < count % r.size then 1 else 0 := by
  have hpos : 0 < r.size := Nat.zero_lt_of_lt h
  have hround : ∀ k, ((r.next + k) % r.size == w) = decide (k ≡ w + (r.size - r.next) [MOD r.size]) := fun k => by
    have hshift : w + (r.size - r.next) + r.next = w + r.size := by omega
    rw [beq_eq_decide, decide_eq_decide]
    constructor
    · intro hk
      refine Nat.ModEq.add_right_cancel' r.next ?_
      rw [hshift, Nat.add_comm k]
      exact hk.trans ((Nat.add_mod_right w r.size).trans (Nat.mod_eq_of_lt hw)).symm
    · intro hk
      have hback := hk.add_right r.next
      rw [hshift, Nat.add_comm k] at hback
      have hsame : (r.next + k) % r.size = (w + r.size) % r.size := hback
      rw [hsame, Nat.add_mod_right, Nat.mod_eq_of_lt hw]
  rw [fst_picks h, List.count, List.countP_map]
  have hcount := Nat.count_modEq_card count hpos (w + (r.size - r.next))
  rw [← hcount]
  show List.countP _ _ = List.countP _ _
  congr 1
  exact funext hround

/-- So many picks give every number the same share, up to one. -/
theorem count_picks_even (h : r.next < r.size) {w : Nat} (hw : w < r.size) (count : Nat) :
    (r.picks count).1.count w = count / r.size ∨ (r.picks count).1.count w = (count + r.size - 1) / r.size := by
  have hpos : 0 < r.size := Nat.zero_lt_of_lt h
  rw [count_picks h hw]
  split
  · rename_i hless
    right
    have hparts := Nat.div_add_mod count r.size
    have hrest := Nat.mod_lt count hpos
    have hsplit : count + r.size - 1 = count % r.size - 1 + r.size * (count / r.size + 1) := by
      rw [Nat.mul_add, Nat.mul_one]
      omega
    have hpart : count % r.size - 1 < r.size := by omega
    rw [hsplit, Nat.add_mul_div_left _ _ hpos, Nat.div_eq_of_lt hpart, Nat.zero_add]
  · exact .inl (Nat.add_zero _)

theorem count_picks_le (h : r.next < r.size) {w : Nat} (hw : w < r.size) (count : Nat) :
    (r.picks count).1.count w ≤ (count + r.size - 1) / r.size := by
  have hpos : 0 < r.size := Nat.zero_lt_of_lt h
  rcases count_picks_even h hw count with heq | heq <;> rw [heq]
  exact Nat.div_le_div_right (by omega)

end Rotation

namespace Config

/-- There are no more workers than connections to be served. -/
theorem effectiveWorkers_le {c : Config} (hbacklog : 1 ≤ c.backlog) (cores : Nat) :
    c.effectiveWorkers cores ≤ c.backlog := by
  simp only [effectiveWorkers]
  omega

/-- The slots of all workers are enough for the connections to be served. No worker could do with one slot less. -/
theorem slotsPerWorker_spec (c : Config) (cores : Nat) :
    c.backlog ≤ c.effectiveWorkers cores * c.slotsPerWorker cores ∧
      c.effectiveWorkers cores * c.slotsPerWorker cores < c.backlog + c.effectiveWorkers cores := by
  have hpos := c.effectiveWorkers_pos cores
  have hparts := Nat.div_add_mod (c.backlog + c.effectiveWorkers cores - 1) (c.effectiveWorkers cores)
  have hrest := Nat.mod_lt (c.backlog + c.effectiveWorkers cores - 1) hpos
  have hslots : c.slotsPerWorker cores = (c.backlog + c.effectiveWorkers cores - 1) / c.effectiveWorkers cores := rfl
  rw [← hslots] at hparts
  omega

/-- Of the connections of the backlog, no worker gets more than it has slots. -/
theorem share_le {c : Config} {cores count w : Nat} {r : Rotation} (hsize : r.size = c.effectiveWorkers cores)
    (hnext : r.next < r.size) (hfew : count < c.backlog) (hw : w < r.size) :
    (r.picks (count + 1)).1.count w ≤ c.slotsPerWorker cores := by
  refine (Rotation.count_picks_le hnext hw (count + 1)).trans ?_
  rw [hsize]
  exact Nat.div_le_div_right (by omega)

end Config
variable {α : Type} {serve : Run.Serve α} {m m' : Machine α} {i : Nat}

/-! ## Workers that go on serving -/

/-- The slot has no socket and no handle. -/
structure Machine.Spare (m : Machine α) (i : Nat) : Prop where
  slot : ∃ s : Slot, m.worker.slots[i]? = some s ∧ s.state = .disconnected
  held : i ∉ m.held

/-- The free slots are those that have no socket and no handle. -/
theorem Machine.All.mem_free_iff_spare (h : m.All Moored []) (i : Nat) : i ∈ m.worker.free ↔ m.Spare i := by
  rw [h.mem_free]
  constructor
  · rintro ⟨s, hs, hzero⟩
    have hleases := (h.settled hs).leases
    rw [hzero] at hleases
    obtain ⟨howed, hhandles⟩ := Nat.add_eq_zero_iff.1 hleases.symm
    exact ⟨⟨s, hs, SlotState.eq_of_leases howed⟩, List.count_eq_zero.1 hhandles⟩
  · rintro ⟨⟨s, hs, hstate⟩, hheld⟩
    have hleases := (h.settled hs).leases
    rw [hstate, show (m.view [] i).handles = 0 from List.count_eq_zero.2 hheld] at hleases
    exact ⟨s, hs, UInt8.toNat_inj.1 hleases⟩

theorem Upkeep.spare {strict : Bool} {n : UInt64} (h : Upkeep strict n m m') (hspare : m.Spare i) : m'.Spare i := by
  obtain ⟨⟨s, hs, hstate⟩, hheld⟩ := hspare
  have hi : i < m'.worker.slots.length := h.size ▸ (List.getElem?_eq_some_iff.1 hs).1
  have hs' := List.getElem?_eq_getElem hi
  exact ⟨⟨_, hs', (h.slots i s _ hs hs').free hstate⟩, fun hmem => hheld (h.held.subset hmem)⟩

/-- A row of strides keeps the count of slots, and leaves the spare ones alone. -/
theorem Strides.spare {strict : Bool} (h : Strides strict m m') :
    m'.worker.slots.length = m.worker.slots.length ∧ ∀ i, m.Spare i → m'.Spare i := by
  induction h with
  | refl => exact ⟨rfl, fun _ => id⟩
  | tail _ hstride ih =>
    obtain ⟨hlength, hspare⟩ := ih
    cases hstride with
    | upkeep h => exact ⟨h.size.trans hlength, fun i hi => h.spare (hspare i hi)⟩
    | @serve j _ h =>
      obtain ⟨s, t, hs, hbefore, -, -, hslots⟩ := h.slot
      refine ⟨hslots ▸ List.length_set.trans hlength, fun i hi => ?_⟩
      obtain ⟨⟨u, hu, hstate⟩, hheld⟩ := hspare i hi
      have hij : i ≠ j := by
        rintro rfl
        obtain rfl := Option.some.inj (hs.symm.trans hu)
        rw [hbefore] at hstate
        cases hstate
      refine ⟨⟨u, ?_, hstate⟩, ?_⟩
      · rw [hslots, List.getElem?_set_ne hij.symm]
        exact hu
      · rw [h.held, List.mem_cons]
        exact fun hmem => hmem.elim hij hheld

/-- A turn does not end the loop: only the teardown does. -/
theorem Machine.All.exited_turn (hserve : Modest serve) (h : m.All Moored []) (hexited : m.worker.exited = false)
    {block b : Bool} (hrun : Run.turn serve block m = .ok b m') : m'.worker.exited = false := by
  obtain ⟨m₁, done, m₂, hopen, hdone, hrest⟩ := Run.of_turn hrun
  cases done with
  | true =>
    cases hrest
    have hopened := ((wild hserve).openTurn h hexited).of_ok hopen
    have hmakes : Makes .all (fun _ => True) (Run.drained : Run α Bool) := .drained
    exact (hmakes m₁ trivial true m' hdone).exited.trans hopened.2
  | false =>
    obtain rfl := Run.of_drained_false hdone
    obtain ⟨-, completed, m₂, commands, m₃, htaken, hdrain, hslept⟩ := Run.steps_of_goOn hrest
    obtain ⟨hafloat, hexited₂⟩ := h.takenIn hserve hexited hopen htaken
    have hexecute : Run.executeUpTo serve (2 * m₂.worker.inboxCapacity + 1) m₂ = .ok commands m₃ := hdrain
    obtain ⟨cs, hcarries, -⟩ := Carries.of_executeUpTo hexecute
    have hexited₃ := (hcarries.afloat hserve hafloat hexited₂).2.1
    rcases hslept with rfl | hslept
    · exact hexited₃
    · cases hslept
      exact hexited₃

/-- A worker that was not asked to stop, and whose loop is there. -/
structure Machine.Serving (size : Nat) (m : Machine α) : Prop where
  moored : m.All Moored []
  size : m.worker.slots.length = size
  stopping : m.worker.stopping = false
  exited : m.worker.exited = false

/-- The worker makes the move on its own, or a handler does. No socket is offered, and nothing is torn down. -/
def Move.isOwn : Move → Bool
  | deed .. | turn _ => true
  | _ => false

/-- What may happen at a worker while it serves, over an arbitrary kernel. -/
inductive Tends (serve : Run.Serve α) (m : Machine α) : Machine α → Prop
  | move (move : Move) {m' : Machine α} (hown : move.isOwn = true) (hallowed : move.Allowed m)
    (hrun : move.run serve m = .ok () m') : Tends serve m m'
  | around (kernel : Kernel) (app : α) (hready : ∀ c ∈ kernel.ready, c.result ≠ Int32.minValue) :
    Tends serve m { m with kernel, app }

theorem Tends.wild (h : Tends serve m m') : WildStep serve m m' := by
  cases h with
  | move move hown hallowed hrun => exact .move move (by cases move <;> first | rfl | cases hown) hallowed hrun
  | around kernel app hready => exact .around kernel app hready

/-- A worker that serves goes on serving, and keeps its spare slots. -/
theorem Machine.Serving.tends {size : Nat} (hserve : Modest serve) (h : m.Serving size) (hstep : Tends serve m m') :
    m'.Serving size ∧ ∀ i, m.Spare i → m'.Spare i := by
  have hmoored := Moored.step hserve h.moored hstep.wild
  cases hstep with
  | move move hown hallowed hrun =>
    cases move with
    | deed j d =>
      have hkept : Upkeep false 0 m m' := Tidy.deed d m () m' hrun
      have hmakes : Makes .all (fun _ => True) (d.run j : Run α Unit) := .deed d
      exact ⟨⟨hmoored, hkept.size.trans h.size, hkept.stopping.trans h.stopping,
        (hmakes m trivial () m' hrun).exited.trans h.exited⟩, fun i => hkept.spare⟩
    | turn block =>
      obtain ⟨b, m₁, hturn, hrest⟩ := Run.of_bind hrun
      cases hrest
      have hopened : m.opened = m := by
        unfold Machine.opened Worker.isToDrain
        rw [h.stopping, Bool.and_false, if_neg Bool.false_ne_true]
      have hstrides := Walks.turn hserve.tame hturn
      rw [hopened] at hstrides
      obtain ⟨hlength, hspare⟩ := hstrides.spare
      exact ⟨⟨hmoored, hlength.trans h.size, hstrides.stopping.trans h.stopping,
        h.moored.exited_turn hserve h.exited hturn⟩, hspare⟩
    | _ => cases hown
  | around kernel app hready => exact ⟨⟨hmoored, h.size, h.stopping, h.exited⟩, fun i hi => ⟨hi.slot, hi.held⟩⟩


/-! ## Sockets that are offered -/

/-- A command for a loop that is there is put into the inbox, if there is a place, and the loop is woken. -/
theorem Run.submit_room (c : Command) (hexited : m.worker.exited = false) (hroom : m.worker.inboxFull = false) :
    ∃ kernel since, (Run.submit c : Run α Unit) m = .ok () { m with
      worker := { m.worker with inbox := m.worker.inbox ++ [c] }, kernel, trace := since ++ m.trace } ∧
        kernel.sockets = m.kernel.sockets := by
  have hplace : (Run.enqueue c : Run α Bool) m =
      .ok true { m with worker := { m.worker with inbox := m.worker.inbox ++ [c] } } := by
    rw [Run.enqueue_run, if_neg (by rw [hroom]; exact Bool.false_ne_true)]
  have hsettle : ∀ kernel trace, (Run.settle : Run α Unit)
      { m with worker := { m.worker with inbox := m.worker.inbox ++ [c] }, kernel, trace } =
        .ok () { m with worker := { m.worker with inbox := m.worker.inbox ++ [c] }, kernel, trace } := by
    intro kernel trace
    show (if m.worker.exited = true then Run.failOrphans else pure () : Run α Unit) _ = _
    rw [if_neg (by rw [hexited]; exact Bool.false_ne_true)]
    rfl
  have hring : (Run.ring : Run α (Except Error Unit))
      { m with worker := { m.worker with inbox := m.worker.inbox ++ [c] } } = .ok (m.kernel.ask .notify).1 { m with
        worker := { m.worker with inbox := m.worker.inbox ++ [c] }
        kernel := (m.kernel.ask .notify).2
        trace := .rung :: m.trace } := rfl
  unfold Run.submit
  cases hanswer : (m.kernel.ask .notify).1 with
  | ok _ =>
    rw [hanswer] at hring
    refine ⟨(m.kernel.ask .notify).2, [.rung], ?_, rfl⟩
    exact (Run.bind_run hplace).trans ((Run.bind_run hring).trans (hsettle _ _))
  | error e =>
    rw [hanswer] at hring
    obtain ⟨line, hsay⟩ := Run.say_run .warn s!"notify failed: {e.message}"
      { m with
        worker := { m.worker with inbox := m.worker.inbox ++ [c] }
        kernel := (m.kernel.ask .notify).2
        trace := .rung :: m.trace }
    refine ⟨(m.kernel.ask .notify).2, [.said .warn line, .rung], ?_, rfl⟩
    exact (Run.bind_run hplace).trans ((Run.bind_run hring).trans ((Run.bind_run hsay).trans (hsettle _ _)))

/-- A socket was bound to the first free slot and waits there for the dispatch loop. Nothing else of the worker has
changed, so nothing was counted either. -/
structure Machine.Seats (i : Nat) (fd : Int) (peer : Option Net.SocketAddress) (m m' : Machine α) : Prop where
  worker : ∃ free s, m.worker.free = i :: free ∧ m.worker.slots[i]? = some s ∧ s.state = .disconnected ∧
    m'.worker = { m.worker with
      free
      slots := m.worker.slots.set i (s.withSocket fd peer)
      inbox := m.worker.inbox ++ [.accept i] }
  held : m'.held = m.held
  sockets : m'.kernel.sockets = m.kernel.sockets

/-- A worker that serves takes a socket if it has a free slot. -/
theorem Machine.Serving.assign {size : Nat} (h : m.Serving size) {free : List Nat} (hfree : m.worker.free = i :: free)
    (fd : Int) (peer : Option Net.SocketAddress) :
    ∃ m', Run.assign fd peer m = .ok (.ok i) m' ∧ m.Seats i fd peer m' := by
  obtain ⟨⟨s, hs, hstate⟩, -⟩ := (h.moored.mem_free_iff_spare i).1 (hfree ▸ List.mem_cons_self ..)
  have hacquire : (Run.acquire : Run α (Option Nat)) m =
      .ok (some i) { m with worker := { m.worker with free } } := by
    refine (Run.bind_run (x := Run.worker) rfl).trans ?_
    rw [h.stopping, if_neg Bool.false_ne_true, hfree]
    rfl
  have hstep : (Run.stepSlot i (Slot.startAccept fd peer) : Run α (Except Error Unit))
      { m with worker := { m.worker with free } } = .ok (.ok ())
        { m with worker := { m.worker with free, slots := m.worker.slots.set i (s.withSocket fd peer) } } := by
    refine (Run.stepSlot_run (m := { m with worker := { m.worker with free } }) hs).trans ?_
    rw [Slot.startAccept_ok hstate]
    rfl
  have hroom : ({ m.worker with free, slots := m.worker.slots.set i (s.withSocket fd peer) } : Worker).inboxFull =
      false := by
    have huncrowded : m.Uncrowded := Machine.All.uncrowded fun j => (h.moored j).afloat
    unfold Worker.inboxFull Worker.inboxCapacity
    rw [List.length_set]
    exact huncrowded.room (Nat.zero_lt_of_lt (List.getElem?_eq_some_iff.1 hs).1)
  obtain ⟨kernel, since, hsubmit, hsockets⟩ := Run.submit_room (m := { m with
    worker := { m.worker with free, slots := m.worker.slots.set i (s.withSocket fd peer) }
    trace := .bound i fd :: m.trace }) (.accept i) h.exited hroom
  have hbound : (Run.startAccept i fd peer : Run α (Except Error Unit)) { m with worker := { m.worker with free } } =
      .ok (.ok ()) { m with
        worker := { m.worker with
          free
          slots := m.worker.slots.set i (s.withSocket fd peer)
          inbox := m.worker.inbox ++ [.accept i] }
        kernel
        trace := since ++ .bound i fd :: m.trace } := by
    refine (Run.bind_run (Run.slot?_run (m := { m with worker := { m.worker with free } }) hs)).trans ?_
    refine (Run.bind_run hstep).trans ?_
    exact (Run.bind_run (x := Run.record (.bound i fd)) rfl).trans ((Run.bind_run hsubmit).trans rfl)
  exact ⟨_, (Run.bind_run hacquire).trans ((Run.bind_run hbound).trans rfl),
    ⟨⟨free, s, hfree, hs, hstate, rfl⟩, rfl, hsockets⟩⟩

/-- Taking a socket leaves a worker serving, with one free slot less. -/
theorem Machine.Serving.seats {size : Nat} (hserve : Modest serve) (h : m.Serving size) {fd : Int} (hfd : 0 ≤ fd)
    {peer : Option Net.SocketAddress} (hrun : Run.assign fd peer m = .ok (.ok i) m') (hseats : m.Seats i fd peer m') :
    m'.Serving size ∧ m.worker.free.length = m'.worker.free.length + 1 := by
  have hmoored := ((wild hserve).assign hfd peer h.moored).of_ok hrun
  obtain ⟨free, s, hfree, -, -, hworker⟩ := hseats.worker
  refine ⟨⟨hmoored, ?_, ?_, ?_⟩, ?_⟩ <;> rw [hworker]
  · exact List.length_set.trans h.size
  · exact h.stopping
  · exact h.exited
  · rw [hfree]
    rfl

/-- Spare slots that are kept are free slots that are kept. -/
theorem Machine.Serving.length_free {size : Nat} (h : m.Serving size) (h' : m'.Serving size)
    (hspare : ∀ i, m.Spare i → m'.Spare i) : m.worker.free.length ≤ m'.worker.free.length := by
  have hnodup : m.worker.free.Nodup := List.nodup_iff_count.2 fun j => (h.moored j).afloat.few.places.1
  refine (hnodup.subperm fun j hj => ?_).length_le
  exact (h'.moored.mem_free_iff_spare j).2 (hspare j ((h.moored.mem_free_iff_spare j).1 hj))

/-! ## Connections that are dealt to workers -/

/-- Between operations, all slots of the worker are free, and it was not asked to stop. -/
structure Machine.Vacant (serve : Run.Serve α) (size : Nat) (m : Machine α) : Prop where
  run : WildRun serve m
  length : m.worker.slots.length = size
  /-- Each slot has a number of its own, of 32 bits. With more slots, the free queue would name some of them twice. -/
  few : size ≤ 0x100000000
  free : ∀ i < size, i ∈ m.worker.free
  stopping : m.worker.stopping = false
  exited : m.worker.exited = false

namespace Distributor

/-- So many workers with so many slots each, all of them free. Any worker may be the next one. -/
structure Vacant (serve : Run.Serve α) (count size : Nat) (d : Distributor α) : Prop where
  length : d.workers.length = count
  rotation : d.rotation.size = count
  next : d.rotation.next < count
  workers : ∀ m ∈ d.workers, m.Vacant serve size

/-- Connections are dealt to workers, which go on serving meanwhile. The answers are listed, the earliest first. -/
inductive Dealt (serve : Run.Serve α) (d₀ : Distributor α) :
    List (Option (Except Fault (Except Error Nat))) → Distributor α → Prop
  | start : Dealt serve d₀ [] d₀
  | offer {answers : List (Option (Except Fault (Except Error Nat)))} {d : Distributor α}
    (before : Dealt serve d₀ answers d) (peer : Option Net.SocketAddress) :
    Dealt serve d₀ (answers ++ [((offer peer).run d).1]) ((offer peer).run d).2
  | tends {answers : List (Option (Except Fault (Except Error Nat)))} {d : Distributor α} {w : Nat} {m m' : Machine α}
    (before : Dealt serve d₀ answers d) (hm : d.workers[w]? = some m) (h : Tends serve m m') :
    Dealt serve d₀ answers (d.setWorker w m')

/-- The worker whose turn it is takes a new socket to a free slot of its, and nothing happens to the others. -/
structure Takes (peer : Option Net.SocketAddress) (i : Nat) (d d' : Distributor α) : Prop where
  run : (offer peer).run d = (some (.ok (.ok i)), d')
  rotation : d'.rotation = d.rotation.pick.2
  workers : ∃ m m' : Machine α, d.workers[d.rotation.next]? = some m ∧ d'.workers = d.workers.set d.rotation.next m' ∧
    ({ m with kernel := { m.kernel with sockets := (m.kernel.sockets.add .tcp).2 } } : Machine α).Seats i
      (m.kernel.sockets.add .tcp).1 peer m'

/-- So many connections were dealt: each worker lost no more free slots than connections came to it. -/
structure Dealing (size : Nat) (r : Rotation) (count : Nat) (d : Distributor α) : Prop where
  rotation : d.rotation = (r.picks count).2
  length : d.workers.length = r.size
  workers : ∀ w m, d.workers[w]? = some m → m.Serving size ∧ size ≤ m.worker.free.length + (r.picks count).1.count w

/-- What becomes of an offer, once it is known what the worker makes of it. -/
theorem offer_run {d : Distributor α} {peer : Option Net.SocketAddress} {answer : Except Error Nat}
    (hm : d.workers[d.rotation.next]? = some m) (hrun : bindNew peer m = .ok answer m') : (offer peer).run d =
      (some (.ok answer), { d with workers := d.workers.set d.rotation.next m', rotation := d.rotation.pick.2 }) := by
  show (atWorker d.rotation.next (bindNew peer)).run { d with rotation := d.rotation.pick.2 } = _
  unfold atWorker
  simp only [StateT.run_bind, StateT.run_get, pure_bind, hm, hrun]
  rfl

namespace Dealing

variable {size count : Nat} {r : Rotation} {d : Distributor α}

theorem of_vacant (hserve : Modest serve) (h : d.Vacant serve r.size size) (hr : d.rotation = r) :
    Dealing size r 0 d where
  rotation := hr
  length := h.length
  workers w m hm := by
    have hvacant := h.workers m (List.mem_of_getElem? hm)
    refine ⟨⟨hvacant.run.moored hserve, hvacant.length, hvacant.stopping, hvacant.exited⟩, ?_⟩
    have hrange : List.range size ⊆ m.worker.free := fun i hi => hvacant.free i (List.mem_range.1 hi)
    have hlength := (List.nodup_range.subperm hrange).length_le
    rw [List.length_range] at hlength
    exact Nat.le_add_right_of_le hlength

theorem tends (hserve : Modest serve) (h : Dealing size r count d) {w : Nat} (hm : d.workers[w]? = some m)
    (hstep : Tends serve m m') : Dealing size r count (d.setWorker w m') where
  rotation := h.rotation
  length := (d.length_setWorker w m').trans h.length
  workers v m₁ hm₁ := by
    obtain ⟨hserving, hroom⟩ := h.workers w m hm
    change (d.workers.set w m')[v]? = some m₁ at hm₁
    rw [List.getElem?_set] at hm₁
    split at hm₁
    · rename_i heq
      subst heq
      split at hm₁ <;> cases hm₁
      obtain ⟨hserving', hspare⟩ := hserving.tends hserve hstep
      exact ⟨hserving', hroom.trans (Nat.add_le_add_right (hserving.length_free hserving' hspare) _)⟩
    · exact h.workers v m₁ hm₁

/-- As long as no worker was to get more connections than it has slots, the next connection finds one. -/
theorem offer (hserve : Modest serve) (h : Dealing size r count d) (hnext : r.next < r.size)
    (hfew : ∀ w < r.size, (r.picks (count + 1)).1.count w ≤ size) (peer : Option Net.SocketAddress) :
    ∃ i d', d.Takes peer i d' ∧ Dealing size r (count + 1) d' := by
  have hturn : d.rotation.next < r.size := by
    rw [h.rotation, Rotation.snd_picks hnext]
    exact Nat.mod_lt _ (Nat.zero_lt_of_lt hnext)
  obtain ⟨m, hm⟩ : ∃ m, d.workers[d.rotation.next]? = some m :=
    ⟨_, List.getElem?_eq_getElem (h.length.symm ▸ hturn)⟩
  obtain ⟨hserving, hroom⟩ := h.workers _ m hm
  have hcount : ∀ w, (r.picks (count + 1)).1.count w =
      (r.picks count).1.count w + if d.rotation.next = w then 1 else 0 := fun w => by
    rw [Rotation.fst_picks_succ, List.count_append, List.count_singleton, h.rotation]
    simp only [beq_iff_eq]
  -- the worker was to get this connection too, so it has a free slot left
  have hshare := hfew _ hturn
  rw [hcount, if_pos rfl] at hshare
  cases hfree : m.worker.free with
  | nil =>
    rw [hfree] at hroom
    exact absurd (hshare.trans hroom) (by simp)
  | cons i free =>
    have hsockets : ({ m with kernel := { m.kernel with sockets := (m.kernel.sockets.add .tcp).2 } } :
        Machine α).Serving size :=
      ⟨fun j => hserving.moored j, hserving.size, hserving.stopping, hserving.exited⟩
    have hfd : 0 ≤ (m.kernel.sockets.add .tcp).1 := Int.natCast_nonneg _
    obtain ⟨m', hrun, hseats⟩ := hsockets.assign hfree (m.kernel.sockets.add .tcp).1 peer
    obtain ⟨hserving', hlength⟩ := hsockets.seats hserve hfd hrun hseats
    have hoffer := offer_run hm ((Run.bind_run (x := Run.openSocket .tcp) rfl).trans hrun)
    refine ⟨i, _, ⟨hoffer, rfl, m, m', hm, rfl, hseats⟩, ?_⟩
    refine ⟨?_, List.length_set.trans h.length, fun w m₁ hm₁ => ?_⟩
    · rw [h.rotation]
      exact (Rotation.snd_picks_succ r count).symm
    · rw [hcount]
      change (d.workers.set d.rotation.next m')[w]? = some m₁ at hm₁
      rw [List.getElem?_set] at hm₁
      split at hm₁
      · rename_i heq
        subst heq
        split at hm₁ <;> cases hm₁
        rw [if_pos rfl]
        refine ⟨hserving', ?_⟩
        have hbefore : m.worker.free.length = m'.worker.free.length + 1 := hlength
        omega
      · rename_i hne
        rw [if_neg hne]
        exact h.workers w m₁ hm₁

end Dealing

/-- Whatever the workers do, as many connections as the configuration has backlog are dealt so that each gets a slot. -/
theorem Dealt.dealing {c : Config} {cores : Nat} {d₀ d : Distributor α}
    {answers : List (Option (Except Fault (Except Error Nat)))} (hserve : Modest serve)
    (hvacant : d₀.Vacant serve (c.effectiveWorkers cores) (c.slotsPerWorker cores)) (h : Dealt serve d₀ answers d)
    (hfew : answers.length ≤ c.backlog) : Dealing (c.slotsPerWorker cores) d₀.rotation answers.length d ∧
      ∀ answer ∈ answers, ∃ i, answer = some (.ok (.ok i)) := by
  have hnext : d₀.rotation.next < d₀.rotation.size := hvacant.rotation ▸ hvacant.next
  induction h with
  | start => exact ⟨.of_vacant hserve (hvacant.rotation.symm ▸ hvacant) rfl, nofun⟩
  | @offer answers d _ peer ih =>
    rw [List.length_append] at hfew ⊢
    obtain ⟨hdealing, hall⟩ := ih (Nat.le_of_succ_le hfew)
    obtain ⟨i, d', htakes, hdealing'⟩ :=
      hdealing.offer hserve hnext (fun _ => Config.share_le hvacant.rotation hnext hfew) peer
    rw [htakes.run]
    refine ⟨hdealing', fun answer hanswer => ?_⟩
    rcases List.mem_append.1 hanswer with hbefore | hlast
    · exact hall answer hbefore
    · exact ⟨i, List.mem_singleton.1 hlast⟩
  | tends _ hm hstep ih =>
    obtain ⟨hdealing, hall⟩ := ih hfew
    exact ⟨hdealing.tends hserve hm hstep, hall⟩

end Distributor

/-- A worker that was just built is vacant. -/
theorem Machine.FreshFrom.vacant {c : Config} {cores : Nat} (h : m.FreshFrom c cores)
    (hsize : c.slotsPerWorker cores ≤ 0x100000000) : m.Vacant serve (c.slotsPerWorker cores) := by
  have hfresh := h.fresh
  obtain ⟨⟨id, k, -, hbuild⟩, -⟩ := h
  have hlength : m.worker.slots.length = c.slotsPerWorker cores := (Worker.laidOut_of_build hbuild).1.1
  refine ⟨.start ⟨hfresh, hlength ▸ hsize⟩, hlength, hsize, fun i hi => ?_, (Worker.untouched_of_build hbuild).2.1,
    hfresh.new.exited⟩
  rw [hfresh.new.free, hlength]
  exact List.mem_map.2 ⟨i, List.mem_range.2 hi, Nat.mod_eq_of_lt (Nat.lt_of_lt_of_le hi hsize)⟩

/-- Rotation and slots fit together: the connections of the backlog, dealt in turn, all find a slot. -/
structure Config.Deals (serve : Run.Serve α) (c : Config) (cores : Nat) : Prop where
  workers : 1 ≤ c.effectiveWorkers cores ∧ c.effectiveWorkers cores ≤ c.backlog
  slots : c.backlog ≤ c.effectiveWorkers cores * c.slotsPerWorker cores ∧
    c.effectiveWorkers cores * c.slotsPerWorker cores < c.backlog + c.effectiveWorkers cores
  /-- Wherever the rotation stands, the shares of the workers are the same up to one. -/
  shares : ∀ r : Rotation, r.size = c.effectiveWorkers cores → r.next < r.size → ∀ count w, w < r.size →
    (r.picks count).1.count w = count / r.size ∨ (r.picks count).1.count w = (count + r.size - 1) / r.size
  /-- Where a worker has at most `2 ^ 32` slots, none of the connections of the backlog is refused. -/
  seated : ∀ (d₀ d : Distributor α) answers,
    d₀.Vacant serve (c.effectiveWorkers cores) (c.slotsPerWorker cores) → Distributor.Dealt serve d₀ answers d →
    answers.length ≤ c.backlog → ∀ answer ∈ answers, ∃ i, answer = some (.ok (.ok i))
  /-- Within the same bound, the next one of them is bound to a slot of the worker whose turn it is. -/
  takes : ∀ (d₀ d : Distributor α) answers peer,
    d₀.Vacant serve (c.effectiveWorkers cores) (c.slotsPerWorker cores) → Distributor.Dealt serve d₀ answers d →
    answers.length < c.backlog →
    d.rotation.next = (d₀.rotation.next + answers.length) % c.effectiveWorkers cores ∧ ∃ i d', d.Takes peer i d'

/-- However many workers there are and wherever the rotation stands, no connection of the backlog is refused by workers
with at most `2 ^ 32` slots each (`Machine.Vacant.few`). -/
theorem Config.deals (hserve : Modest serve) {c : Config} (hbacklog : 1 ≤ c.backlog) (cores : Nat) :
    c.Deals serve cores where
  workers := ⟨c.effectiveWorkers_pos cores, c.effectiveWorkers_le hbacklog cores⟩
  slots := c.slotsPerWorker_spec cores
  shares _ _ hnext count _ hw := Rotation.count_picks_even hnext hw count
  seated _ _ _ hvacant hdealt hfew := (hdealt.dealing hserve hvacant hfew).2
  takes d₀ d answers peer hvacant hdealt hfew := by
    have hnext : d₀.rotation.next < d₀.rotation.size := hvacant.rotation ▸ hvacant.next
    have hdealing := (hdealt.dealing hserve hvacant (Nat.le_of_lt hfew)).1
    obtain ⟨i, d', htakes, -⟩ := hdealing.offer hserve hnext (fun _ => Config.share_le hvacant.rotation hnext hfew)
      peer
    refine ⟨?_, i, d', htakes⟩
    rw [hdealing.rotation, Rotation.snd_picks hnext, hvacant.rotation]

/-- Three connections are dealt to two workers with two slots each. -/
theorem Config.deals_three : ∃ (c : Config) (d₀ d : Distributor Application)
    (answers : List (Option (Except Fault (Except Error Nat)))),
    c = { backlog := 3, receiveLength := 1, sendLength := 1, workers := 2, useNagle := true } ∧
      d₀.Vacant Application.serve (c.effectiveWorkers 1) (c.slotsPerWorker 1) ∧
      Distributor.Dealt Application.serve d₀ answers d ∧ answers.length = c.backlog ∧
      c.Deals Application.serve 1 := by
  have hbuilt : (Machine.built? { backlog := 3, receiveLength := 1, sendLength := 1, workers := 2, useNagle := true } 1
      { service := .keep } : Option (Machine Application)).isSome = true := by decide +kernel
  obtain ⟨m, hm⟩ := Option.isSome_iff_exists.1 hbuilt
  have hvacant : m.Vacant Application.serve 2 := (Machine.freshFrom_of_built? hm).vacant (by decide)
  refine ⟨_, ⟨[m, m], .start 2, false⟩, _, _, rfl, ⟨rfl, rfl, Config.effectiveWorkers_pos _ 1, fun m' hm' => ?_⟩,
    .offer (.offer (.offer .start none) none) none, rfl, Config.deals Application.modest_serve (by decide) 1⟩
  have hsame : m' = m := by simpa using hm'
  exact hsame ▸ hvacant

/-! ## Servers -/

/-- The workers that a server starts were all just built. -/
theorem Server.freshFrom_of_startWorkers {c : Config} {cores n : Nat} {handler : Handler} {memory : Memory}
    {crew crew' : List (Machine Application)} {answer : Unit}
    (hstart : startWorkers c cores handler n memory crew = (.ok (.ok answer), crew'))
    (hcrew : ∀ m ∈ crew, m.FreshFrom c cores) :
    crew'.length = crew.length + n ∧ ∀ m ∈ crew', m.FreshFrom c cores := by
  induction n generalizing memory crew with
  | zero =>
    cases hstart
    exact ⟨rfl, hcrew⟩
  | succ n ih =>
    unfold startWorkers at hstart
    split at hstart
    · cases hstart
    · cases hstart
    · rename_i s hs
      obtain ⟨hlength, hall⟩ := ih hstart fun m hm => by
        rcases List.mem_append.1 hm with hbefore | hlast
        · exact hcrew m hbefore
        · obtain rfl := List.mem_singleton.1 hlast
          exact ⟨Worker.built_of_start hs, rfl⟩
      refine ⟨?_, hall⟩
      rw [hlength, List.length_append, List.length_singleton]
      omega

/-- A server that has started has its workers vacant, the first one to be dealt to first. -/
theorem Server.vacant_of_start {c : Config} {cores : Nat} {handler : Handler} {ns : Net.Namespace} {memory : Memory}
    {s : Server} (hstart : (Server.start c cores handler ns memory).outcome = .ok (.ok s))
    (hsize : c.slotsPerWorker cores ≤ 0x100000000) :
    s.distributor.Vacant Application.serve (c.effectiveWorkers cores) (c.slotsPerWorker cores) := by
  unfold start at hstart
  split at hstart
  · cases hstart
  split at hstart
  · cases hstart
  unfold startBehind at hstart
  dsimp only at hstart
  split at hstart
  · cases hstart
  · cases hstart
  rename_i crew hcrew
  obtain ⟨hlength, hall⟩ := freshFrom_of_startWorkers hcrew fun _ hm => absurd hm List.not_mem_nil
  split at hstart
  · cases hstart
  rename_i d hd
  cases hstart
  unfold Distributor.start at hd
  split at hd <;> cases hd
  have hpos := c.effectiveWorkers_pos cores
  have hcount : crew.length = c.effectiveWorkers cores := hlength.trans (Nat.zero_add _)
  refine ⟨hcount, ?_, hpos, fun m hm => (hall m hm).vacant hsize⟩
  show max crew.length 1 = _
  rw [hcount]
  exact Nat.max_eq_left hpos

end SlotServer
