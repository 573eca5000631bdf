import SlotServer.Proofs.Deeds

/-!
# From one slot to all of them

A worker's programs go over many slots: a turn takes completions and commands of any slots, and the end of the loop
forces each of them free. What every slot keeps, the whole machine keeps.

- `Holds`: a program comes to an answer and a machine, or to a fault, that are allowed;
- `Machine.All`: something holds of every view;
- `Machine.Balks`: a turn is to begin a drain whose end no clock can tell, and `Run.turn_balks`: it is at fault then,
  with nothing changed;
- `Ebb`: what slots are like while the worker is torn down and after it, and that the programs of one slot keep it. From
  that, `Ebb.finish` keeps it for all slots;
- `Regime`: what they are like between operations and within a turn as well. `Regime.assign`, `Regime.deeds` and
  `Regime.turn` keep that;
- `Move`: what a worker is made to do.
-/

namespace SlotServer

variable {α β γ : Type}

/-- From a machine, the program comes to an answer and a machine that `Q` allows, or to a fault that `F` allows. -/
def Holds (F : Fault → Prop) (x : Run α β) (m : Machine α) (Q : β → Machine α → Prop) : Prop :=
  match x m with
  | .ok b m' => Q b m'
  | .error fault _ => F fault

/-- Something holds of the view of every slot. -/
def Machine.All (P : Nat → View → Prop) (pending : List Completion) (m : Machine α) : Prop :=
  ∀ i, P i (m.view pending i)

namespace Holds

variable {F : Fault → Prop} {m : Machine α} {Q : β → Machine α → Prop}

theorem pure {b : β} (h : Q b m) : Holds F (Pure.pure b : Run α β) m Q := h

theorem bind {x : Run α β} {k : β → Run α γ} {Q : γ → Machine α → Prop}
    (h : Holds F x m fun b m' => Holds F (k b) m' Q) : Holds F (x >>= k) m Q := by
  unfold Holds at h
  show match EStateM.bind x k m with | .ok b m' => _ | .error _ _ => _
  unfold EStateM.bind
  cases hm : x m with
  | ok b m' =>
    rw [hm] at h
    exact h
  | error fault m' =>
    rw [hm] at h
    exact h

theorem mono {x : Run α β} {Q' : β → Machine α → Prop} (h : Holds F x m Q') (hq : ∀ b m', Q' b m' → Q b m') :
    Holds F x m Q := by
  unfold Holds at h ⊢
  cases hm : x m with
  | ok b m' =>
    rw [hm] at h
    exact hq b m' h
  | error fault m' =>
    rw [hm] at h
    exact h

/-- More faults are allowed. -/
theorem widen {F' : Fault → Prop} {x : Run α β} (h : Holds F x m Q) (hf : ∀ fault, F fault → F' fault) :
    Holds F' x m Q := by
  unfold Holds at h ⊢
  cases hm : x m with
  | ok b m' =>
    rw [hm] at h
    exact h
  | error fault m' =>
    rw [hm] at h
    exact hf fault h

/-- A program that goes on as another one. -/
theorem goesOn {x y : Run α β} {m₁ : Machine α} (hrun : x m = y m₁) (h : Holds F y m₁ Q) : Holds F x m Q := by
  unfold Holds
  rw [hrun]
  exact h

/-- What two judgments say of a program, it does. The faults are those of the first. -/
theorem and {F' : Fault → Prop} {x : Run α β} {Q' : β → Machine α → Prop} (h : Holds F x m Q) (h' : Holds F' x m Q') :
    Holds F x m fun b m' => Q b m' ∧ Q' b m' := by
  unfold Holds at h h' ⊢
  cases hm : x m with
  | ok b m' =>
    rw [hm] at h h'
    exact ⟨h, h'⟩
  | error fault m' =>
    rw [hm] at h
    exact h

/-- A program that is never at fault comes to an answer. -/
theorem comes {x : Run α β} (h : Holds (fun _ => False) x m Q) : ∃ b m', x m = .ok b m' ∧ Q b m' := by
  unfold Holds at h
  cases hm : x m with
  | ok b m' =>
    rw [hm] at h
    exact ⟨b, m', rfl, h⟩
  | error fault m' =>
    rw [hm] at h
    exact absurd h id

/-- A program with one fault, of which `p` tells, comes to an answer where `p` does not hold. -/
theorem comesUnless {p : Prop} {fault : Fault} {x : Run α β} (h : Holds (fun f => False ∨ f = fault ∧ p) x m Q)
    (hp : ¬ p) : ∃ b m', x m = .ok b m' ∧ Q b m' :=
  (h.widen fun _ hfault => hfault.elim id fun hone => hp hone.2).comes

/-- A time that no clock can tell is a fault of a kind that is allowed. -/
theorem orLate {p : Prop} {x : Run α β} (h : Holds (fun f => F f ∨ f = .timeOverflow ∧ p) x m Q)
    (hlate : F .timeOverflow) : Holds F x m Q :=
  h.widen fun _ hfault => hfault.elim id fun hone => hone.1 ▸ hlate

/-- The answer and the machine that the program came to are allowed. -/
theorem of_ok {x : Run α β} {b : β} {m' : Machine α} (h : Holds F x m Q) (hrun : x m = .ok b m') : Q b m' := by
  unfold Holds at h
  rwa [hrun] at h

/-- The fault that the program came to is allowed. -/
theorem of_error {x : Run α β} {fault : Fault} {m' : Machine α} (h : Holds F x m Q) (hrun : x m = .error fault m') :
    F fault := by
  unfold Holds at h
  rwa [hrun] at h

/-- A program that is known by what it does. -/
theorem of_eq {x : Run α β} {b : β} {m' : Machine α} (hrun : x m = .ok b m') (h : Q b m') : Holds F x m Q := by
  unfold Holds
  rw [hrun]
  exact h

/-- A program that leaves every view as it is. -/
theorem still {x : Run α β} (hx : Still x)
    (h : ∀ b m', (∀ pending j, m'.view pending j = m.view pending j) → Q b m') : Holds F x m Q := by
  obtain ⟨b, m', hrun, hview⟩ := hx m
  exact of_eq hrun (h b m' hview)

theorem worker {Q : Worker → Machine α → Prop} (h : Q m.worker m) : Holds F (Run.worker : Run α Worker) m Q := h

theorem get {Q : Machine α → Machine α → Prop} (h : Q m m) : Holds F (MonadState.get : Run α (Machine α)) m Q := h

/-- A program that works on one slot. -/
theorem lead {R : Rely} {i : Nat} {x : Run α β} (pending : List Completion) {Q' : β → View → Prop}
    (hx : Leads R i x (m.view pending i) Q') (hothers : ∀ j, j ≠ i → R.others j (m.view pending j))
    (h : ∀ b m', Q' b (m'.view pending i) → (∀ j, j ≠ i → m'.view pending j = m.view pending j) → Q b m') :
    Holds R.faults x m Q := by
  have hrun := hx m pending hothers rfl
  unfold Holds
  cases hm : x m with
  | ok b m' =>
    rw [hm] at hrun
    exact h b m' hrun.1 hrun.2
  | error fault m' =>
    rw [hm] at hrun
    exact hrun

/-- Taking the first free slot. -/
theorem acquire {Q : Option Nat → Machine α → Prop} (hnone : Q none m)
    (hsome : ∀ i free, m.worker.free = i :: free → Q (some i) { m with worker := { m.worker with free } }) :
    Holds F (Run.acquire : Run α (Option Nat)) m Q := by
  refine bind (worker ?_)
  split
  · exact hnone
  · cases hfree : m.worker.free with
    | nil => exact hnone
    | cons i free => exact hsome i free hfree

/-- Taking the first command out of the inbox. -/
theorem pop {Q : Option Command → Machine α → Prop} (hnone : m.worker.inbox = [] → Q none m)
    (hsome : ∀ c inbox, m.worker.inbox = c :: inbox → Q (some c) { m with worker := { m.worker with inbox } }) :
    Holds F (Run.popCommand : Run α (Option Command)) m Q := by
  refine bind (worker ?_)
  cases hinbox : m.worker.inbox with
  | nil => exact hnone hinbox
  | cons c inbox => exact hsome c inbox hinbox

/-- What every round keeps, a loop over a list keeps. -/
theorem forM {γ : Type} {f : γ → Run α PUnit} {I : List γ → Machine α → Prop}
    (hstep : ∀ c rest m, I (c :: rest) m → Holds F (f c) m fun _ m' => I rest m') {l : List γ} (h : I l m) :
    Holds F (l.forM f) m fun _ m' => I [] m' := by
  induction l generalizing m with
  | nil => exact pure h
  | cons c rest ih => exact bind ((hstep c rest m h).mono fun _ _ h' => ih h')

end Holds

namespace Machine

variable {P : Nat → View → Prop} {pending pending' : List Completion} {m m' : Machine α}

theorem All.congr (h : m.All P pending) (hview : ∀ j, m'.view pending' j = m.view pending j) : m'.All P pending' :=
  fun i => by rw [hview]; exact h i

/-- A completion that is at hand is the first one of its slot. -/
theorem view_cons (m : Machine α) (c : Completion) (pending : List Completion) (j : Nat) :
    m.view (c :: pending) j =
      if c.ctx.slot = j then { m.view pending j with answers := c :: (m.view pending j).answers }
      else m.view pending j := by
  simp only [view, List.cons_append, List.filter_cons]
  by_cases h : c.ctx.slot = j <;> simp [h]

/-- The completions that were taken out are ready as before, until they are routed. -/
theorem view_harvest (m : Machine α) (most : Nat) (j : Nat) :
    ({ m with kernel := (m.kernel.harvest most).2 } : Machine α).view (m.kernel.harvest most).1 j = m.view [] j := by
  have hready : (m.kernel.harvest most).1 ++ (m.kernel.harvest most).2.ready = m.kernel.ready :=
    List.take_append_drop most m.kernel.ready
  simp only [view, history, hready, List.nil_append]

/-- Without the first command of the inbox, its slot lacks its first command, and the others show what they showed. -/
theorem view_popped (pending : List Completion) {c : Command} {inbox : List Command} (h : m.worker.inbox = c :: inbox) :
    ∃ rest, (m.view pending c.slot).commands = c :: rest ∧
      ({ m with worker := { m.worker with inbox } } : Machine α).view pending c.slot =
        { m.view pending c.slot with commands := rest } ∧
      ∀ j, j ≠ c.slot →
        ({ m with worker := { m.worker with inbox } } : Machine α).view pending j = m.view pending j := by
  refine ⟨inbox.filter (·.slot = c.slot), ?_, ?_, fun j hj => ?_⟩
  · simp [view, h]
  · simp [view, history]
  · simp [view, history, h, hj.symm]

/-- Without the first of the free slots, that slot lacks a place, and the others show what they showed. -/
theorem view_taken (pending : List Completion) {i : Nat} {free : List Nat} (h : m.worker.free = i :: free) :
    0 < (m.view pending i).places ∧
      ({ m with worker := { m.worker with free } } : Machine α).view pending i =
        { m.view pending i with places := (m.view pending i).places - 1 } ∧
      ∀ j, j ≠ i → ({ m with worker := { m.worker with free } } : Machine α).view pending j = m.view pending j := by
  refine ⟨List.count_pos_iff.2 (h ▸ List.mem_cons_self ..), ?_, fun j hj => ?_⟩
  · rw [Machine.view_free]
    show ({ m.view pending i with places := free.count i } : View) =
      { m.view pending i with places := m.worker.free.count i - 1 }
    rw [h, List.count_cons_self, Nat.add_sub_cancel]
  · rw [Machine.view_free]
    show ({ m.view pending j with places := free.count j } : View) =
      { m.view pending j with places := m.worker.free.count j }
    rw [h, List.count_cons_of_ne hj.symm]

/-- Where all slots but one have the same commands, the inboxes have the same commands but for that slot's. -/
theorem perm_inbox (m m' : Machine α) (pending : List Completion) (i : Nat)
    (h : ∀ j, j ≠ i → (m'.view pending j).commands = (m.view pending j).commands) :
    (m'.worker.inbox ++ (m.view pending i).commands).Perm (m.worker.inbox ++ (m'.view pending i).commands) := by
  have hcount : ∀ (m : Machine α) (c : Command), (m.view pending c.slot).commands.count c = m.worker.inbox.count c :=
    fun m c => List.count_filter (p := fun d : Command => decide (d.slot = c.slot)) (a := c) (decide_eq_true rfl)
  refine List.perm_iff_count.2 fun c => ?_
  rw [List.count_append, List.count_append]
  by_cases hc : c.slot = i
  · subst hc
    rw [hcount, hcount, Nat.add_comm]
  · have hnone : ∀ m : Machine α, (m.view pending i).commands.count c = 0 := fun m =>
      List.count_eq_zero.2 fun hmem => hc (of_decide_eq_true (List.mem_filter.1 hmem).2)
    rw [hnone, hnone, ← hcount, h c.slot hc, hcount]

end Machine

/-! ## The start of a drain -/

namespace Machine

/-- The machine once its loop has begun to drain. -/
abbrev drain (m : Machine α) : Machine α :=
  { m with worker := { m.worker with deadline := some (m.kernel.now + m.worker.grace) } }

/-- No clock can tell the end of a drain that begins now. -/
def Overlong (m : Machine α) : Prop := timeCount ≤ m.kernel.now + m.worker.grace

/-- The next turn is to begin a drain whose end no clock can tell. -/
def Balks (m : Machine α) : Prop := m.worker.isToDrain = true ∧ m.Overlong

instance (m : Machine α) : Decidable m.Overlong := inferInstanceAs (Decidable (_ ≤ _))

instance (m : Machine α) : Decidable m.Balks := inferInstanceAs (Decidable (_ ∧ _))

end Machine

namespace Run

variable {m : Machine α}

/-- A drain whose end no clock can tell does not begin. -/
theorem beginDrain_overlong (h : m.Overlong) : beginDrain m = .error .timeOverflow m := by
  have htime : checkedTime m.kernel.now m.worker.grace = .error .timeOverflow := if_neg (Nat.not_lt.2 h)
  have hget : (get : Run α (Machine α)) m = .ok m m := rfl
  refine (bind_run hget).trans (bind_error ?_)
  rw [htime]
  rfl

theorem beginDrain_run (h : ¬ m.Overlong) : beginDrain m = drainSlots m.drain := by
  have htime : checkedTime m.kernel.now m.worker.grace = .ok (m.kernel.now + m.worker.grace) :=
    if_pos (Nat.lt_of_not_le h)
  have hget : (get : Run α (Machine α)) m = .ok m m := rfl
  refine (bind_run hget).trans ?_
  rw [htime]
  rfl

/-- A drain that has begun can end. -/
theorem not_overlong_of_beginDrain {b : Unit} {m' : Machine α} (hrun : beginDrain m = .ok b m') : ¬ m.Overlong :=
  fun hlong => by
    rw [beginDrain_overlong hlong] at hrun
    cases hrun

/-- A turn that is to begin a drain whose end no clock can tell is at fault, and changes nothing. -/
theorem turn_balks (serve : Serve α) (block : Bool) (h : m.Balks) : turn serve block m = .error .timeOverflow m := by
  have hworker : (worker : Run α Worker) m = .ok m.worker m := rfl
  refine (bind_run hworker).trans ?_
  dsimp only
  rw [if_pos h.1]
  exact bind_error (beginDrain_overlong h.2)

end Run

/-- A drain begins with every slot being stopped, if its end can be told. What stopping a slot keeps, it keeps. -/
theorem Holds.beginDrain {F : Fault → Prop} {P : Nat → View → Prop} {m : Machine α}
    (hstop : ∀ i (m : Machine α), m.All P [] → Holds F (Run.drainSlot i : Run α Unit) m fun _ m' => m'.All P [])
    (h : m.All P []) :
    Holds (fun fault => F fault ∨ fault = .timeOverflow ∧ m.Overlong) (Run.beginDrain : Run α Unit) m fun _ m' =>
      m'.All P [] := by
  by_cases hlong : m.Overlong
  · unfold Holds
    rw [Run.beginDrain_overlong hlong]
    exact .inr ⟨rfl, hlong⟩
  · have hslots : Holds F (Run.drainSlots : Run α Unit) m.drain fun _ m' => m'.All P [] := by
      refine bind (still (.bind .get fun _ => .pure _) fun count m₁ hview₁ => ?_)
      refine bind (still .say fun _ m₂ hview₂ => bind (worker ?_))
      have hview : ∀ j, m₂.view [] j = m.view [] j := fun j => (hview₂ [] j).trans (hview₁ [] j)
      exact forM (I := fun _ m' => m'.All P []) (fun i _ m₃ h₃ => hstop i m₃ h₃) (h.congr hview)
    exact (goesOn (Run.beginDrain_run hlong) hslots).widen fun _ => .inl

/-! ## What slots are like -/

/-- The other slots are at rest, and the loop has come to its end for them if it has for the slot in view. -/
abbrev Rely.beside (rest : Nat → View → Prop) (faults : Fault → Prop) (v : View) : Rely where
  others j v' := rest j v' ∧ v'.exited = v.exited
  faults := faults

/-- What slots are like while the worker is torn down (`ebb`) and after it (`rest`), and that the programs of one slot
keep it. -/
structure Ebb (α : Type) where
  rest : Nat → View → Prop
  ebb : Nat → View → Prop
  /-- The faults that a program may end with. -/
  faults : Fault → Prop
  failCommand : ∀ {i v c rest}, ebb i v → v.exited = true → v.commands = c :: rest → c.slot = i →
    Leads ⟨ebb, faults⟩ i (Run.failCommand c : Run α Unit) { v with commands := rest } fun _ v' =>
      ebb i v' ∧ v'.commands = rest
  forceSlot : ∀ {i v}, ebb i v → v.exited = true → v.commands = [] → v.slot?.isSome →
    Leads ⟨fun j v' => rest j v' ∨ ∃ w, ebb j w ∧ v' = w.log .released, faults⟩ i (Run.forceSlot i : Run α Bool)
      (v.log .released) fun _ v' => rest i v'
  absent : ∀ {i v}, ebb i v → v.exited = true → v.commands = [] → v.slot? = none → rest i (v.log .released)

/-- What slots are like between operations (`rest`), within a turn (`busy`) and while the worker is torn down (`ebb`),
and that the programs of one slot keep it. -/
structure Regime (serve : Run.Serve α) extends Ebb α where
  busy : Nat → View → Prop
  startAccept : ∀ {i v fd peer}, rest i v → 0 < v.places → 0 ≤ fd →
    Leads (.beside rest faults v) i (Run.startAccept i fd peer : Run α (Except Error Unit))
      { v with places := v.places - 1 } fun _ v' => rest i v'
  deed : ∀ {i v} (d : Deed), rest i v → 0 < v.handles →
    Leads (.beside rest faults v) i (d.run i : Run α Unit) v fun _ v' => rest i v'
  drainSlot : ∀ {i v}, rest i v → v.exited = false →
    Leads (.beside rest faults v) i (Run.drainSlot i : Run α Unit) v fun _ v' => rest i v'
  work : ∀ {i v}, rest i v → v.exited = false → busy i v
  route : ∀ {i v c rest}, busy i v → v.exited = false → v.answers = c :: rest → c.ctx.slot = i →
    Leads ⟨busy, faults⟩ i (Run.route c : Run α Unit) { v with answers := rest } fun _ v' => busy i v'
  drainInbox : ∀ {m : Machine α}, m.All busy [] → m.worker.exited = false →
    Holds faults (Run.drainInbox serve) m fun _ m' => m'.All rest []
  exit : ∀ {i v}, rest i v → v.exited = false → ebb i { v with exited := true }

namespace Machine

/-- The machine once its loop has come to its end. -/
abbrev exit (m : Machine α) : Machine α := { m with worker := { m.worker with exited := true } }

end Machine

/-! ## The end of the loop -/

namespace Ebb

variable (E : Ebb α) {m : Machine α}

/-- Every command that is left is failed. -/
theorem failUpTo {n : Nat} (h : m.All E.ebb []) (hexited : m.worker.exited = true) (hn : m.worker.inbox.length = n) :
    Holds E.faults (Run.failUpTo n : Run α Unit) m fun _ m' =>
      m'.All E.ebb [] ∧ m'.worker.exited = true ∧ m'.worker.inbox = [] := by
  -- a command that is failed adds none, so `n` is always how many are left
  induction n generalizing m with
  | zero => exact Holds.pure ⟨h, hexited, List.eq_nil_of_length_eq_zero hn⟩
  | succ n ih =>
    refine Holds.bind (Holds.pop (fun hnil => by rw [hnil] at hn; cases hn) fun c inbox hinbox => Holds.bind ?_)
    obtain ⟨rest, hcommands, hslot, hframe⟩ := Machine.view_popped [] hinbox
    refine Holds.lead [] (hslot ▸ E.failCommand (h c.slot) hexited hcommands rfl)
      (fun j hj => by rw [hframe j hj]; exact h j) fun _ m' ⟨hi, hleft⟩ hframe' => ih (fun j => ?_) ?_ ?_
    · by_cases hj : j = c.slot
      · rw [hj]
        exact hi
      · rw [hframe' j hj, hframe j hj]
        exact h j
    · exact (congrArg View.exited (hframe' _ (Nat.succ_ne_self _))).trans hexited
    · have hperm := Machine.perm_inbox { m with worker := { m.worker with inbox } } m' [] c.slot
        fun j hj => by rw [hframe' j hj]
      have hlength := hperm.length_eq
      rw [hslot, List.length_append, List.length_append, hleft] at hlength
      rw [hinbox] at hn
      exact (Nat.add_right_cancel hlength).trans (Nat.succ.inj hn)

theorem still_deregister : Still (Run.deregister : Run α (Except Error Unit)) := by
  refine .bind .worker fun w => ?_
  split
  · exact .pure _
  · refine .bind (fun m => ⟨(), _, rfl, fun _ _ => rfl⟩) fun _ => .bind (.record_aside fun _ => rfl) fun _ => ?_
    exact .kernel fun _ => rfl

/-- The slots of a list are forced free, while the others are at rest. -/
theorem forceAll {l : List Nat} (hnodup : l.Nodup)
    (hwaits : ∀ j ∈ l, ∃ v, E.ebb j v ∧ v.exited = true ∧ v.commands = [] ∧ v.slot?.isSome ∧
      m.view [] j = v.log .released)
    (hrest : ∀ j, j ∉ l → E.rest j (m.view [] j)) :
    Holds E.faults (Run.forceAll l : Run α Nat) m fun _ m' => m'.All E.rest [] := by
  -- the slots of the list still wait, and those before it are free already
  induction l generalizing m with
  | nil => exact Holds.pure fun j => hrest j List.not_mem_nil
  | cons i l ih =>
    obtain ⟨hi, hnodup⟩ := List.nodup_cons.1 hnodup
    obtain ⟨v, hebb, hexited, hcommands, hsome, hview⟩ := hwaits i (List.mem_cons_self ..)
    refine Holds.bind (Holds.lead [] (hview ▸ E.forceSlot hebb hexited hcommands hsome)
      (fun j hj => ?_) fun _ m' hfree hframe => ?_)
    · by_cases hjl : j ∈ l
      · obtain ⟨w, hw, -, -, -, hviewj⟩ := hwaits j (List.mem_cons_of_mem _ hjl)
        exact .inr ⟨w, hw, hviewj⟩
      · exact .inl (hrest j fun hm => (List.mem_cons.1 hm).elim hj hjl)
    · refine Holds.bind ((ih hnodup (fun j hj => ?_) fun j hj => ?_).mono fun _ _ h => Holds.pure h)
      · obtain ⟨w, hw⟩ := hwaits j (List.mem_cons_of_mem _ hj)
        exact ⟨w, by rw [hframe j fun he => hi (he ▸ hj)]; exact hw⟩
      · by_cases he : j = i
        · rw [he]
          exact hfree
        · rw [hframe j he]
          exact hrest j fun hm => (List.mem_cons.1 hm).elim he hj

/-- The worker is torn down. -/
theorem finish (hebb : m.exit.All E.ebb []) :
    Holds E.faults (Run.finish : Run α Unit) m fun _ m' => m'.All E.rest [] := by
  refine Holds.bind (Holds.of_eq rfl (Holds.bind (Holds.bind (Holds.worker ?_))))
  refine (E.failUpTo hebb rfl rfl).mono fun _ m₁ ⟨h₁, he₁, hinbox⟩ => ?_
  refine Holds.bind (Holds.still still_deregister fun answer m₂ hview₂ => ?_)
  -- what follows once the kernel's side is let go
  have hforce : ∀ m₃ : Machine α, (∀ j, m₃.view [] j = m₁.view [] j) → Holds E.faults (do
      Run.record .released
      let forced ← Run.forceAll (List.range (← Run.worker).slots.length)
      let counted := (← Run.worker).counters.text
      Run.say .info s!"stopped ({forced} connections force-closed) {counted}" : Run α Unit) m₃
        fun _ m' => m'.All E.rest [] := by
    intro m₃ hview₃
    have hreleased : ∀ j, ({ m₃ with trace := .released :: m₃.trace } : Machine α).view [] j =
        (m₁.view [] j).log .released := fun j => by rw [m₃.view_record, ← hview₃]; rfl
    have hcommands : ∀ j, (m₁.view [] j).commands = [] := fun j => by
      show m₁.worker.inbox.filter _ = []
      rw [hinbox]
      rfl
    have hslot : ∀ j, (m₁.view [] j).slot? = m₃.worker.slots[j]? := fun j => (congrArg View.slot? (hview₃ j)).symm
    refine Holds.bind (Holds.of_eq rfl (Holds.bind (Holds.worker (Holds.bind ?_))))
    refine (E.forceAll List.nodup_range (fun j hj => ?_) fun j hj => ?_).mono fun _ m₄ h₄ => ?_
    · refine ⟨m₁.view [] j, h₁ j, he₁, hcommands j, ?_, hreleased j⟩
      rw [hslot, List.getElem?_eq_getElem (List.mem_range.1 hj)]
      rfl
    · rw [hreleased]
      refine E.absent (h₁ j) he₁ (hcommands j) ?_
      rw [hslot, List.getElem?_eq_none (Nat.le_of_not_lt fun hlt => hj (List.mem_range.2 hlt))]
    · exact Holds.bind (Holds.worker (Holds.still .say fun _ _ hview => h₄.congr (hview [])))
  cases answer with
  | ok _ => exact hforce m₂ (hview₂ [])
  | error e =>
    exact Holds.bind (Holds.still .say fun _ m₃ hview₃ => hforce m₃ fun j => by rw [hview₃, hview₂])

end Ebb

namespace Regime

variable {serve : Run.Serve α} (G : Regime serve) {m : Machine α}

/-! ## Acceptors and handles -/

/-- A handle's call. -/
theorem deeds {i : Nat} (d : Deed) (h : m.All G.rest []) (hheld : i ∈ m.held) :
    Holds G.faults (d.run i : Run α Unit) m fun _ m' => m'.All G.rest [] := by
  refine Holds.lead [] (G.deed d (h i) (List.count_pos_iff.2 hheld)) (fun j _ => ⟨h j, rfl⟩) fun _ m' hi hframe j => ?_
  by_cases hj : j = i
  · rw [hj]
    exact hi
  · rw [hframe j hj]
    exact h j

theorem requestStop (h : m.All G.rest []) :
    Holds G.faults (Run.requestStop : Run α Unit) m fun _ m' => m'.All G.rest [] := by
  refine Holds.still (.bind (fun m => ⟨(), _, rfl, fun _ _ => rfl⟩) fun _ => .bind .ring fun answer => ?_)
    fun _ m' hview => h.congr (hview [])
  cases answer with
  | ok _ => exact .pure ()
  | error e => exact .say

/-- Closing the descriptor of no slot. -/
theorem still_closeNow (fd : Int) : Still (Run.closeNow none fd : Run α Unit) := by
  unfold Run.closeNow
  split
  · exact .bind (.record_aside fun _ => rfl) fun _ => .modifyKernel fun _ => rfl
  · exact .pure ()

/-- A socket is offered. -/
theorem assign {fd : Int} (hfd : 0 ≤ fd) (peer : Option Net.SocketAddress) (h : m.All G.rest []) :
    Holds G.faults (Run.assign fd peer : Run α (Except Error Nat)) m fun _ m' => m'.All G.rest [] := by
  have hrefuse : Holds G.faults (do
      Run.bump .rejected 1
      Run.closeNow none fd
      return .error .noFreeSlot : Run α (Except Error Nat)) m fun _ m' => m'.All G.rest [] :=
    Holds.still (.bind .bump fun _ => .bind (still_closeNow fd) fun _ => .pure _) fun _ _ hview => h.congr (hview [])
  have hbind : ∀ m₁ : Machine α, ∀ i, m₁.All G.rest [] → Holds G.faults (do
      Run.closeNow none fd
      Run.bump .errors 1
      return .error i : Run α (Except Error Nat)) m₁ fun _ m' => m'.All G.rest [] := fun m₁ i h₁ =>
    Holds.still (.bind (still_closeNow fd) fun _ => .bind .bump fun _ => .pure _) fun _ _ hview => h₁.congr (hview [])
  refine Holds.bind (Holds.acquire hrefuse fun i free hfree => Holds.bind ?_)
  obtain ⟨hplaces, hself, hframe⟩ := Machine.view_taken [] hfree
  refine Holds.lead (R := ⟨fun j v' => G.rest j v' ∧ v'.exited = (m.view [] i).exited, G.faults⟩) []
    (by rw [hself]; exact G.startAccept (h i) hplaces hfd) (fun j hj => by rw [hframe j hj]; exact ⟨h j, rfl⟩)
    fun answer m' hi hframe' => ?_
  have hall : m'.All G.rest [] := fun j => by
    by_cases hj : j = i
    · rw [hj]
      exact hi
    · rw [hframe' j hj, hframe j hj]
      exact h j
  cases answer with
  | error e => exact hbind m' e hall
  | ok _ => exact Holds.pure hall

/-! ## Turns -/

/-- A slot is stopped for the drain. -/
theorem stopSlot (i : Nat) (h : m.All G.rest []) (hexited : m.worker.exited = false) :
    Holds G.faults (Run.drainSlot i : Run α Unit) m fun _ m' => m'.All G.rest [] ∧ m'.worker.exited = false := by
  refine Holds.lead [] (G.drainSlot (h i) hexited) (fun j _ => ⟨h j, rfl⟩) fun _ m' hi hframe => ⟨fun j => ?_, ?_⟩
  · by_cases hj : j = i
    · rw [hj]
      exact hi
    · rw [hframe j hj]
      exact h j
  · exact (congrArg View.exited (hframe (i + 1) (Nat.succ_ne_self i))).trans hexited

/-- The first turn after a request to stop. -/
theorem beginDrain (h : m.All G.rest []) (hexited : m.worker.exited = false) :
    Holds (fun fault => G.faults fault ∨ fault = .timeOverflow ∧ m.Overlong) (Run.beginDrain : Run α Unit) m
      fun _ m' => m'.All G.rest [] ∧ m'.worker.exited = false := by
  refine (Holds.beginDrain (P := fun i v => G.rest i v ∧ v.exited = false) (fun i m₁ h₁ => ?_)
    fun j => ⟨h j, hexited⟩).mono fun _ m' h' => ⟨fun j => (h' j).1, (h' 0).2⟩
  exact (G.stopSlot i (fun j => (h₁ j).1) (h₁ 0).2).mono fun _ m₂ ⟨h₂, he₂⟩ j => ⟨h₂ j, he₂⟩

/-- A completion that was taken out is taken to its slot. -/
theorem routed {c : Completion} {pending : List Completion} (h : m.All G.busy (c :: pending))
    (hexited : m.worker.exited = false) :
    Holds G.faults (Run.route c : Run α Unit) m fun _ m' => m'.All G.busy pending ∧ m'.worker.exited = false := by
  have hslot := m.view_cons c pending c.ctx.slot
  rw [if_pos rfl] at hslot
  have hframe : ∀ j, j ≠ c.ctx.slot → m.view (c :: pending) j = m.view pending j := fun j hj => by
    rw [m.view_cons, if_neg hj.symm]
  have hlead := G.route (h c.ctx.slot) hexited (by rw [hslot]) rfl
  rw [hslot] at hlead
  refine Holds.lead pending hlead (fun j hj => by rw [← hframe j hj]; exact h j)
    fun _ m' hi hframe' => ⟨fun j => ?_, ?_⟩
  · by_cases hj : j = c.ctx.slot
    · rw [hj]
      exact hi
    · rw [hframe' j hj, ← hframe j hj]
      exact h j
  · exact (congrArg View.exited (hframe' _ (Nat.succ_ne_self _))).trans hexited

/-- A batch of completions is taken out and each is taken to its slot. -/
theorem batch (most : Nat) (h : m.All G.busy []) (hexited : m.worker.exited = false) :
    Holds G.faults (do (← Run.kernel (·.harvest most)).forM Run.route : Run α PUnit) m fun _ m' =>
      m'.All G.busy [] ∧ m'.worker.exited = false := by
  refine Holds.bind (Holds.of_eq rfl ?_)
  exact Holds.forM (I := fun pending m' => m'.All G.busy pending ∧ m'.worker.exited = false)
    (fun c pending m' ⟨h', he'⟩ => G.routed h' he') ⟨h.congr (m.view_harvest most), hexited⟩

theorem harvestUpTo (n : Nat) (h : m.All G.busy []) (hexited : m.worker.exited = false) :
    Holds G.faults (Run.harvestUpTo n : Run α Nat) m fun _ m' => m'.All G.busy [] ∧ m'.worker.exited = false := by
  induction n generalizing m with
  | zero => exact Holds.pure ⟨h, hexited⟩
  | succ n ih =>
    refine Holds.bind (Holds.worker (Holds.bind (Holds.still (.record_aside fun _ => rfl) fun _ m₁ hview => ?_)))
    have h₁ : m₁.All G.busy [] := h.congr (hview [])
    have he₁ : m₁.worker.exited = false := (congrArg View.exited (hview [] 0)).trans hexited
    refine Holds.bind (Holds.of_eq rfl (Holds.bind ?_))
    have hbatch := Holds.forM (F := G.faults) (I := fun pending m' => m'.All G.busy pending ∧ m'.worker.exited = false)
      (fun c pending m' ⟨h', he'⟩ => G.routed h' he') ⟨h₁.congr (m₁.view_harvest m.worker.batch), he₁⟩
    refine hbatch.mono fun _ m₂ ⟨h₂, he₂⟩ => ?_
    split
    · exact Holds.bind ((ih h₂ he₂).mono fun _ _ h' => Holds.pure h')
    · exact Holds.pure ⟨h₂, he₂⟩

/-- Everything in a turn but its completions and commands leaves every view as it is. -/
theorem still_drained : Still (Run.drained : Run α Bool) := by
  refine .bind .worker fun w => ?_
  split
  · exact .pure _
  · refine .bind (.bind .get fun _ => .pure _) fun count => .bind .worker fun w => ?_
    split
    · exact .pure _
    · refine .bind .get fun m => ?_
      split
      · exact .bind .say fun _ => .pure _
      · exact .pure _

theorem still_arm : Still (Run.arm : Run α Unit) := by
  refine .bind (.kernel fun k => ?_) fun answer => ?_
  · unfold Kernel.arm Kernel.ask
    dsimp only
    cases k.schedule .arm (k.asked .arm) <;> rfl
  · cases answer with
    | ok _ => exact .pure _
    | error e => exact .say

theorem still_submitQueue (block : Bool) : Still (Run.submitQueue block : Run α Unit) := by
  refine .bind .worker fun w => .bind .get fun m => ?_
  refine .bind (.record_aside fun _ => rfl) fun _ => .bind (.kernel fun _ => rfl) fun answer => ?_
  cases answer with
  | ok _ => exact .pure _
  | error e => exact .say

/-- One turn of the loop. -/
theorem turn (block : Bool) (h : m.All G.rest []) (hexited : m.worker.exited = false) :
    Holds (fun fault => G.faults fault ∨ fault = .timeOverflow ∧ m.Balks) (Run.turn serve block : Run α Bool) m
      fun _ m' => m'.All G.rest [] := by
  -- what a turn does after the drain has begun, if it has
  have hturn : ∀ m₁ : Machine α, m₁.All G.rest [] → m₁.worker.exited = false → Holds G.faults (do
      if ← Run.drained then return false
      Run.arm
      Run.submitQueue block
      let completed ← Run.harvest
      let commands ← Run.drainInbox serve
      if (← Run.worker).deadline.isSome && block && completed = 0 && commands = 0 then Run.rest
      return true : Run α Bool) m₁ fun _ m' => m'.All G.rest [] := by
    intro m₁ h₁ he₁
    refine Holds.bind (Holds.still still_drained fun done m₂ hview₂ => ?_)
    have h₂ : m₂.All G.rest [] := h₁.congr (hview₂ [])
    cases done with
    | true => exact Holds.pure h₂
    | false =>
      refine Holds.bind (Holds.still still_arm fun _ m₃ hview₃ => ?_)
      refine Holds.bind (Holds.still (still_submitQueue block) fun _ m₄ hview₄ => ?_)
      have hview : ∀ j, m₄.view [] j = m₁.view [] j := fun j => by rw [hview₄, hview₃, hview₂]
      have he₄ : m₄.worker.exited = false := (congrArg View.exited (hview 0)).trans he₁
      have h₄ : m₄.All G.busy [] := fun j => G.work (by rw [hview]; exact h₁ j) he₄
      refine Holds.bind (Holds.bind (Holds.get ((G.harvestUpTo _ h₄ he₄).mono fun _ m₅ ⟨h₅, he₅⟩ => ?_)))
      refine Holds.bind ((G.drainInbox h₅ he₅).mono fun _ m₆ h₆ => Holds.bind (Holds.worker ?_))
      split
      · exact Holds.still (.bind (.modifyKernel fun _ => rfl) fun _ => .pure _) fun _ _ hview => h₆.congr (hview [])
      · exact Holds.pure h₆
  refine Holds.bind (Holds.worker ?_)
  split
  · rename_i hdrain
    have hbegun : Holds (fun fault => G.faults fault ∨ fault = .timeOverflow ∧ m.Balks) (Run.beginDrain : Run α Unit) m
        fun _ m' => m'.All G.rest [] ∧ m'.worker.exited = false :=
      (G.beginDrain h hexited).widen fun _ hfault => hfault.imp_right fun ⟨hlate, hlong⟩ => ⟨hlate, hdrain, hlong⟩
    exact Holds.bind (hbegun.mono fun _ m₁ ⟨h₁, he₁⟩ => (hturn m₁ h₁ he₁).widen fun _ => .inl)
  · exact (hturn m h hexited).widen fun _ => .inl

/-- The worker is torn down. -/
theorem finish (h : m.All G.rest []) (hexited : m.worker.exited = false) :
    Holds G.faults (Run.finish : Run α Unit) m fun _ m' => m'.All G.rest [] :=
  G.toEbb.finish fun j => G.exit (h j) hexited

end Regime

/-! ## Moves -/

/-- What a worker is made to do. -/
inductive Move
  /-- A socket is offered. -/
  | assign (fd : Int) (peer : Option Net.SocketAddress)
  /-- A call of the handle of a slot's connection. -/
  | deed (i : Nat) (d : Deed)
  /-- The worker is asked to stop. -/
  | stop
  /-- One turn of the loop. -/
  | turn (block : Bool)
  /-- The worker is torn down. -/
  | finish
  /-- The start of a drain. -/
  | drain
  /-- The first completion is taken to its slot. -/
  | take
  /-- The first command of the inbox is carried out. -/
  | command

namespace Move

/-- The program of a move. -/
def run (serve : Run.Serve α) : Move → Run α Unit
  | assign fd peer => do
    let _ ← Run.assign fd peer
    return ()
  | deed i d => d.run i
  | stop => Run.requestStop
  | turn block => do
    let _ ← Run.turn serve block
    return ()
  | finish => Run.finish
  | drain => Run.beginDrain
  | take => do (← Run.kernel (·.harvest 1)).forM Run.route
  | command => do
    let _ ← Run.executeUpTo serve 1
    return ()

/-- The move is not only a part of a turn. -/
def isWhole : Move → Bool
  | drain | take | command => false
  | _ => true

/-- The move is to begin a drain whose end no clock can tell. -/
def Balks (m : Machine α) : Move → Prop
  | turn _ => m.Balks
  | drain => m.Overlong
  | _ => False

/-- The move may be made: what is offered is a descriptor, calls are those of a handle that is alive, and the loop has
not come to its end when it moves. -/
def Allowed (m : Machine α) : Move → Prop
  | assign fd _ => 0 ≤ fd
  | deed i _ => i ∈ m.held
  | stop => True
  | turn _ | finish | drain | take | command => m.worker.exited = false

instance (m : Machine α) (move : Move) : Decidable (move.Allowed m) := by
  cases move <;> unfold Allowed <;> infer_instance

end Move

/-- The machine after a row of moves, if all of them may be made and none is at fault. -/
def Machine.after? (serve : Run.Serve α) (m : Machine α) : List Move → Option (Machine α)
  | [] => some m
  | move :: moves =>
    if move.Allowed m then
      match move.run serve m with
      | .ok _ m' => m'.after? serve moves
      | .error _ _ => none
    else none

/-- A move that balks is at fault, and changes nothing. -/
theorem Move.run_balks (serve : Run.Serve α) {m : Machine α} {move : Move} (h : move.Balks m) :
    move.run serve m = .error .timeOverflow m := by
  cases move with
  | turn block => exact Run.bind_error (Run.turn_balks serve block h)
  | drain => exact Run.beginDrain_overlong h
  | _ => exact h.elim

/-- Once the loop has come to its end, nothing begins a drain. -/
theorem Move.not_balks_of_exited {m : Machine α} (move : Move) (hexited : m.worker.exited = true)
    (hwhole : move.isWhole = true) (hallowed : move.Allowed m) : ¬ move.Balks m := by
  cases move with
  | turn block => exact absurd (hexited.symm.trans hallowed) (by decide)
  | drain => cases hwhole
  | _ => exact id

/-- A whole move leaves the slots as they are to be between operations. -/
theorem Regime.move {serve : Run.Serve α} (G : Regime serve) {m : Machine α} (h : m.All G.rest []) {move : Move}
    (hwhole : move.isWhole = true) (hallowed : move.Allowed m) :
    Holds (fun fault => G.faults fault ∨ fault = .timeOverflow ∧ move.Balks m) (move.run serve) m fun _ m' =>
      m'.All G.rest [] := by
  have hplain : ∀ {x : Run α Unit}, Holds G.faults x m (fun _ m' => m'.All G.rest []) →
      Holds (fun fault => G.faults fault ∨ fault = .timeOverflow ∧ move.Balks m) x m fun _ m' => m'.All G.rest [] :=
    fun hx => hx.widen fun _ => .inl
  cases move with
  | assign fd peer => exact hplain (Holds.bind ((G.assign hallowed peer h).mono fun _ _ h' => Holds.pure h'))
  | deed i d => exact hplain (G.deeds d h hallowed)
  | stop => exact hplain (G.requestStop h)
  | turn block => exact Holds.bind ((G.turn block h hallowed).mono fun _ _ h' => Holds.pure h')
  | finish => exact hplain (G.finish h hallowed)
  | _ => cases hwhole

/-- What may be come to from a start, step by step. -/
inductive Reached (start : Machine α → Prop) (step : Machine α → Machine α → Prop) : Machine α → Prop
  | start {m : Machine α} (h : start m) : Reached start step m
  | step {m m' : Machine α} (before : Reached start step m) (h : step m m') : Reached start step m'

/-- What holds at the start and is kept by every step holds wherever steps lead. -/
theorem Reached.keeps {start P : Machine α → Prop} {step : Machine α → Machine α → Prop} {m : Machine α}
    (h : Reached start step m) (hstart : ∀ m, start m → P m) (hstep : ∀ m m', P m → step m m' → P m') : P m := by
  induction h with
  | start h => exact hstart _ h
  | step _ h ih => exact hstep _ _ ih h

/-- Where every move of some kind is a step, a row of such moves leads on. -/
theorem Reached.after {serve : Run.Serve α} {start : Machine α → Prop} {step : Machine α → Machine α → Prop}
    (kind : Move → Prop) {m m' : Machine α} {moves : List Move} (h : Reached start step m)
    (hstep : ∀ {m move m'}, kind move → move.Allowed m → move.run serve m = .ok () m' → step m m')
    (hkind : ∀ move ∈ moves, kind move) (hafter : m.after? serve moves = some m') : Reached start step m' := by
  induction moves generalizing m with
  | nil =>
    cases hafter
    exact h
  | cons move moves ih =>
    unfold Machine.after? at hafter
    split at hafter
    case isFalse => cases hafter
    rename_i hallowed
    split at hafter
    · rename_i hrun
      exact ih (h.step (hstep (hkind move (List.mem_cons_self ..)) hallowed hrun))
        (fun move hmove => hkind move (List.mem_cons_of_mem _ hmove)) hafter
    · cases hafter

end SlotServer
