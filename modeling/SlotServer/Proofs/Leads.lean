import SlotServer.Proofs.View

/-!
# Programs that work on one slot

`Leads R i x v Q` says: started where slot `i` has the view `v`, the program `x` comes to an answer and a view of slot
`i` that `Q` allows, and leaves the views of all other slots as they were. What it may count on of the other slots, and
whether it may be at fault, is said by `R`. That the others keep their views is part of the judgment, so it holds of a
row of programs as soon as it holds of each (`Leads.bind`).

The rules below stand for the calls of a worker, from the single change of a slot (`Leads.stepSlot`) to the calls of
acceptors and handles (`Leads.submit`, `Leads.release`). No proof further on opens one of these calls.
-/

namespace SlotServer

variable {α β γ : Type}

/-- A program that comes to an answer and leaves every view as it is. -/
def Still (x : Run α β) : Prop :=
  ∀ m, ∃ b m', x m = .ok b m' ∧ ∀ pending j, m'.view pending j = m.view pending j

namespace Still

theorem pure (b : β) : Still (Pure.pure b : Run α β) := fun m => ⟨b, m, rfl, fun _ _ => rfl⟩

theorem bind {x : Run α β} {k : β → Run α γ} (hx : Still x) (hk : ∀ b, Still (k b)) : Still (x >>= k) := by
  intro m
  obtain ⟨b, m', hm, hview⟩ := hx m
  obtain ⟨c, m'', hm', hview'⟩ := hk b m'
  refine ⟨c, m'', ?_, fun pending j => (hview' pending j).trans (hview pending j)⟩
  show EStateM.bind x k m = _
  rw [EStateM.bind, hm]
  exact hm'

theorem get : Still (MonadState.get : Run α (Machine α)) := fun m => ⟨m, m, rfl, fun _ _ => rfl⟩

theorem worker : Still (Run.worker : Run α Worker) := bind get fun _ => pure _

theorem record_aside {e : Event} (he : e.Aside) : Still (Run.record e : Run α Unit) := fun m =>
  ⟨(), _, rfl, fun pending j => by rw [m.view_record, he j, if_neg Bool.false_ne_true]⟩

theorem say {level : LogLevel} {message : String} : Still (Run.say level message : Run α Unit) :=
  bind worker fun _ => record_aside fun _ => rfl

theorem bump {counter : Counter} {n : UInt64} : Still (Run.bump counter n : Run α Unit) := fun m =>
  ⟨(), _, rfl, fun pending j => m.view_bump pending j counter n⟩

theorem modifyKernel {f : Kernel → Kernel} (hf : ∀ k, (f k).ready = k.ready) :
    Still (Run.modifyKernel f : Run α Unit) := fun m =>
  ⟨(), _, rfl, fun pending j => m.view_kernel pending j _ (hf m.kernel)⟩

/-- A call of the kernel that readies nothing. -/
theorem kernel {f : Kernel → β × Kernel} (hf : ∀ k, (f k).2.ready = k.ready) : Still (Run.kernel f : Run α β) :=
  fun m => ⟨_, _, rfl, fun pending j => m.view_kernel pending j _ (hf m.kernel)⟩

theorem ring : Still (Run.ring : Run α (Except Error Unit)) :=
  bind (record_aside fun _ => rfl) fun _ => kernel fun _ => rfl

end Still

/-- What a program that works on one slot counts on. -/
structure Rely where
  /-- What the views of the other slots are like. -/
  others : Nat → View → Prop
  /-- The faults that the program may end with. -/
  faults : Fault → Prop

/-- Whatever the other slots are like, and whatever fault the program may end with. -/
abbrev Rely.any : Rely := ⟨fun _ _ => True, fun _ => True⟩

/-- The program leads slot `i` from the view `v` to an answer and a view that `Q` allows. -/
def Leads (R : Rely) (i : Nat) (x : Run α β) (v : View) (Q : β → View → Prop) : Prop :=
  ∀ (m : Machine α) (pending : List Completion), (∀ j, j ≠ i → R.others j (m.view pending j)) →
    m.view pending i = v →
    match x m with
    | .ok b m' => Q b (m'.view pending i) ∧ ∀ j, j ≠ i → m'.view pending j = m.view pending j
    | .error fault _ => R.faults fault

/-- Queueing an operation leaves the completions that are ready, but for a close, which may be answered at once. -/
theorem Kernel.push_ready (k : Kernel) (op : Op) :
    (k.push op).2.ready = k.ready ∨ (k.push op).1 = .ok () ∧ (k.push op).2.ready = k.ready ++ [⟨op.ctx, 0, 0⟩] := by
  unfold push ask
  dsimp only
  cases k.schedule .push (k.asked .push) with
  | some e => exact .inl rfl
  | none =>
    dsimp only
    cases k.schedule (callOf op) _ with
    | some e => exact .inl rfl
    | none =>
      cases op with
      | receive => exact .inl rfl
      | send => exact .inl rfl
      | close ctx fd =>
        unfold accept
        dsimp only
        split
        · exact .inr ⟨rfl, rfl⟩
        · exact .inl rfl

namespace Leads

variable {R : Rely} {i : Nat} {v : View}

section Rules

variable {x : Run α β} {Q : β → View → Prop}

theorem pure {b : β} (h : Q b v) : Leads R i (Pure.pure b : Run α β) v Q := by
  rintro m pending - rfl
  exact ⟨h, fun _ _ => rfl⟩

theorem bind {k : β → Run α γ} {Q : γ → View → Prop} (h : Leads R i x v fun b v' => Leads R i (k b) v' Q) :
    Leads R i (x >>= k) v Q := by
  intro m pending hothers hv
  have hx := h m pending hothers hv
  show match EStateM.bind x k m with | .ok b m' => _ | .error _ _ => _
  unfold EStateM.bind
  cases hm : x m with
  | error fault m' =>
    rw [hm] at hx
    exact hx
  | ok b m' =>
    rw [hm] at hx
    obtain ⟨hk, hframe⟩ := hx
    have hy := hk m' pending (fun j hj => by rw [hframe j hj]; exact hothers j hj) rfl
    dsimp only
    cases hm' : k b m' with
    | error fault m'' =>
      rw [hm'] at hy
      exact hy
    | ok c m'' =>
      rw [hm'] at hy
      exact ⟨hy.1, fun j hj => (hy.2 j hj).trans (hframe j hj)⟩

theorem mono {Q' : β → View → Prop} (h : Leads R i x v Q') (hq : ∀ b v', Q' b v' → Q b v') : Leads R i x v Q := by
  intro m pending hothers hv
  have hx := h m pending hothers hv
  cases hm : x m with
  | error fault m' =>
    rw [hm] at hx
    exact hx
  | ok b m' =>
    rw [hm] at hx
    exact ⟨hq b _ hx.1, hx.2⟩

/-- What two judgments say of a program, it does. The faults are those of the first. -/
theorem and {R' R'' : Rely} {Q' : β → View → Prop} (h : Leads R i x v Q) (h' : Leads R' i x v Q')
    (hothers : ∀ j v', R''.others j v' → R.others j v' ∧ R'.others j v')
    (hfaults : ∀ fault, R.faults fault → R''.faults fault) : Leads R'' i x v fun b v' => Q b v' ∧ Q' b v' := by
  intro m pending hm hv
  have hx := h m pending (fun j hj => (hothers j _ (hm j hj)).1) hv
  have hx' := h' m pending (fun j hj => (hothers j _ (hm j hj)).2) hv
  cases hrun : x m with
  | error fault m' =>
    rw [hrun] at hx
    exact hfaults fault hx
  | ok b m' =>
    rw [hrun] at hx hx'
    exact ⟨⟨hx.1, hx'.1⟩, hx.2⟩

/-- A program that works on one slot leaves alone what all slots show: whether the loop has ended, how many slots there
are, and the region. -/
theorem fixed (h : Leads R i x v Q) :
    Leads R i x v fun b v' => Q b v' ∧ v'.exited = v.exited ∧ v'.size = v.size ∧ v'.region = v.region := by
  intro m pending hothers hv
  have hx := h m pending hothers hv
  cases hm : x m with
  | error fault m' =>
    rw [hm] at hx
    exact hx
  | ok b m' =>
    rw [hm] at hx
    -- another slot shows the same as before, and these things are the same for all
    have hnext := hx.2 (i + 1) (Nat.succ_ne_self i)
    have hexited : m'.worker.exited = m.worker.exited := congrArg View.exited hnext
    have hsize : m'.worker.slots.length = m.worker.slots.length := congrArg View.size hnext
    have hregion : m'.worker.pool.regionLength = m.worker.pool.regionLength := congrArg View.region hnext
    subst hv
    exact ⟨⟨hx.1, hexited, hsize, hregion⟩, hx.2⟩

/-- What holds whatever the other slots are like, where every fault is allowed. -/
theorem of_any (h : Leads .any i x v Q) (hfaults : ∀ fault, R.faults fault) : Leads R i x v Q :=
  (h.and h (fun _ _ _ => ⟨trivial, trivial⟩) fun fault _ => hfaults fault).mono fun _ _ hdone => hdone.1

/-- A program neither makes slots nor loses them. -/
theorem present (h : Leads R i x v Q) : Leads R i x v fun b v' => Q b v' ∧ v'.slot?.isSome = v.slot?.isSome := by
  intro m pending hothers hv
  have hx := h.fixed m pending hothers hv
  cases hm : x m with
  | error fault m' =>
    rw [hm] at hx
    exact hx
  | ok b m' =>
    rw [hm] at hx
    obtain ⟨⟨hq, -, hsize, -⟩, hframe⟩ := hx
    subst hv
    have hlength : m'.worker.slots.length = m.worker.slots.length := hsize
    refine ⟨⟨hq, Bool.eq_iff_iff.2 ?_⟩, hframe⟩
    simp [Machine.view, hlength]

/-- A program that goes on as another one, from a machine where the others show what they showed. -/
theorem goesOn {y : Run α β} {w : View}
    (hx : ∀ (m : Machine α) pending, (∀ j, j ≠ i → R.others j (m.view pending j)) → m.view pending i = v →
      ∃ m', x m = y m' ∧ m'.view pending i = w ∧ ∀ j, j ≠ i → m'.view pending j = m.view pending j)
    (h : Leads R i y w Q) : Leads R i x v Q := by
  intro m pending hothers hv
  obtain ⟨m', hrun, hself, hframe⟩ := hx m pending hothers hv
  have hy := h m' pending (fun j hj => by rw [hframe j hj]; exact hothers j hj) hself
  rw [hrun]
  cases hm : y m' with
  | error fault m'' =>
    rw [hm] at hy
    exact hy
  | ok b m'' =>
    rw [hm] at hy
    exact ⟨hy.1, fun j hj => (hy.2 j hj).trans (hframe j hj)⟩

theorem throw {fault : Fault} (h : R.faults fault) : Leads R i (MonadExcept.throw fault : Run α β) v Q :=
  fun _ _ _ _ => h

theorem ofExcept {y : Except Fault β} (h : ∀ b, y = .ok b → Q b v)
    (hf : ∀ fault, y = .error fault → R.faults fault) : Leads R i (Run.ofExcept y : Run α β) v Q := by
  cases y with
  | ok b => exact pure (h b rfl)
  | error fault => exact throw (hf fault rfl)

/-- A program that leaves every view as it is. -/
theorem still (hx : Still x) (h : ∀ b, Q b v) : Leads R i x v Q := by
  rintro m pending - rfl
  obtain ⟨b, m', hm, hview⟩ := hx m
  rw [hm]
  dsimp only
  rw [hview]
  exact ⟨h b, fun j _ => hview pending j⟩

end Rules

/-! ## Single changes -/

section Changes

variable {Q : Unit → View → Prop}

theorem record {e : Event} (hi : e.concerns i = true) (hj : ∀ j, j ≠ i → e.concerns j = false) (h : Q () (v.log e)) :
    Leads R i (Run.record e : Run α Unit) v Q := by
  rintro m pending - rfl
  refine ⟨?_, fun j hne => ?_⟩
  · rw [m.view_record, if_pos hi]
    exact h
  · rw [m.view_record, hj j hne, if_neg Bool.false_ne_true]

/-- Recording an event of the slot alone. -/
theorem note {e : Event} (he : ∀ j, e.concerns j = decide (i = j)) (h : Q () (v.log e)) :
    Leads R i (Run.record e : Run α Unit) v Q :=
  record (by rw [he]; exact decide_eq_true rfl) (fun j hj => by rw [he]; exact decide_eq_false hj.symm) h

theorem record_aside {e : Event} (he : e.Aside) (h : Q () v) : Leads R i (Run.record e : Run α Unit) v Q :=
  still (.record_aside he) fun _ => h

theorem say {level : LogLevel} {message : String} (h : Q () v) :
    Leads R i (Run.say level message : Run α Unit) v Q := still .say fun _ => h

theorem bump {counter : Counter} {n : UInt64} (h : Q () v) : Leads R i (Run.bump counter n : Run α Unit) v Q :=
  still .bump fun _ => h

theorem modifyKernel {f : Kernel → Kernel} (hf : ∀ k, (f k).ready = k.ready) (h : Q () v) :
    Leads R i (Run.modifyKernel f : Run α Unit) v Q := still (.modifyKernel hf) fun _ => h

theorem modifySlot {f : Slot → Slot} (h : Q () { v with slot? := v.slot?.map f }) :
    Leads R i (Run.modifySlot i f : Run α Unit) v Q := by
  rintro m pending - rfl
  refine ⟨?_, fun j hj => ?_⟩
  · rw [← m.view_modify_self pending i f] at h
    exact h
  · exact m.view_modify_of_ne pending f hj

end Changes

section Reading

theorem slot? {Q : Option Slot → View → Prop} (h : Q v.slot? v) :
    Leads R i (Run.slot? i : Run α (Option Slot)) v Q := by
  rintro m pending - rfl
  exact ⟨h, fun _ _ => rfl⟩

theorem slot?_some {s : Slot} {Q : Option Slot → View → Prop} (hs : v.slot? = some s) (h : Q (some s) v) :
    Leads R i (Run.slot? i : Run α (Option Slot)) v Q := slot? (hs ▸ h)

theorem worker {Q : Worker → View → Prop} (h : ∀ w, w.exited = v.exited → w.pool.regionLength = v.region → Q w v) :
    Leads R i (Run.worker : Run α Worker) v Q := by
  rintro m pending - rfl
  exact ⟨h _ rfl rfl, fun _ _ => rfl⟩

end Reading

theorem setSlot {s : Slot} {Q : Unit → View → Prop} (hv : v.slot?.isSome) (h : Q () (v.put s)) :
    Leads R i (Run.modifyWorker (·.setSlot i s) : Run α Unit) v Q := by
  rintro m pending - rfl
  have hi : i < m.worker.slots.length := by simpa [Machine.view] using hv
  refine ⟨?_, fun j hj => m.view_setSlot_of_ne pending s hj⟩
  rw [← m.view_setSlot_self pending i s hi] at h
  exact h

/-- A step of the slot, which answers by itself what becomes of it. -/
theorem stepSlot {f : Slot.Step β} {Q : Except Error β → View → Prop}
    (hnone : v.slot? = none → Q (.error .noFreeSlot) v)
    (hsome : ∀ s, v.slot? = some s → Q (f s).1 (v.put (f s).2)) :
    Leads R i (Run.stepSlot i f : Run α (Except Error β)) v Q := by
  refine bind (slot? ?_)
  cases hs : v.slot? with
  | none => exact pure (hnone hs)
  | some s => exact bind (setSlot (by rw [hs]; rfl) (pure (hsome s hs)))

/-! ## The kernel -/

/-- A call of the kernel that readies completions of the slot alone. -/
theorem kernel (ok : β → List Completion → Prop) {f : Kernel → β × Kernel} {Q : β → View → Prop}
    (hf : ∀ k, ∃ more, (f k).2.ready = k.ready ++ more ∧ (∀ c ∈ more, c.ctx.slot = i) ∧ ok (f k).1 more)
    (h : ∀ b more, ok b more → Q b { v with answers := v.answers ++ more }) :
    Leads R i (Run.kernel f : Run α β) v Q := by
  rintro m pending - rfl
  obtain ⟨more, hready, hslot, hok⟩ := hf m.kernel
  have hview : ∀ j, ({ m with kernel := (f m.kernel).2 } : Machine α).view pending j =
      { m.view pending j with
        answers := (m.view pending j).answers ++ more.filter (fun c => decide (c.ctx.slot = j)) } := by
    intro j
    simp [Machine.view, Machine.history, hready]
  refine ⟨?_, fun j hj => ?_⟩
  · have hall : more.filter (fun c => decide (c.ctx.slot = i)) = more :=
      List.filter_eq_self.2 fun c hc => decide_eq_true (hslot c hc)
    rw [hview i, hall]
    exact h _ _ hok
  · have hnone : more.filter (fun c => decide (c.ctx.slot = j)) = [] :=
      List.filter_eq_nil_iff.2 fun c hc hcj => hj ((of_decide_eq_true hcj).symm.trans (hslot c hc))
    rw [hview j, hnone, List.append_nil]

/-- An operation of the slot for the kernel. Its completion may be ready at once. -/
theorem queue {op : Op} {Q : Except Error Unit → View → Prop} (hop : op.ctx.slot = i)
    (hok : ∀ more, more = [] ∨ more = [⟨op.ctx, 0, 0⟩] →
      Q (.ok ()) { v.log (.queued op) with answers := v.answers ++ more })
    (herr : ∀ e, Q (.error e) (v.log (.refused op e))) :
    Leads R i (Run.queue op : Run α (Except Error Unit)) v Q := by
  refine bind (kernel (fun answer more => more = [] ∨ answer = .ok () ∧ more = [⟨op.ctx, 0, 0⟩])
    (fun k => ?_) ?_)
  · rcases k.push_ready op with h | ⟨hanswer, h⟩
    · exact ⟨[], by rw [h, List.append_nil], by simp, .inl rfl⟩
    · exact ⟨_, h, by simp [hop], .inr ⟨hanswer, rfl⟩⟩
  · rintro (e | _) more hmore
    · rcases hmore with rfl | ⟨hanswer, -⟩
      · refine bind (note (fun j => by rw [← hop]; rfl) (pure ?_))
        simpa [View.log] using herr e
      · cases hanswer
    · refine bind (note (fun j => by rw [← hop]; rfl) (pure ?_))
      exact hok more (hmore.imp_right And.right)

end Leads

end SlotServer
