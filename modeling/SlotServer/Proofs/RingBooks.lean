import Mathlib.Logic.Relation
import SlotServer.Proofs.WakeReads

/-!
# The accounts of a ring

A ring counts the operations that it has queued and not given back. Beside a ring, books are kept of every operation
that was queued, of what the kernel answered, and of what was taken out. The calls of the ring may fail by any schedule,
the kernel may answer what it has in any order, and it may take entries of the submission queue at any time.

- `takeOff_spec`: what a batch holds, and what it leaves;
- `RingBooks`, `RingBooks.Step`: a ring with its books, and what may happen to it;
- `RingBooks.Balanced`: what every step keeps (`Balanced.step`);
- `Ring.pollOut`: batches until one is empty, and `Ring.release_eq`: letting go of a ring is that;
- `RingRun.books_balance`: the ring's count, its batches, its wake-up read and its end.
-/

namespace SlotServer

/-- The operation that an entry asks for, if it is not the wake-up read. -/
def Entry.op? (e : Entry) : Option Op :=
  match e.work with
  | .op op => some op
  | .wakeRead => none

/-- The completion is not that of the wake-up read. -/
def Completion.isOp (c : Completion) : Bool := !c.ctx.isWake

namespace Ring

/-- The operations on their way to the kernel or in its hands. -/
def ops (r : Ring) : List Op := r.entries.filterMap Entry.op?

/-- A batch holds the next completions of operations, as many as there are up to its length. -/
structure TakesOff (most : Nat) (before taken after : List Completion) : Prop where
  parts : before.filter (·.isOp) = taken ++ after.filter (·.isOp)
  ops : ∀ c ∈ taken, c.ctx.isWake = false
  length : taken.length ≤ most
  emptied : taken.length < most → after = []

theorem takeOff_spec (most : Nat) (cs : List Completion) (armed : Bool) :
    TakesOff most cs (takeOff most cs armed).1 (takeOff most cs armed).2.1 := by
  induction cs generalizing most armed with
  | nil => exact ⟨by simp [takeOff], by simp [takeOff], by simp [takeOff], by simp [takeOff]⟩
  | cons c cs ih =>
    cases most with
    | zero => exact ⟨by simp [takeOff], by simp [takeOff], by simp [takeOff], by simp [takeOff]⟩
    | succ n =>
      unfold takeOff
      by_cases hc : c.ctx.isWake = true
      · rw [if_pos hc]
        obtain ⟨hparts, hops, hmost, hemptied⟩ := ih (n + 1) false
        refine ⟨?_, hops, hmost, hemptied⟩
        rw [List.filter_cons_of_neg (by simp [Completion.isOp, hc])]
        exact hparts
      · rw [if_neg hc]
        obtain ⟨hparts, hops, hmost, hemptied⟩ := ih n armed
        refine ⟨?_, ?_, Nat.succ_le_succ hmost, fun hless => hemptied (Nat.lt_of_succ_lt_succ hless)⟩
        · rw [List.filter_cons_of_pos (by simp [Completion.isOp, hc]), hparts]
          rfl
        · intro c' hc'
          rcases List.mem_cons.1 hc' with rfl | hmem
          · exact Bool.eq_false_iff.2 hc
          · exact hops c' hmem

end Ring

/-- A ring with the books of what was asked of it. -/
structure RingBooks where
  ring : Ring
  /-- The operations that were queued, the earliest first. -/
  queued : List Op := []
  /-- The operations that the kernel has answered, each with its completion, the earliest answer first. -/
  answered : List (Op × Completion) := []
  /-- The completions that were taken out, the earliest first. -/
  taken : List Completion := []
  /-- How often the kernel has registered a region for the ring. -/
  registrations : Nat := 0
  /-- How often it was asked to undo that. -/
  undoings : Nat := 0

namespace RingBooks

variable {b b' : RingBooks}

/-- An operation, where it was queued. -/
def queuedOp (op : Op) : Except Error Unit → List Op
  | .ok _ => [op]
  | .error _ => []

/-- Queue an operation. -/
def push (b : RingBooks) (op : Op) : RingBooks :=
  { b with ring := (b.ring.push op).2, queued := b.queued ++ queuedOp op (b.ring.push op).1 }

/-- Take up to `most` completions out. -/
def poll (b : RingBooks) (most : Nat) : RingBooks :=
  { b with ring := (b.ring.poll most).2, taken := b.taken ++ (b.ring.poll most).1 }

/-- Register a region. Where one is registered, the kernel is not asked. -/
def register (b : RingBooks) : RingBooks :=
  { b with
    ring := b.ring.register.2
    registrations := if b.ring.registered then b.registrations else b.registrations + 1 }

/-- Undo the registration. Where there is none, the kernel is not asked. -/
def unregister (b : RingBooks) : RingBooks :=
  { b with
    ring := b.ring.unregister
    undoings := if b.ring.registered then b.undoings + 1 else b.undoings }

/-- Let go of everything. -/
def release (b : RingBooks) : RingBooks := { b.unregister with ring := b.ring.release }

/-- The kernel answers the entry of a number. -/
def answer (b : RingBooks) (number : Nat) (e : Entry) (result : Int32) : RingBooks :=
  { b with
    ring := b.ring.complete number result
    answered := b.answered ++ (e.op?.map fun op => (op, ⟨e.ctx, result, 0⟩)).toList }

/-- What may happen to a ring. Where the kernel refuses a region, nothing has changed. -/
inductive Step (b : RingBooks) : RingBooks → Prop
  | push (op : Op) (slot : Nat) (hop : op.ctx = .ofSlot slot) : Step b (b.push op)
  | arm : Step b { b with ring := b.ring.arm.2 }
  | enter : Step b { b with ring := b.ring.enter.2 }
  /-- A batch has `room` places. -/
  | poll (most room : Nat) : Step b (b.poll (min most room))
  | register : Step b b.register
  | unregister : Step b b.unregister
  /-- The kernel takes entries on its own, or only some of those that it is handed. -/
  | fetch (count : Nat) : Step b { b with ring := b.ring.fetch count }
  | answer {number : Nat} {e : Entry} (he : (number, e) ∈ b.ring.pending) (result : Int32) :
    Step b (b.answer number e result)
  | moveUp : Step b { b with ring := b.ring.moveUp }

/-- The ring was just set up. Its calls may fail by any schedule. -/
def Starts (b : RingBooks) : Prop :=
  ∃ entries completions ring refusals, Ring.setup entries completions = .ok (.ok ring) ∧
    b = { ring := { ring with refusals } }

/-! ## What every step keeps -/

/-- The books of a ring are right, as is the ring's own count. -/
structure Balanced (b : RingBooks) : Prop where
  tidy : b.ring.Tidy
  inflight : b.ring.inflight + b.taken.length = b.queued.length
  /-- What was queued is on its way, or was answered once. -/
  once : b.queued.Perm (b.ring.ops ++ b.answered.map Prod.fst)
  /-- An operation is queued with its own context. -/
  own : ∀ e ∈ b.ring.entries, ∀ op, e.op? = some op → e.ctx = op.ctx
  /-- A completion carries the context of its operation. -/
  context : ∀ x ∈ b.answered, x.2.ctx = x.1.ctx
  /-- The answers are taken out in their order. -/
  order : b.answered.map Prod.snd = b.taken ++ b.ring.answers.filter (·.isOp)
  ops : ∀ c ∈ b.taken, c.ctx.isWake = false
  registered : b.undoings + (if b.ring.registered then 1 else 0) = b.registrations

namespace Balanced

theorem of_starts (h : b.Starts) : b.Balanced := by
  obtain ⟨entries, completions, ring, refusals, hsetup, rfl⟩ := h
  have htidy := Ring.tidy_of_setup hsetup refusals
  unfold Ring.setup at hsetup
  cases hdefault : Ring.defaultCompletions entries with
  | error fault =>
    rw [hdefault] at hsetup
    cases hsetup
  | ok n =>
    rw [hdefault] at hsetup
    replace hsetup : Ring.ofSizes entries (completions.getD n) = .ok ring := by injection hsetup
    unfold Ring.ofSizes at hsetup
    split at hsetup <;> cases hsetup
    exact ⟨htidy, rfl, .refl _, nofun, nofun, rfl, nofun, rfl⟩

/-- Entries were queued, and with them the operations that they ask for. -/
theorem adds (h : b.Balanced) {ring : Ring} {l : List Entry} (hadds : b.ring.Adds l ring) (htidy : ring.Tidy)
    (hown : ∀ e ∈ l, ∀ op, e.op? = some op → e.ctx = op.ctx) (hnone : l.filterMap Entry.op? = []) :
    ({ b with ring } : RingBooks).Balanced where
  tidy := htidy
  inflight := by rw [hadds.inflight]; exact h.inflight
  once := by
    refine h.once.trans (List.Perm.append_right _ ?_)
    have hops := hadds.entries.filterMap Entry.op?
    rw [List.filterMap_append, hnone] at hops
    exact hops.symm
  own e he := by
    rcases List.mem_append.1 (hadds.entries.mem_iff.1 he) with he | he
    · exact hown e he
    · exact h.own e he
  context := h.context
  order := by
    rw [Ring.answers, hadds.completion, hadds.overflow]
    exact h.order
  ops := h.ops
  registered := by rw [hadds.registered]; exact h.registered

/-- An operation is queued, or is not. -/
theorem push (h : b.Balanced) {op : Op} (hop : op.ctx.isWake = false) : (b.push op).Balanced := by
  obtain ⟨hadds, -⟩ := b.ring.adds_pushEntry ⟨op.ctx, .op op⟩
  have htidy := (h.tidy.push hop).1
  unfold RingBooks.push
  unfold Ring.push at htidy ⊢
  cases hpush : b.ring.pushEntry ⟨op.ctx, .op op⟩ with
  | mk answer ring =>
    rw [hpush] at hadds htidy
    cases answer with
    | error e =>
      have hbalanced := h.adds hadds htidy nofun rfl
      exact { hbalanced with
        inflight := by rw [queuedOp, List.append_nil]; exact hbalanced.inflight
        once := by rw [queuedOp, List.append_nil]; exact hbalanced.once }
    | ok u =>
      refine ⟨htidy, ?_, ?_, ?_, h.context, ?_, h.ops, ?_⟩
      · have hcount := h.inflight
        show ring.inflight + 1 + b.taken.length = (b.queued ++ [op]).length
        rw [hadds.inflight, List.length_append, List.length_singleton]
        omega
      · have hops : ring.ops.Perm (op :: b.ring.ops) := hadds.entries.filterMap Entry.op?
        calc b.queued ++ [op]
            _ |>.Perm (op :: b.queued) := List.perm_append_singleton ..
            _ |>.Perm (op :: (b.ring.ops ++ b.answered.map Prod.fst)) := h.once.cons op
            _ |>.Perm (ring.ops ++ b.answered.map Prod.fst) := hops.symm.append_right _
      · intro e he op' hop'
        rcases List.mem_append.1 (hadds.entries.mem_iff.1 he) with he | he
        · obtain rfl := List.mem_singleton.1 he
          cases hop'
          rfl
        · exact h.own e he op' hop'
      · show b.answered.map Prod.snd = b.taken ++ (ring.completion ++ ring.overflow).filter (·.isOp)
        rw [hadds.completion, hadds.overflow]
        exact h.order
      · show b.undoings + (if ring.registered then 1 else 0) = b.registrations
        rw [hadds.registered]
        exact h.registered

/-- The wake-up read is left, or is not. It is no operation. -/
theorem arm (h : b.Balanced) : ({ b with ring := b.ring.arm.2 } : RingBooks).Balanced := by
  have htidy := h.tidy.arm.1
  unfold Ring.arm at htidy ⊢
  by_cases harmed : b.ring.armed = true
  · rw [if_pos harmed]
    exact h
  rw [if_neg harmed] at htidy ⊢
  obtain ⟨hadds, -⟩ := b.ring.adds_pushEntry ⟨.wake, .wakeRead⟩
  cases hpush : b.ring.pushEntry ⟨.wake, .wakeRead⟩ with
  | mk answer ring =>
    rw [hpush] at hadds htidy
    cases answer with
    | error e => exact h.adds hadds htidy nofun rfl
    | ok u =>
      have hadds' : b.ring.Adds [⟨.wake, .wakeRead⟩] { ring with armed := true } :=
        { hadds with numbered := fun hn => ⟨(hadds.numbered hn).nodup, (hadds.numbered hn).handed⟩ }
      refine h.adds hadds' htidy (fun e he op hop => ?_) rfl
      obtain rfl := List.mem_singleton.1 he
      cases hop

/-- A batch is taken out. -/
theorem poll (h : b.Balanced) (most : Nat) : (b.poll most).Balanced := by
  obtain ⟨hparts, hops, -, -⟩ := Ring.takeOff_spec most b.ring.completion b.ring.armed
  have horder : b.answered.map Prod.snd =
      (b.taken ++ (b.ring.poll most).1) ++ ((b.ring.poll most).2.completion ++ b.ring.overflow).filter (·.isOp) := by
    rw [h.order, Ring.answers, List.filter_append, List.filter_append, hparts]
    simp only [List.append_assoc]
    rfl
  refine { h with tidy := h.tidy.poll most, inflight := ?_, order := horder, ops := fun c hc => ?_ }
  · -- as many completions as are taken out now were queued and not taken out before
    have hcount := h.inflight
    have hqueued := h.once.length_eq
    have hlength := congrArg List.length horder
    simp only [List.length_append, List.length_map] at hqueued hlength
    show b.ring.inflight - (b.ring.poll most).1.length + (b.taken ++ (b.ring.poll most).1).length = b.queued.length
    rw [List.length_append]
    omega
  · rcases List.mem_append.1 hc with hc | hc
    · exact h.ops c hc
    · exact hops c hc

/-- The kernel answers an entry that it has. -/
theorem answer (h : b.Balanced) {number : Nat} {e : Entry} (he : (number, e) ∈ b.ring.pending) (result : Int32) :
    (b.answer number e result).Balanced := by
  have hleft := Ring.entries_complete h.tidy.toNumbered he result
  obtain ⟨-, -, -, -, -, hanswers⟩ := Ring.complete_keeps h.tidy.toNumbered he result
  obtain ⟨hinflight, hregistered⟩ := b.ring.complete_aside number result
  have hmem : e ∈ b.ring.entries := hleft.symm.subset (List.mem_cons_self ..)
  have hwake : e.ctx.isWake = e.isWakeRead := h.tidy.wake e hmem
  have hops : b.ring.ops.Perm (e.op?.toList ++ (b.ring.complete number result).ops) := by
    have hall := hleft.filterMap Entry.op?
    rw [List.filterMap_cons] at hall
    cases hop : e.op? <;> rw [hop] at hall <;> exact hall
  refine ⟨(h.tidy.complete he result).1, ?_, ?_, fun e' he' => ?_, fun x hx => ?_, ?_, h.ops, ?_⟩
  · rw [RingBooks.answer, hinflight]
    exact h.inflight
  · refine h.once.trans ?_
    have hfirst : (e.op?.map fun op => (op, (⟨e.ctx, result, 0⟩ : Completion))).toList.map Prod.fst = e.op?.toList := by
      cases e.op? <;> rfl
    rw [RingBooks.answer, List.map_append, hfirst]
    calc b.ring.ops ++ b.answered.map Prod.fst
        _ |>.Perm (e.op?.toList ++ (b.ring.complete number result).ops ++ b.answered.map Prod.fst) :=
          hops.append_right _
        _ |>.Perm ((b.ring.complete number result).ops ++ b.answered.map Prod.fst ++ e.op?.toList) := by
          rw [List.append_assoc]
          exact List.perm_append_comm
        _ = (b.ring.complete number result).ops ++ (b.answered.map Prod.fst ++ e.op?.toList) := List.append_assoc ..
  · exact h.own e' (hleft.symm.subset (List.mem_cons_of_mem _ he'))
  · rcases List.mem_append.1 hx with hx | hx
    · exact h.context x hx
    · rw [Option.mem_toList, Option.map_eq_some_iff] at hx
      obtain ⟨op, hop, rfl⟩ := hx
      exact h.own e hmem op hop
  · have hsecond : (e.op?.map fun op => (op, (⟨e.ctx, result, 0⟩ : Completion))).toList.map Prod.snd =
        [(⟨e.ctx, result, 0⟩ : Completion)].filter (·.isOp) := by
      unfold Entry.op? Completion.isOp
      rw [List.filter_cons, hwake, Entry.isWakeRead]
      cases e.work <;> rfl
    show (b.answered ++ _).map Prod.snd = b.taken ++ (b.ring.complete number result).answers.filter (·.isOp)
    rw [List.map_append, hsecond, h.order, hanswers, List.filter_append, List.append_assoc]
  · show b.undoings + (if (b.ring.complete number result).registered then 1 else 0) = b.registrations
    rw [hregistered]
    exact h.registered

theorem unregister (h : b.Balanced) : b.unregister.Balanced := by
  have htidy := h.tidy
  refine { h with tidy := ⟨⟨htidy.nodup, htidy.handed⟩, htidy.wake, htidy.single, htidy.room⟩, registered := ?_ }
  have hcount := h.registered
  show (if b.ring.registered then b.undoings + 1 else b.undoings) + 0 = b.registrations
  split at hcount <;> simp_all

theorem register (h : b.Balanced) : b.register.Balanced := by
  unfold RingBooks.register Ring.register
  cases hregistered : b.ring.registered with
  | true => exact h
  | false =>
    have htidy := h.tidy
    refine { h with tidy := ⟨⟨htidy.nodup, htidy.handed⟩, htidy.wake, htidy.single, htidy.room⟩, registered := ?_ }
    have hcount := h.registered
    rw [hregistered] at hcount
    exact congrArg (· + 1) hcount

theorem step (h : b.Balanced) (hstep : b.Step b') : b'.Balanced := by
  cases hstep with
  | push op slot hop => exact h.push (by rw [hop]; exact Context.isWake_ofSlot slot)
  | arm => exact h.arm
  | enter => exact h.adds b.ring.adds_enter.1 h.tidy.enter nofun rfl
  | poll most room => exact h.poll _
  | register => exact h.register
  | unregister => exact h.unregister
  | fetch count =>
    have hadds := b.ring.adds_fetch count
    refine h.adds hadds (hadds.tidy h.tidy nofun ?_) nofun rfl
    show ([] : List Entry).countP (·.isWakeRead) + (if b.ring.armed then 1 else 0) = if b.ring.armed then 1 else 0
    rw [List.countP_nil, Nat.zero_add]
  | answer he result => exact h.answer he result
  | moveUp =>
    refine { h with tidy := h.tidy.moveUp.1, order := ?_ }
    rw [b.ring.answers_moveUp]
    exact h.order

end Balanced

end RingBooks

/-! ## Letting go -/

namespace Ring

/-- The places of the batches by which a ring is emptied. -/
def lastBatch : Nat := 64

theorem length_takeOff (most : Nat) (cs : List Completion) (armed : Bool) :
    (takeOff most cs armed).1.length + (takeOff most cs armed).2.1.length ≤ cs.length := by
  induction cs generalizing most armed with
  | nil => simp [takeOff]
  | cons c cs ih =>
    cases most with
    | zero => simp [takeOff]
    | succ n =>
      unfold takeOff
      by_cases hc : c.ctx.isWake = true
      · rw [if_pos hc]
        exact Nat.le_succ_of_le (ih (n + 1) false)
      · rw [if_neg hc]
        have hless : (takeOff n cs armed).1.length + (takeOff n cs armed).2.1.length ≤ cs.length := ih n armed
        show (takeOff n cs armed).1.length + 1 + (takeOff n cs armed).2.1.length ≤ cs.length + 1
        omega

/-- Take completions out, batch after batch, until a batch is empty. -/
def pollOut (r : Ring) : Ring :=
  if (r.poll lastBatch).1 = [] then (r.poll lastBatch).2 else (r.poll lastBatch).2.pollOut
termination_by r.completion.length
decreasing_by
  rename_i hsome
  have hless := length_takeOff lastBatch r.completion r.armed
  have hpos : 0 < (takeOff lastBatch r.completion r.armed).1.length := List.length_pos_iff.2 hsome
  show (takeOff lastBatch r.completion r.armed).2.1.length < r.completion.length
  omega

/-- Whatever the batches, the queue is empty in the end, and a wake-up completion in it has been taken out. -/
theorem takeOff_all {most : Nat} {cs : List Completion} {armed : Bool} (h : (takeOff most cs armed).2.1 = []) :
    (takeOff most cs armed).2.2 = (armed && !cs.any (·.ctx.isWake)) := by
  obtain ⟨taken, hcount, harmed⟩ := takeOff_wake most cs armed
  rw [h, List.countP_nil, Nat.zero_add] at hcount
  rw [harmed, ← hcount]
  congr 1
  rw [Bool.eq_iff_iff]
  simp [List.countP_eq_zero]

/-- What a first batch leaves of the wake-up read, the rest of the queue settles. -/
theorem takeOff_armed (most : Nat) (cs : List Completion) (armed : Bool) :
    ((takeOff most cs armed).2.2 && !(takeOff most cs armed).2.1.any (·.ctx.isWake)) =
      (armed && !cs.any (·.ctx.isWake)) := by
  obtain ⟨taken, hcount, harmed⟩ := takeOff_wake most cs armed
  have hany : ∀ l : List Completion, l.any (·.ctx.isWake) = decide (0 < l.countP (·.ctx.isWake)) := fun l => by
    rw [Bool.eq_iff_iff]
    simp [List.countP_pos_iff]
  rw [harmed, hany, hany, hcount]
  cases taken with
  | zero => simp
  | succ taken =>
    have hpos : 0 < (takeOff most cs armed).2.1.countP (·.ctx.isWake) + (taken + 1) := by omega
    rw [decide_eq_true hpos]
    simp

/-- The ring with its completion queue emptied. -/
def emptied (r : Ring) (inflight : Nat) : Ring :=
  { r with completion := [], armed := r.armed && !r.completion.any (·.ctx.isWake), inflight }

theorem pollOut_eq (r : Ring) : ∃ inflight, r.pollOut = r.emptied inflight := by
  fun_induction pollOut r with
  | case1 r hnone =>
    have hempty : (takeOff lastBatch r.completion r.armed).2.1 = [] :=
      (takeOff_spec lastBatch r.completion r.armed).emptied (by
        show (r.poll lastBatch).1.length < lastBatch
        rw [hnone]
        decide)
    refine ⟨(r.poll lastBatch).2.inflight, ?_⟩
    unfold emptied
    rw [← takeOff_all hempty]
    show ({ r with completion := (takeOff lastBatch r.completion r.armed).2.1, armed := _, inflight := _ } : Ring) = _
    rw [hempty]
    rfl
  | case2 r hsome ih =>
    obtain ⟨inflight, ih⟩ := ih
    refine ⟨inflight, ih.trans ?_⟩
    unfold emptied
    rw [← takeOff_armed lastBatch r.completion r.armed]
    rfl

/-- To let go of a ring is to take completions out until a batch is empty, and to undo the registration. -/
theorem release_eq (r : Ring) : r.release = { r.pollOut.unregister with inflight := 0 } := by
  obtain ⟨inflight, hpollOut⟩ := r.pollOut_eq
  have hspec := takeOff_spec (r.completion.length + 1) r.completion r.armed
  have hless := length_takeOff (r.completion.length + 1) r.completion r.armed
  have hempty : (takeOff (r.completion.length + 1) r.completion r.armed).2.1 = [] := hspec.emptied (by omega)
  rw [hpollOut]
  unfold emptied unregister
  rw [← takeOff_all hempty]
  unfold release unregister
  dsimp only
  rw [hempty]

end Ring

/-! ## Every run of a ring -/

/-- Books that came about by steps of a ring and its kernel, in any order. -/
def RingRun (b : RingBooks) : Prop := ∃ b₀ : RingBooks, b₀.Starts ∧ Relation.ReflTransGen RingBooks.Step b₀ b

namespace RingBooks

/-- What is taken out of a ring next. -/
structure NextBatch (r : Ring) (most : Nat) : Prop where
  /-- It is what is next of the operations' completions, in the order of the queue. -/
  parts : r.completion.filter (·.isOp) = (r.poll most).1 ++ (r.poll most).2.completion.filter (·.isOp)
  ops : ∀ c ∈ (r.poll most).1, c.ctx.isWake = false
  length : (r.poll most).1.length ≤ most
  /-- A batch is short only where it has emptied the queue. -/
  emptied : (r.poll most).1.length < most → (r.poll most).2.completion = []

/-- What becomes of a ring that is let go. -/
structure LetGo (b : RingBooks) : Prop where
  steps : b.ring.release = { b.ring.pollOut.unregister with inflight := 0 }
  completion : b.release.ring.completion = []
  inflight : b.release.ring.inflight = 0
  /-- Every registration was undone once. -/
  undone : b.release.ring.registered = false ∧ b.release.undoings = b.registrations
  /-- From then on the kernel is not asked again. -/
  again : b.release.unregister.undoings = b.release.undoings ∧ b.release.release.undoings = b.release.undoings

/-- The accounts of a ring are right. -/
structure Accounted (b : RingBooks) : Prop where
  /-- The ring counts the operations that were queued and not taken out. -/
  inflight : b.ring.inflight = b.queued.length - b.taken.length ∧ b.taken.length ≤ b.queued.length
  /-- What was queued is on its way, or was answered once. -/
  once : b.queued.Perm (b.ring.ops ++ b.answered.map Prod.fst)
  context : ∀ x ∈ b.answered, x.2.ctx = x.1.ctx
  /-- The answers to operations are taken out once each, in their order, and nothing else is. -/
  order : b.answered.map Prod.snd = b.taken ++ b.ring.answers.filter (·.isOp)
  ops : ∀ c ∈ b.taken, c.ctx.isWake = false
  batch : ∀ most, NextBatch b.ring most
  /-- There is one wake-up read at most. -/
  single : b.ring.wakeReads ≤ 1
  /-- The ring believes in a wake-up read where one is queued, with the kernel, or answered and not taken out. -/
  armed : b.ring.armed = true ↔ b.ring.submission.any (·.isWakeRead) = true ∨ b.ring.holdsWake = true ∨
    b.ring.hasWake = true
  /-- The kernel was asked to undo each registration once at most. -/
  undoings : b.undoings ≤ b.registrations
  letGo : b.LetGo

namespace Balanced

variable {b : RingBooks}

theorem armed_iff (h : b.Balanced) : b.ring.armed = true ↔ b.ring.submission.any (·.isWakeRead) = true ∨
    b.ring.holdsWake = true ∨ b.ring.hasWake = true := by
  have hsingle : b.ring.armed = true ↔ 0 < b.ring.wakeReads := by
    rw [h.tidy.single]
    cases b.ring.armed <;> simp
  rw [hsingle, Ring.wakeReads, Ring.entries, List.countP_append, List.countP_map, Nat.add_assoc]
  rw [Nat.add_pos_iff_pos_or_pos, Nat.add_pos_iff_pos_or_pos]
  simp only [List.countP_pos_iff, Ring.holdsWake, Ring.hasWake, List.any_eq_true, Function.comp_apply]

theorem letGo (h : b.Balanced) : b.LetGo := by
  obtain ⟨inflight, hpollOut⟩ := b.ring.pollOut_eq
  have hcount := h.registered
  have hundone : b.release.undoings = b.registrations := by
    show (if b.ring.registered then b.undoings + 1 else b.undoings) = b.registrations
    split at hcount <;> simp_all
  refine ⟨b.ring.release_eq, ?_, rfl, ⟨rfl, hundone⟩, rfl, rfl⟩
  show b.ring.release.completion = []
  rw [b.ring.release_eq, hpollOut]
  rfl

theorem well_kept (h : b.Balanced) : b.Accounted := by
  have hcount := h.inflight
  have hregistered := h.registered
  refine ⟨⟨by omega, by omega⟩, h.once, h.context, h.order, h.ops, fun most => ?_, h.tidy.le_one, h.armed_iff,
    by omega, h.letGo⟩
  obtain ⟨hparts, hops, hmost, hemptied⟩ := Ring.takeOff_spec most b.ring.completion b.ring.armed
  exact ⟨hparts, hops, hmost, hemptied⟩

end Balanced

end RingBooks

namespace RingRun

variable {b : RingBooks}

theorem balanced (h : RingRun b) : b.Balanced := by
  obtain ⟨b₀, hstarts, hsteps⟩ := h
  induction hsteps with
  | refl => exact .of_starts hstarts
  | tail _ hstep ih => exact ih.step hstep

/-- The accounts of a ring are right, whatever was asked of it and however its calls failed. -/
theorem books_balance (h : RingRun b) : b.Accounted := h.balanced.well_kept

/-- A ring of one place: its first hand-over fails, and with it the push that finds the queue full. -/
def narrow : RingBooks where
  ring := { capacity := 1, completionCapacity := 2, refusals := fun n => if n = 0 then some 4 else none }

/-- Two closes and a wake-up read go through a ring of one place, and what is answered is taken out. -/
theorem books_balance_narrow : ∃ b, RingRun b ∧ b.queued.length = 2 ∧ b.taken.length = 1 ∧ b.ring.armed = true ∧
    b.ring.inflight = 1 ∧ b.Accounted := by
  have hsteps : Relation.ReflTransGen RingBooks.Step narrow _ :=
    .head .arm <| .head (.push (.close (.ofSlot 1) 5) 1 rfl) <| .head (.push (.close (.ofSlot 0) 4) 0 rfl) <|
      .head (.push (.close (.ofSlot 1) 5) 1 rfl) <|
        .head (.answer (show (1, _) ∈ _ from .tail _ (.head _)) 0) <| .head (.poll 8 8) .refl
  have hrun : RingRun _ := ⟨narrow, ⟨1, none, { capacity := 1, completionCapacity := 2 }, _, rfl, rfl⟩, hsteps⟩
  exact ⟨_, hrun, rfl, rfl, rfl, rfl, books_balance hrun⟩

end RingRun

end SlotServer
