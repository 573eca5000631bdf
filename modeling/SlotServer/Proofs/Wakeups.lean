import Mathlib.Logic.Function.Basic
import SlotServer.EventCounter
import SlotServer.Proofs.LoopStages
import SlotServer.Proofs.WakeReads

/-!
# Wake-ups that are not lost

A dispatch loop with its ring and its wake-up counter, among any number of submitters. A submitter puts a command into
the inbox or asks the worker to stop, and rings the counter after that. The loop goes round: it looks whether it is to
stop, leaves a wake-up read, hands the queue over and perhaps waits, takes completions out until a batch is short, and
empties the inbox. Between any two of these steps the submitters and the kernel may take any steps of theirs.

- `Vigil`, `Vigil.Step`: where all of them stand, and what each may do next;
- `Vigil.Guarded`: what every step keeps (`Vigil.Guarded.step`): who has rung for something that the loop will not see
  before it waits has left a count or a wake-up completion behind;
- `Vigil.Guarded.attentive`: a loop that waits is woken for everything that was left for it.
-/

namespace SlotServer

namespace EventCounter

theorem isOpen_read {c c' : EventCounter} {n : Nat} (h : c.read = (.counted n, c')) : c'.isOpen = c.isOpen := by
  unfold read at h
  split at h
  · cases h
  · split at h <;> cases h
    rfl

theorem read_counted {c : EventCounter} (h : c.isOpen = true) (hcount : 0 < c.count) :
    c.read = (.counted c.count, { c with count := 0 }) := by
  unfold read
  rw [if_neg (by simp [h]), if_neg (Nat.pos_iff_ne_zero.1 hcount)]

/-- An open counter that was rung has something counted, even if it was full. -/
theorem notify_pos {c : EventCounter} (h : c.isOpen = true) : c.notify.2.isOpen = true ∧ 0 < c.notify.2.count := by
  unfold notify write
  rw [h]
  simp only [Bool.not_true, Bool.false_eq_true, if_false]
  rw [if_neg (show ¬ greatest < 1 by decide)]
  by_cases hfull : greatest < c.count + 1
  · rw [if_pos hfull]
    refine ⟨h, ?_⟩
    show 0 < c.count
    unfold greatest at hfull
    omega
  · rw [if_neg hfull]
    exact ⟨rfl, Nat.succ_pos _⟩

end EventCounter

/-- A loop that waits does not drain, and believes that a wake-up read is outstanding. -/
theorem Worker.sure_of_waitsFor {w : Worker} {block armed : Bool} (h : w.waitsFor block armed ≠ 0) :
    w.deadline = none ∧ armed = true := by
  unfold waitsFor at h
  split at h
  · rename_i hsure
    simp only [Bool.and_eq_true, Option.isNone_iff_eq_none] at hsure
    exact ⟨hsure.1.2, hsure.2⟩
  · exact absurd rfl h

namespace LoopStage

/-- The loop may wait before it takes the next command out of the inbox. -/
def waitsFirst : LoopStage → Bool
  | check | arm | submit | waiting => true
  | harvest | drain | ended => false

/-- The loop may wait before it looks whether it is to stop. -/
def waitsBlindly : LoopStage → Bool
  | arm | submit | waiting => true
  | check | harvest | drain | ended => false

theorem waitsFirst_of_waitsBlindly {stage : LoopStage} (h : stage.waitsBlindly = true) : stage.waitsFirst = true := by
  revert h
  cases stage <;> decide

end LoopStage

/-- How far a submitter has come. -/
inductive Progress
  | outside
  /-- It has put its command into the inbox, or has asked the worker to stop. -/
  | pushed
  /-- It has rung the counter. -/
  | rung
  deriving DecidableEq, Repr

/-- A dispatch loop and its submitters, who are told apart by numbers. Each leaves one thing for the loop: who leaves
several counts as several. -/
structure Vigil where
  worker : Worker
  ring : Ring
  counter : EventCounter := {}
  stage : LoopStage := .check
  progress : Nat → Progress := fun _ => .outside
  /-- Whose the commands of the inbox are. -/
  owners : List Nat := []
  /-- Who has asked the worker to stop. -/
  stoppers : List Nat := []

namespace Vigil

/-- A step of the dispatch loop, from stage to stage. What it does for a completion or a command comes down to changes
that it does not go by itself and to operations that it queues, each for a slot. Where it ends a connection whose
handler did not start, it is a submitter of its own. -/
inductive LoopStep (v : Vigil) : Vigil → Prop
  /-- The drain begins. -/
  | beginDrain (deadline : Nat) (hstage : v.stage = .check) (hstop : v.worker.isToDrain = true) :
    LoopStep v { v with worker := { v.worker with deadline := some deadline } }
  | check (hstage : v.stage = .check) (hstop : v.worker.isToDrain = false) : LoopStep v { v with stage := .arm }
  /-- The drain is over. -/
  | finish (hstage : v.stage = .check) (hdrain : v.worker.deadline.isSome = true) :
    LoopStep v { v with stage := .ended }
  | arm (hstage : v.stage = .arm) : LoopStep v { v with ring := v.ring.arm.2, stage := .submit }
  /-- The read is not left, for whatever reason. -/
  | armFails (hstage : v.stage = .arm) : LoopStep v { v with stage := .submit }
  | submit {n : Nat} {ring : Ring} (block : Bool) (hstage : v.stage = .submit) (henter : v.ring.enter = (.ok n, ring)) :
    LoopStep v
      { v with
        ring := ring.moveUp
        stage := if v.worker.waitsFor block v.ring.armed = 0 then .harvest else .waiting }
  | submitFails {e : Error} {ring : Ring} (hstage : v.stage = .submit) (henter : v.ring.enter = (.error e, ring)) :
    LoopStep v { v with ring, stage := .harvest }
  /-- The kernel takes only the first entries of the queue. Then it does not wait either. -/
  | submitPart (count : Nat) (hstage : v.stage = .submit) :
    LoopStep v { v with ring := { v.ring.fetch count with enters := v.ring.enters + 1 }, stage := .harvest }
  | woken (hstage : v.stage = .waiting) (hready : v.ring.completion ≠ []) : LoopStep v { v with stage := .harvest }
  /-- The wait is given up. -/
  | interrupted (hstage : v.stage = .waiting) : LoopStep v { v with stage := .harvest }
  | poll (hstage : v.stage = .harvest) :
    LoopStep v
      { v with
        ring := (v.ring.poll v.worker.batch).2
        stage := if (v.ring.poll v.worker.batch).1.length < v.worker.batch then .drain else .harvest }
  | pop {c : Command} {inbox : List Command} (hstage : v.stage = .drain) (hinbox : v.worker.inbox = c :: inbox) :
    LoopStep v { v with worker := { v.worker with inbox }, owners := v.owners.tail }
  | emptied (hstage : v.stage = .drain) (hinbox : v.worker.inbox = []) : LoopStep v { v with stage := .check }
  | push {op : Op} (slot : Nat) (hstage : v.stage ≠ .waiting) (hop : op.ctx = .ofSlot slot) :
    LoopStep v { v with ring := (v.ring.push op).2 }

/-- A step of the kernel. -/
inductive KernelStep (v : Vigil) : Vigil → Prop
  /-- An operation is answered, in whatever way. -/
  | answer {number : Nat} {e : Entry} (he : (number, e) ∈ v.ring.pending) (hop : e.isWakeRead = false)
    (result : Int32) : KernelStep v { v with ring := v.ring.complete number result }
  /-- The wake-up read takes what was counted. -/
  | wake {number n : Nat} {e : Entry} {counter : EventCounter} (he : (number, e) ∈ v.ring.pending)
    (hread : e.isWakeRead = true) (hcount : v.counter.read = (.counted n, counter)) :
    KernelStep v { v with ring := v.ring.complete number (Int32.ofNat EventCounter.wordBytes), counter }
  /-- Completions that found no place move up. -/
  | moveUp : KernelStep v { v with ring := v.ring.moveUp }
  /-- Entries of the queue are taken that were not handed over. -/
  | fetch (count : Nat) : KernelStep v { v with ring := v.ring.fetch count }

/-- A step of a submitter. It puts its command into the inbox, or asks the worker to stop. The counter is rung by a step
of its own. -/
inductive SubmitterStep (v : Vigil) : Vigil → Prop
  | push {k : Nat} (c : Command) (hfirst : v.progress k = .outside) (hroom : v.worker.inboxFull = false) :
    SubmitterStep v
      { v with
        worker := { v.worker with inbox := v.worker.inbox ++ [c] }
        progress := Function.update v.progress k .pushed
        owners := v.owners ++ [k] }
  | stop {k : Nat} (hfirst : v.progress k = .outside) :
    SubmitterStep v
      { v with
        worker := { v.worker with stopping := true }
        progress := Function.update v.progress k .pushed
        stoppers := v.stoppers ++ [k] }
  | ring {k : Nat} (hnext : v.progress k = .pushed) :
    SubmitterStep v { v with counter := v.counter.notify.2, progress := Function.update v.progress k .rung }

/-- Someone takes a step. -/
inductive Step (v : Vigil) : Vigil → Prop
  | loop {v' : Vigil} (h : v.LoopStep v') : Step v v'
  | kernel {v' : Vigil} (h : v.KernelStep v') : Step v v'
  | submitter {v' : Vigil} (h : v.SubmitterStep v') : Step v v'
  /-- The loop or a submitter changes what the loop does not go by. -/
  | aside {w : Worker} (hbides : v.worker.Bides w) (hexited : w.exited = v.worker.exited) :
    Step v { v with worker := w }

/-- The worker and its ring were just made, and the loop has not begun. The ring's calls may fail by any schedule. -/
structure Starts (v : Vigil) : Prop where
  worker : ∃ id config memory pool, Worker.ofPool id config memory pool = .ok v.worker
  ring : ∃ entries completions ring refusals, Ring.setup entries completions = .ok (.ok ring) ∧
    v.ring = { ring with refusals }
  counter : v.counter = {}
  stage : v.stage = .check
  progress : ∀ k, v.progress k = .outside
  owners : v.owners = []
  stoppers : v.stoppers = []

/-! ## What every step keeps -/

/-- The loop may wait before it sees what the submitter has left for it. -/
def Unseen (v : Vigil) (k : Nat) : Prop :=
  k ∈ v.owners ∧ v.stage.waitsFirst = true ∨
    k ∈ v.stoppers ∧ v.stage.waitsBlindly = true ∧ v.worker.deadline = none

/-- A loop that takes completions and commands out before it waits again leaves nothing unseen. -/
theorem not_unseen {v : Vigil} {k : Nat} (hfirst : v.stage.waitsFirst = false) (hblind : v.stage.waitsBlindly = false) :
    ¬ v.Unseen k := by
  simp [Unseen, hfirst, hblind]

/-- Something is there that ends the next wait, or will make the kernel end it. -/
def Alert (v : Vigil) : Prop := 0 < v.counter.count ∨ v.ring.hasWake = true

structure Guarded (v : Vigil) : Prop where
  /-- The loop has not left the worker for good. -/
  exited : v.worker.exited = false
  /-- There are always more submitters to come. -/
  fresh : ∃ n, ∀ k, n ≤ k → v.progress k = .outside
  tidy : v.ring.Tidy
  opened : v.counter.isOpen = true
  paired : v.owners.length = v.worker.inbox.length
  asked : v.worker.stopping = true ↔ v.stoppers ≠ []
  present : ∀ k, k ∈ v.owners ∨ k ∈ v.stoppers → v.progress k ≠ .outside
  /-- A loop that waits has handed over a wake-up read, and does not drain. -/
  waiting : v.stage = .waiting →
    v.ring.submission = [] ∧ v.ring.armed = true ∧ v.worker.deadline = none ∧ v.ring.InPlace
  /-- Who has rung for something that the loop has not seen has made it alert. -/
  alert : ∀ k, v.Unseen k → v.progress k = .rung → v.Alert

namespace Guarded

variable {v v' : Vigil}

theorem of_starts (h : v.Starts) : v.Guarded := by
  obtain ⟨id, config, memory, pool, hworker⟩ := h.worker
  obtain ⟨entries, completions, ring, refusals, hsetup, hring⟩ := h.ring
  have heq := (Worker.of_ofPool hworker).2
  have hinbox : v.worker.inbox = [] := congrArg Worker.inbox heq
  have hstopping : v.worker.stopping = false := congrArg Worker.stopping heq
  constructor
  · exact congrArg Worker.exited heq
  · exact ⟨0, fun k _ => h.progress k⟩
  · rw [hring]
    exact Ring.tidy_of_setup hsetup refusals
  · rw [h.counter]
  · rw [h.owners, hinbox]
    rfl
  · simp [hstopping, h.stoppers]
  · simp [h.owners, h.stoppers]
  · simp [h.stage]
  · intro k _ hrung
    rw [h.progress] at hrung
    cases hrung

/-- Where a ring has as many wake-up completions as before, the loop is as alert as before. -/
theorem alert_ring {ring : Ring} (halert : v.Alert) (hwake : ring.hasWake = v.ring.hasWake) :
    ({ v with ring } : Vigil).Alert := by
  rcases halert with hcount | hhas
  · exact .inl hcount
  · exact .inr (hwake.trans hhas)

/-- A loop that went on to wait, or is about to, sees no less than before. -/
theorem unseen_of {stage : LoopStage} {k : Nat} (hunseen : ({ v with stage } : Vigil).Unseen k)
    (hstage : v.stage.waitsBlindly = true) : v.Unseen k := by
  rcases hunseen with ⟨hk, -⟩ | ⟨hk, -, hnone⟩
  · exact .inl ⟨hk, LoopStage.waitsFirst_of_waitsBlindly hstage⟩
  · exact .inr ⟨hk, hstage, hnone⟩

theorem loop (h : v.Guarded) (hstep : v.LoopStep v') : v'.Guarded := by
  cases hstep with
  | beginDrain deadline hstage hstop =>
    refine { h with waiting := fun hwait => ?_, alert := fun k hunseen hrung => h.alert k ?_ hrung }
    · exact absurd (hstage.symm.trans hwait) (by decide)
    · rcases hunseen with ⟨hk, hfirst⟩ | ⟨-, -, hnone⟩
      · exact .inl ⟨hk, hfirst⟩
      · cases hnone
  | check hstage hstop =>
    refine { h with waiting := (by rintro ⟨⟩), alert := fun k hunseen hrung => h.alert k ?_ hrung }
    rcases hunseen with ⟨hk, -⟩ | ⟨hk, -, hnone⟩
    · left
      rw [hstage]
      exact ⟨hk, rfl⟩
    · -- nobody has asked the worker to stop, or the drain would begin
      have hstopping : v.worker.stopping = true := h.asked.2 (List.ne_nil_of_mem hk)
      replace hnone : v.worker.deadline = none := hnone
      rw [Worker.isToDrain, hnone, hstopping] at hstop
      cases hstop
  | finish hstage hdrain =>
    exact { h with waiting := (by rintro ⟨⟩), alert := fun k hunseen => absurd hunseen (not_unseen rfl rfl) }
  | arm hstage =>
    obtain ⟨htidy, hwake⟩ := h.tidy.arm
    refine { h with tidy := htidy, waiting := (by rintro ⟨⟩), alert := fun k hunseen hrung => alert_ring ?_ hwake }
    exact h.alert k (unseen_of hunseen (by rw [hstage]; rfl)) hrung
  | armFails hstage =>
    refine { h with waiting := (by rintro ⟨⟩), alert := fun k hunseen hrung => ?_ }
    exact h.alert k (unseen_of hunseen (by rw [hstage]; rfl)) hrung
  | @submit n ring block hstage henter =>
    obtain ⟨hadds, harmed⟩ := v.ring.adds_enter
    have htidy := h.tidy.enter
    rw [henter] at hadds harmed htidy
    obtain ⟨htidy', hwake⟩ := htidy.moveUp
    refine { h with tidy := htidy', waiting := fun hwait => ?_, alert := fun k hunseen hrung => ?_ }
    · have hleast : v.worker.waitsFor block v.ring.armed ≠ 0 := by
        intro hzero
        dsimp only at hwait
        rw [if_pos hzero] at hwait
        cases hwait
      -- the read that the ring believes in was handed over with the rest of the queue
      obtain ⟨hnone, hread⟩ := Worker.sure_of_waitsFor hleast
      have hempty : ring.submission = [] := Ring.submission_enter henter
      exact ⟨hempty, harmed.trans hread, hnone, Ring.inPlace_moveUp htidy.room⟩
    · refine alert_ring ?_ (hwake.trans hadds.hasWake)
      exact h.alert k (unseen_of hunseen (by rw [hstage]; rfl)) hrung
  | submitFails hstage henter =>
    -- from the end of the wait to the next look at the flag nothing counts as unseen
    have htidy := h.tidy.enter
    rw [henter] at htidy
    exact { h with
      tidy := htidy, waiting := (by rintro ⟨⟩), alert := fun k hunseen => absurd hunseen (not_unseen rfl rfl) }
  | submitPart count hstage =>
    have htidy := h.tidy.fetch count
    exact { h with
      tidy := ⟨⟨htidy.nodup, htidy.handed⟩, htidy.wake, htidy.single, htidy.room⟩, waiting := (by rintro ⟨⟩),
      alert := fun k hunseen => absurd hunseen (not_unseen rfl rfl) }
  | woken hstage hready =>
    exact { h with waiting := (by rintro ⟨⟩), alert := fun k hunseen => absurd hunseen (not_unseen rfl rfl) }
  | interrupted hstage =>
    exact { h with waiting := (by rintro ⟨⟩), alert := fun k hunseen => absurd hunseen (not_unseen rfl rfl) }
  | poll hstage =>
    refine { h with
      tidy := h.tidy.poll _, waiting := fun hwait => ?_, alert := fun k hunseen => absurd hunseen (not_unseen ?_ ?_) }
    · dsimp only at hwait
      split at hwait <;> cases hwait
    · dsimp only
      split <;> rfl
    · dsimp only
      split <;> rfl
  | @pop c inbox hstage hinbox =>
    refine { h with
      paired := ?_, present := fun k hk => h.present k (hk.imp_left List.mem_of_mem_tail), waiting := fun hwait => ?_,
      alert := fun k hunseen => absurd hunseen (not_unseen ?_ ?_) }
    · have hpaired := h.paired
      rw [hinbox, List.length_cons] at hpaired
      show v.owners.tail.length = inbox.length
      rw [List.length_tail]
      omega
    · exact absurd (hstage.symm.trans hwait) (by decide)
    · show v.stage.waitsFirst = false
      rw [hstage]
      rfl
    · show v.stage.waitsBlindly = false
      rw [hstage]
      rfl
  | emptied hstage hinbox =>
    refine { h with waiting := (by rintro ⟨⟩), alert := fun k hunseen hrung => ?_ }
    have howners : v.owners = [] := by
      apply List.eq_nil_of_length_eq_zero
      rw [h.paired, hinbox]
      rfl
    rcases hunseen with ⟨hk, -⟩ | ⟨-, hblind, -⟩
    · replace hk : k ∈ v.owners := hk
      rw [howners] at hk
      cases hk
    · cases hblind
  | @push op slot hstage hop =>
    have hctx : op.ctx.isWake = false := by
      rw [hop]
      exact Context.isWake_ofSlot slot
    obtain ⟨htidy, hwake⟩ := h.tidy.push hctx
    refine { h with
      tidy := htidy, waiting := fun hwait => absurd hwait hstage,
      alert := fun k hunseen hrung => alert_ring (h.alert k hunseen hrung) hwake }

theorem kernel (h : v.Guarded) (hstep : v.KernelStep v') : v'.Guarded := by
  cases hstep with
  | @answer number e he hop result =>
    obtain ⟨htidy, hwake⟩ := h.tidy.complete he result
    obtain ⟨hsubmission, -, -, harmed, -, -⟩ := Ring.complete_keeps h.tidy.toNumbered he result
    refine { h with tidy := htidy, waiting := fun hwait => ?_, alert := fun k hunseen hrung => ?_ }
    · obtain ⟨hnil, hread, hnone, hplace⟩ := h.waiting hwait
      exact ⟨hsubmission.trans hnil, harmed.trans hread, hnone, hplace.complete h.tidy.room number result⟩
    · apply alert_ring (h.alert k hunseen hrung)
      rw [hwake, hop, Bool.or_false]
  | @wake number n e counter he hread hcount =>
    obtain ⟨htidy, hwake⟩ := h.tidy.complete he (Int32.ofNat EventCounter.wordBytes)
    obtain ⟨hsubmission, -, -, harmed, -, -⟩ :=
      Ring.complete_keeps h.tidy.toNumbered he (Int32.ofNat EventCounter.wordBytes)
    rw [hread, Bool.or_true] at hwake
    refine { h with
      tidy := htidy, opened := (EventCounter.isOpen_read hcount).trans h.opened, waiting := fun hwait => ?_,
      alert := fun _ _ _ => .inr hwake }
    obtain ⟨hnil, hread, hnone, hplace⟩ := h.waiting hwait
    exact ⟨hsubmission.trans hnil, harmed.trans hread, hnone, hplace.complete h.tidy.room number _⟩
  | moveUp =>
    obtain ⟨htidy, hwake⟩ := h.tidy.moveUp
    refine { h with
      tidy := htidy, waiting := fun hwait => ?_,
      alert := fun k hunseen hrung => alert_ring (h.alert k hunseen hrung) hwake }
    obtain ⟨hnil, hread, hnone, -⟩ := h.waiting hwait
    exact ⟨hnil, hread, hnone, Ring.inPlace_moveUp h.tidy.room⟩
  | fetch count =>
    refine { h with
      tidy := h.tidy.fetch count, waiting := fun hwait => ?_,
      alert := fun k hunseen hrung => alert_ring (h.alert k hunseen hrung) rfl }
    obtain ⟨hnil, hread, hnone, hplace⟩ := h.waiting hwait
    refine ⟨?_, hread, hnone, hplace⟩
    show v.ring.submission.drop count = []
    rw [hnil, List.drop_nil]

theorem fresh_update {progress : Nat → Progress} (h : ∃ n, ∀ k, n ≤ k → progress k = .outside) (k : Nat)
    (p : Progress) : ∃ n, ∀ j, n ≤ j → Function.update progress k p j = .outside := by
  obtain ⟨n, hfresh⟩ := h
  refine ⟨max n (k + 1), fun j hj => ?_⟩
  rw [Function.update_of_ne (by omega)]
  exact hfresh j (by omega)

theorem ne_outside_update {progress : Nat → Progress} {k j : Nat} {p : Progress} (hp : p ≠ .outside)
    (hj : j ≠ k → progress j ≠ .outside) : Function.update progress k p j ≠ .outside := by
  by_cases hjk : j = k
  · rw [hjk, Function.update_self]
    exact hp
  · rw [Function.update_of_ne hjk]
    exact hj hjk

theorem rung_of_update {progress : Nat → Progress} {k j : Nat} (h : Function.update progress k .pushed j = .rung) :
    j ≠ k ∧ progress j = .rung := by
  by_cases hjk : j = k
  · rw [hjk, Function.update_self] at h
    cases h
  · rw [Function.update_of_ne hjk] at h
    exact ⟨hjk, h⟩

theorem submitter (h : v.Guarded) (hstep : v.SubmitterStep v') : v'.Guarded := by
  cases hstep with
  | @push k c hfirst hroom =>
    refine { h with
      fresh := fresh_update h.fresh k _, paired := ?_,
      present := fun j hj => ne_outside_update nofun fun hne => ?_, alert := fun j hunseen hrung => ?_ }
    · show (v.owners ++ [k]).length = (v.worker.inbox ++ [c]).length
      rw [List.length_append, List.length_append, h.paired]
      rfl
    · apply h.present j
      simpa [hne] using hj
    · obtain ⟨hne, hrung'⟩ := rung_of_update hrung
      refine h.alert j ?_ hrung'
      simpa [Unseen, hne] using hunseen
  | @stop k hfirst =>
    refine { h with
      fresh := fresh_update h.fresh k _, asked := ?_,
      present := fun j hj => ne_outside_update nofun fun hne => ?_, alert := fun j hunseen hrung => ?_ }
    · simp
    · apply h.present j
      simpa [hne] using hj
    · obtain ⟨hne, hrung'⟩ := rung_of_update hrung
      refine h.alert j ?_ hrung'
      simpa [Unseen, hne] using hunseen
  | @ring k hnext =>
    obtain ⟨hopened, hcount⟩ := EventCounter.notify_pos h.opened
    exact { h with
      fresh := fresh_update h.fresh k _, opened := hopened,
      present := fun j hj => ne_outside_update nofun fun _ => h.present j hj,
      alert := fun _ _ _ => .inl hcount }

theorem step (h : v.Guarded) (hstep : v.Step v') : v'.Guarded := by
  cases hstep with
  | loop hstep => exact h.loop hstep
  | kernel hstep => exact h.kernel hstep
  | submitter hstep => exact h.submitter hstep
  | @aside w hbides hexited =>
    refine { h with
      exited := hexited.trans h.exited, paired := ?_, asked := ?_, waiting := fun hwait => ?_,
      alert := fun k hunseen hrung => h.alert k ?_ hrung }
    · rw [hbides.inbox]
      exact h.paired
    · rw [hbides.stopping]
      exact h.asked
    · rw [hbides.deadline]
      exact h.waiting hwait
    · exact hunseen.imp_right fun ⟨hk, hblind, hnone⟩ => ⟨hk, hblind, hbides.deadline.symm.trans hnone⟩

end Guarded

/-! ## No wake-up is lost -/

/-- The loop waits, and nothing is there that ends its wait. -/
def Blocked (v : Vigil) : Prop := v.stage = .waiting ∧ v.ring.completion = []

/-- A loop that waits is woken for everything that was left for it. -/
structure Wakeful (v : Vigil) : Prop where
  /-- At most one wake-up read is outstanding. -/
  single : v.ring.wakeReads ≤ 1
  /-- A loop that is blocked has a wake-up read with the kernel. -/
  watched : v.Blocked → v.ring.holdsWake = true
  /-- A wake-up completion ends the wait. -/
  ready : v.stage = .waiting → v.ring.hasWake = true → v.ring.completion ≠ []
  /-- Every command of the inbox is some submitter's. -/
  paired : v.owners.length = v.worker.inbox.length
  asked : v.worker.stopping = true ↔ v.stoppers ≠ []
  /-- Nothing was left, or the wake-up completion is there or will be made from what was counted, or nobody has rung yet
  who has left something. -/
  unlost : v.stage = .waiting →
    v.worker.inbox = [] ∧ v.worker.stopping = false ∨ v.ring.hasWake = true ∨
      v.ring.holdsWake = true ∧ 0 < v.counter.count ∨ ∀ k, k ∈ v.owners ∨ k ∈ v.stoppers → v.progress k = .pushed
  /-- The kernel can end the wait of a blocked loop as soon as someone has rung who has left something. -/
  roused : v.Blocked → ∀ k, k ∈ v.owners ∨ k ∈ v.stoppers → v.progress k = .rung →
    ∃ v', v.KernelStep v' ∧ v'.ring.completion ≠ []

namespace Guarded

variable {v : Vigil}

/-- While the loop waits, nothing that was left was seen. -/
theorem unseen_waiting (h : v.Guarded) (hwait : v.stage = .waiting) {k : Nat} (hk : k ∈ v.owners ∨ k ∈ v.stoppers) :
    v.Unseen k := by
  obtain ⟨-, -, hnone, -⟩ := h.waiting hwait
  have hblind : v.stage.waitsBlindly = true := by
    rw [hwait]
    rfl
  exact hk.imp (fun hk => ⟨hk, LoopStage.waitsFirst_of_waitsBlindly hblind⟩) fun hk => ⟨hk, hblind, hnone⟩

/-- A wake-up completion is in its place while the loop waits. -/
theorem ready (h : v.Guarded) (hwait : v.stage = .waiting) (hwake : v.ring.hasWake = true) :
    v.ring.completion ≠ [] := by
  obtain ⟨-, -, -, hplace⟩ := h.waiting hwait
  intro hnil
  rw [Ring.hasWake, Ring.answers, hnil, hplace hnil] at hwake
  cases hwake

theorem watched (h : v.Guarded) (hblocked : v.Blocked) : v.ring.holdsWake = true := by
  obtain ⟨hwait, hnil⟩ := hblocked
  obtain ⟨hsubmission, harmed, -, -⟩ := h.waiting hwait
  rcases h.tidy.here harmed hsubmission with hholds | hhas
  · exact hholds
  · exact absurd hnil (h.ready hwait hhas)

/-- Where someone has rung, the wake-up completion is there or on its way. -/
theorem woken (h : v.Guarded) (hwait : v.stage = .waiting) {k : Nat} (hk : k ∈ v.owners ∨ k ∈ v.stoppers)
    (hrung : v.progress k = .rung) : v.ring.hasWake = true ∨ v.ring.holdsWake = true ∧ 0 < v.counter.count := by
  obtain ⟨hsubmission, harmed, -, -⟩ := h.waiting hwait
  rcases h.alert k (h.unseen_waiting hwait hk) hrung with hcount | hhas
  · exact (h.tidy.here harmed hsubmission).elim (fun hholds => .inr ⟨hholds, hcount⟩) .inl
  · exact .inl hhas

theorem unlost (h : v.Guarded) (hwait : v.stage = .waiting) :
    v.ring.hasWake = true ∨ v.ring.holdsWake = true ∧ 0 < v.counter.count ∨
      ∀ k, k ∈ v.owners ∨ k ∈ v.stoppers → v.progress k = .pushed := by
  by_cases hrung : ∃ k, (k ∈ v.owners ∨ k ∈ v.stoppers) ∧ v.progress k = .rung
  · obtain ⟨k, hk, hrung⟩ := hrung
    exact (h.woken hwait hk hrung).imp_right .inl
  · refine .inr (.inr fun k hk => ?_)
    cases hp : v.progress k with
    | outside => exact absurd hp (h.present k hk)
    | pushed => rfl
    | rung => exact absurd ⟨k, hk, hp⟩ hrung

theorem roused (h : v.Guarded) (hblocked : v.Blocked) {k : Nat} (hk : k ∈ v.owners ∨ k ∈ v.stoppers)
    (hrung : v.progress k = .rung) : ∃ v', v.KernelStep v' ∧ v'.ring.completion ≠ [] := by
  obtain ⟨hwait, hnil⟩ := hblocked
  rcases h.woken hwait hk hrung with hhas | ⟨hholds, hcount⟩
  · exact absurd hnil (h.ready hwait hhas)
  · obtain ⟨⟨number, e⟩, he, hread⟩ := List.any_eq_true.1 hholds
    have hstep := KernelStep.wake he hread (EventCounter.read_counted h.opened hcount)
    refine ⟨_, hstep, (h.kernel hstep).ready hwait ?_⟩
    rw [(h.tidy.complete he _).2, hread, Bool.or_true]

/-- No wake-up is lost. -/
theorem attentive (h : v.Guarded) : v.Wakeful where
  single := h.tidy.le_one
  watched := h.watched
  ready := h.ready
  paired := h.paired
  asked := h.asked
  unlost hwait := .inr (h.unlost hwait)
  roused hblocked _ := h.roused hblocked

end Guarded

end Vigil

/-- A vigil that came about by steps of the loop, the kernel and the submitters, in any order. -/
def VigilRun (v : Vigil) : Prop := ∃ v₀ : Vigil, v₀.Starts ∧ Relation.ReflTransGen Vigil.Step v₀ v

namespace VigilRun

variable {v : Vigil}

theorem guarded (h : VigilRun v) : v.Guarded := by
  obtain ⟨v₀, hstarts, hsteps⟩ := h
  induction hsteps with
  | refl => exact .of_starts hstarts
  | tail _ hstep ih => exact ih.step hstep

/-- A worker of one slot, with a ring of one place. -/
def small : Vigil where
  worker := {
    id := 0
    slots := [{ index := 0, receiveHalf := ⟨0, 0, 1⟩, sendHalf := ⟨0, 1, 1⟩ }]
    free := [0]
    pool := ⟨2, 1, 0, true, fun _ => 0⟩
    useNagle := true
    batch := 1
    grace := 0 }
  ring := { capacity := 1, completionCapacity := 2 }

theorem small_starts : small.Starts where
  worker := ⟨0, { receiveLength := 1, sendLength := 1, useNagle := true, batch := 1, grace := 0 }, .usual,
    ⟨2, 1, 0, true, fun _ => 0⟩, rfl⟩
  ring := ⟨1, none, small.ring, fun _ => none, rfl, rfl⟩
  counter := rfl
  stage := rfl
  progress _ := rfl
  owners := rfl
  stoppers := rfl

end VigilRun

end SlotServer
