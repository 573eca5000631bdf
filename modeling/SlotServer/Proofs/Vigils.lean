import SlotServer.Proofs.HandOver
import SlotServer.Proofs.RingBooks
import SlotServer.Proofs.Wakeups

/-!
# The program behind a vigil

The steps of a vigil are those that the program takes. What the loop does from one stage of its turn to the next, and
what anybody does who calls the worker, is done by steps of the vigil too; what the program records of the operations
that it queues and of the wake-up counter comes to the ring and the counter of the vigil. Others may step in wherever
the vigil lets them, between the stages and within them.

- `Ring.heed`, `EventCounter.heed`: a ring and a counter after what was recorded;
- `Vigil.Heeds`: steps of a vigil that come to this, and `Vigil.Guarded.heeds_makes`: a program's steps;
- `Kernel.Voices`: a kernel that answers the loop as a ring does (`Ring.voices_voice`: every ring has one);
- `Vigil.Guarded.passes`: a stage of the loop is a step of the vigil's loop, with what follows from it;
- `Vigil.Guarded.rings_submit`, `Vigil.Guarded.rings_stop`: who leaves something for the loop rings after that;
- `Watch.Step`: what the program does next, with its ring and its counter, and `Vigil.Guarded.follows`: so does a vigil;
- `VigilRun.wakeful`: no wake-up is lost, and the steps are the program's;
- `Watch.Runs.vigil`, `Watch.Runs.unlost`: every run of the program is one of a vigil, and its loop loses no wake-up.
-/

namespace SlotServer

variable {α β : Type} {serve : Run.Serve α} {block : Bool} {m m' : Machine α} {since : List Event}

/-! ## What a record comes to -/

/-- The event tells of an operation for the ring, or of its wake-up counter. -/
def Event.isHeeded : Event → Bool
  | queued _ | refused .. | rung => true
  | _ => false

/-- The ring after the operations that were recorded, whether it took them or not. -/
def Ring.heed (r : Ring) : List Event → Ring
  | [] => r
  | e :: h =>
    match e with
    | .queued op | .refused op _ => ((r.heed h).push op).2
    | _ => r.heed h

/-- The counter after it was rung as often as was recorded. -/
def EventCounter.heed (c : EventCounter) : List Event → EventCounter
  | [] => c
  | e :: h =>
    match e with
    | .rung => (c.heed h).notify.2
    | _ => c.heed h

theorem Ring.heed_append (r : Ring) (h h' : List Event) : r.heed (h ++ h') = (r.heed h').heed h := by
  induction h with
  | nil => rfl
  | cons e h ih => cases e <;> simp only [List.cons_append, heed, ih]

theorem EventCounter.heed_append (c : EventCounter) (h h' : List Event) :
    c.heed (h ++ h') = (c.heed h').heed h := by
  induction h with
  | nil => rfl
  | cons e h ih => cases e <;> simp only [List.cons_append, heed, ih]

theorem Ring.heed_quiet (r : Ring) (h : ∀ e ∈ since, e.isHeeded = false) : r.heed since = r := by
  induction since with
  | nil => rfl
  | cons e since ih =>
    have hrest := ih fun e he => h e (List.mem_cons_of_mem _ he)
    have hfirst := h e List.mem_cons_self
    cases e <;> first | exact hrest | cases hfirst

theorem EventCounter.heed_quiet (c : EventCounter) (h : ∀ e ∈ since, e.isHeeded = false) : c.heed since = c := by
  induction since with
  | nil => rfl
  | cons e since ih =>
    have hrest := ih fun e he => h e (List.mem_cons_of_mem _ he)
    have hfirst := h e List.mem_cons_self
    cases e <;> first | exact hrest | cases hfirst

theorem Event.not_heeded_of_remark {e : Event} (he : e.isRemark = true) : e.isHeeded = false := by
  cases e <;> first | rfl | cases he

/-! ## Steps of a vigil -/

/-- By steps of the vigil, the worker is now `w`, and what was recorded has come to the ring and to the counter. The
loop stands where it stood, and so does everyone who had come in before. Whoever came in meanwhile has rung too. -/
structure Vigil.Heeds (v : Vigil) (since : List Event) (w : Worker) (v' : Vigil) : Prop where
  steps : Relation.ReflTransGen Vigil.Step v v'
  worker : v'.worker = w
  ring : v'.ring = v.ring.heed since
  counter : v'.counter = v.counter.heed since
  stage : v'.stage = v.stage
  owners : v.owners <+: v'.owners
  stoppers : v'.stoppers = v.stoppers
  progress : ∀ k, v.progress k ≠ .outside → v'.progress k = v.progress k
  rung : ∀ k, v.progress k = .outside → v'.progress k = .outside ∨ v'.progress k = .rung

namespace Vigil

variable {v v' : Vigil} {w : Worker}

namespace Heeds

/-- Something is recorded, and nothing changes. -/
theorem stays (hworker : v.worker = w) (hsince : ∀ e ∈ since, e.isHeeded = false) : v.Heeds since w v where
  steps := .refl
  worker := hworker
  ring := (v.ring.heed_quiet hsince).symm
  counter := (v.counter.heed_quiet hsince).symm
  stage := rfl
  owners := List.prefix_rfl
  stoppers := rfl
  progress _ _ := rfl
  rung _ hk := .inl hk

theorem trans {since' : List Event} {w' : Worker} {v'' : Vigil} (h : v.Heeds since w v')
    (h' : v'.Heeds since' w' v'') : v.Heeds (since' ++ since) w' v'' where
  steps := h.steps.trans h'.steps
  worker := h'.worker
  ring := by rw [h'.ring, h.ring, Ring.heed_append]
  counter := by rw [h'.counter, h.counter, EventCounter.heed_append]
  stage := h'.stage.trans h.stage
  owners := h.owners.trans h'.owners
  stoppers := h'.stoppers.trans h.stoppers
  progress k hk := by
    have hsame := h.progress k hk
    exact (h'.progress k (by rwa [hsame])).trans hsame
  rung k hk := by
    rcases h.rung k hk with hout | hrung
    · exact h'.rung k hout
    · exact .inr ((h'.progress k (by rw [hrung]; exact nofun)).trans hrung)

/-- Nothing of what the loop goes by changes. -/
theorem aside (hbides : v.worker.Bides w) (hexited : w.exited = v.worker.exited)
    (hsince : ∀ e ∈ since, e.isHeeded = false) : v.Heeds since w { v with worker := w } :=
  { stays (v := { v with worker := w }) rfl hsince with steps := .single (.aside hbides hexited) }

end Heeds

namespace Guarded

theorem steps (h : v.Guarded) (hsteps : Relation.ReflTransGen Step v v') : v'.Guarded := by
  induction hsteps with
  | refl => exact h
  | tail _ hstep ih => exact ih.step hstep

/-- A command finds a place and the counter is rung, by someone who has not come in yet. -/
theorem heeds_handOver (h : v.Guarded) (c : Command) (hroom : v.worker.inboxFull = false) :
    ∃ v', v.Heeds [.rung] { v.worker with inbox := v.worker.inbox ++ [c] } v' := by
  obtain ⟨n, hfresh⟩ := h.fresh
  have hout : v.progress n = .outside := hfresh n (Nat.le_refl n)
  have hpush : v.SubmitterStep _ := .push c hout hroom
  refine ⟨_, .tail (.single (.submitter hpush)) (.submitter (.ring (k := n) (Function.update_self ..))),
    rfl, rfl, rfl, rfl, List.prefix_append .., rfl, fun k hk => ?_, fun k hk => ?_⟩
  · have hne : k ≠ n := by
      rintro rfl
      exact hk hout
    show Function.update (Function.update v.progress n .pushed) n .rung k = v.progress k
    rw [Function.update_of_ne hne, Function.update_of_ne hne]
  · show Function.update (Function.update v.progress n .pushed) n .rung k = _ ∨
      Function.update (Function.update v.progress n .pushed) n .rung k = _
    by_cases hkn : k = n
    · rw [hkn, Function.update_self]
      exact .inr rfl
    · rw [Function.update_of_ne hkn, Function.update_of_ne hkn]
      exact .inl hk

/-- A change of a call or of a stage is a step of the vigil. While the loop waits, no stage changes anything. -/
theorem heeds_change {part : Part} (h : v.Guarded) (hworker : v.worker = m.worker) (hchange : Change part m m')
    (hpart : part ≠ .all) (hstage : part = .stage → v.stage ≠ .waiting) :
    ∃ since v', m'.trace = since ++ m.trace ∧ v.Heeds since m'.worker v' := by
  have hlive : m.worker.exited = false := hworker ▸ h.exited
  have hslot : ∀ i s since, (∀ e ∈ since, e.isHeeded = false) →
      ∃ v', v.Heeds since (m.worker.setSlot i s) v' := fun i s since hsince =>
    ⟨_, .aside (hworker ▸ ⟨List.length_set, rfl, rfl, rfl, rfl⟩) (congrArg Worker.exited hworker).symm hsince⟩
  cases hchange with
  | @remark e he =>
    refine ⟨[e], v, rfl, .stays hworker fun e' he' => ?_⟩
    rw [List.mem_singleton.1 he']
    exact Event.not_heeded_of_remark he
  | aside _ hexited _ _ htrace hbides =>
    exact ⟨[], _, htrace, .aside (hworker ▸ hbides hpart hlive) (hworker ▸ hexited) nofun⟩
  | rung hall => exact absurd hall hpart
  | @handOver c kernel hroom =>
    obtain ⟨v', hheeds⟩ := h.heeds_handOver c (hworker ▸ hroom)
    exact ⟨_, v', rfl, hworker ▸ hheeds⟩
  | slot =>
    obtain ⟨v', hheeds⟩ := hslot _ _ [] nofun
    exact ⟨[], v', rfl, hheeds⟩
  | bind =>
    obtain ⟨v', hheeds⟩ := hslot _ _ [.bound _ _] (by simp [Event.isHeeded])
    exact ⟨_, v', rfl, hheeds⟩
  | receive =>
    obtain ⟨v', hheeds⟩ := hslot _ _ [.began _] (by simp [Event.isHeeded])
    exact ⟨_, v', rfl, hheeds⟩
  | send =>
    obtain ⟨v', hheeds⟩ := hslot _ _ [.began _, .asked _] (by simp [Event.isHeeded])
    exact ⟨_, v', rfl, hheeds⟩
  | @push i s op kernel answer _ hs hasks hcall =>
    have hctx : ∃ slot, op.ctx = .ofSlot slot := by
      rcases hasks with ⟨half, rfl⟩ | rfl
      · exact ⟨i, by cases half <;> rfl⟩
      · exact ⟨s.index, rfl⟩
    obtain ⟨slot, hop⟩ := hctx
    have hstand : v.stage ≠ .waiting := by
      cases part with
      | call => exact absurd rfl hcall
      | stage => exact hstage rfl
      | all => exact absurd rfl hpart
    have hstep : v.LoopStep _ := .push slot hstand hop
    refine ⟨[.ofPush op answer], _, rfl, .single (.loop hstep), hworker, ?_, ?_, rfl, List.prefix_rfl, rfl,
      fun _ _ => rfl, fun _ hk => .inl hk⟩ <;> cases answer <;> rfl
  | submit _ hall => exact absurd hall hpart
  | deregister hexited => exact absurd (hlive.symm.trans hexited) Bool.false_ne_true
  | release hexited => exact absurd (hlive.symm.trans hexited) Bool.false_ne_true

theorem heeds_changes {part : Part} (h : v.Guarded) (hworker : v.worker = m.worker) (hchanges : Changes part m m')
    (hpart : part ≠ .all) (hstage : part = .stage → v.stage ≠ .waiting) :
    ∃ since v', m'.trace = since ++ m.trace ∧ v.Heeds since m'.worker v' := by
  induction hchanges with
  | refl => exact ⟨[], v, rfl, .stays hworker nofun⟩
  | tail _ hchange ih =>
    obtain ⟨since, v₁, htrace, hheeds⟩ := ih
    obtain ⟨more, v₂, htrace', hheeds'⟩ := (h.steps hheeds.steps).heeds_change hheeds.worker hchange hpart
      fun hpart => hheeds.stage.symm ▸ hstage hpart
    exact ⟨more ++ since, v₂, by rw [htrace', htrace, List.append_assoc], hheeds.trans hheeds'⟩

/-- A program that makes the changes of a call or of a stage takes steps of the vigil. -/
theorem heeds_makes {x : Run α β} {b : β} (h : v.Guarded) (part : Part) (hworker : v.worker = m.worker)
    (hx : Makes part (· = false) x) (hpart : part ≠ .all) (hstage : part = .stage → v.stage ≠ .waiting)
    (hrun : x m = .ok b m') : ∃ since v', m'.trace = since ++ m.trace ∧ v.Heeds since m'.worker v' :=
  h.heeds_changes hworker (hx m (hworker ▸ h.exited) b m' hrun) hpart hstage

end Guarded

end Vigil

/-! ## A kernel for a ring -/

/-- The kernel answers the loop as the ring does: whether a wake-up read is outstanding, whether the queue is handed
over, and what a batch holds. -/
structure Kernel.Voices (k : Kernel) (r : Ring) : Prop where
  armed : k.armed = r.armed
  submit : (k.ask .submit).1 = r.enter.1.map fun _ => ()
  harvest : ∀ most, (k.harvest most).1 = (r.poll most).1

namespace Ring

/-- A kernel that answers as the ring does. -/
def voice (r : Ring) : Kernel where
  schedule _ _ :=
    match r.enter.1 with
    | .ok _ => none
    | .error e => some e
  armed := r.armed
  ready := r.completion.filter (·.isOp)

/-- A batch holds the first completions of operations. -/
theorem take_ops (r : Ring) (most : Nat) : (r.completion.filter (·.isOp)).take most = (r.poll most).1 := by
  obtain ⟨hparts, -, hlength, hemptied⟩ := takeOff_spec most r.completion r.armed
  show _ = (takeOff most r.completion r.armed).1
  rw [hparts]
  rcases Nat.lt_or_eq_of_le hlength with hshort | hfull
  · rw [hemptied hshort, List.filter_nil, List.append_nil, List.take_of_length_le hlength]
  · exact List.take_left' hfull

theorem voices_voice (r : Ring) : r.voice.Voices r where
  armed := rfl
  submit := by
    unfold Kernel.ask voice
    dsimp only
    cases r.enter.1 <;> rfl
  harvest := r.take_ops

end Ring

/-! ## The stages of the loop -/

/-- What the loop asks of its ring at a stage, before what it queues there. -/
def Ring.atStage (r : Ring) (most : Nat) : LoopStage → Ring
  | .arm => r.arm.2
  | .submit =>
    match r.enter with
    | (.ok _, r) => r.moveUp
    | (.error _, r) => r
  | .harvest => (r.poll most).2
  | _ => r

/-- Handing over the queue leaves the worker as it is, and nothing that it writes down is heeded. -/
theorem Run.unheeded_submitQueue (hrun : submitQueue block m = .ok () m') :
    m'.worker = m.worker ∧ ∃ since, m'.trace = since ++ m.trace ∧ ∀ e ∈ since, e.isHeeded = false := by
  obtain ⟨hsame, least, said, htrace, hsaid⟩ := of_submitQueue hrun
  refine ⟨hsame, said ++ [.submitted least], by rw [htrace, List.append_assoc]; rfl, fun e he => ?_⟩
  rcases List.mem_append.1 he with he | he
  · obtain ⟨level, line, rfl⟩ := hsaid e he
    rfl
  · cases List.mem_singleton.1 he
    rfl

namespace Vigil.Guarded

variable {v : Vigil} {stage : LoopStage}

/-- To hand the queue over is a step, after which the vigil's loop waits just if the program does. -/
theorem handsOver (hworker : v.worker = m.worker) (hkernel : m.kernel.Voices v.ring) (hs : v.stage = .submit)
    (hrun : Run.submitQueue block m = .ok () m') :
    ∃ v₁ since, v.LoopStep v₁ ∧ (m.Waits block → v₁.stage = .waiting) ∧ (¬ m.Waits block → v₁.stage = .harvest) ∧
      v₁.ring = v.ring.atStage v.worker.batch .submit ∧ m'.trace = since ++ m.trace ∧ v₁.Heeds since m'.worker v₁ := by
  obtain ⟨hsame, since, htrace, hquiet⟩ := Run.unheeded_submitQueue hrun
  have hanswer := hkernel.submit
  cases henter : v.ring.enter with
  | mk answer ring =>
    rw [henter] at hanswer
    have hheeds : ∀ v₁ : Vigil, v₁.worker = v.worker → v₁.Heeds since m'.worker v₁ := fun v₁ h₁ =>
      .stays (h₁.trans (hworker.trans hsame.symm)) hquiet
    cases answer with
    | error e =>
      refine ⟨_, since, .submitFails hs henter, fun hwaits => ?_, fun _ => rfl, ?_, htrace, hheeds _ rfl⟩
      · cases hanswer.symm.trans hwaits.1
      · simp only [Ring.atStage, henter]
    | ok n =>
      refine ⟨_, since, .submit block hs henter, fun hwaits => if_neg ?_, fun hwaits => if_pos ?_, ?_, htrace,
        hheeds _ rfl⟩
      · rw [hworker, ← hkernel.armed]
        exact hwaits.2
      · rw [hworker, ← hkernel.armed]
        by_contra hleast
        exact hwaits ⟨hanswer, hleast⟩
      · simp only [Ring.atStage, henter]

/-- A stage of the loop is a step of the vigil's loop, with steps that follow from it. -/
theorem passes (h : v.Guarded) (hserve : ∀ i, Makes .stage (fun _ => True) (serve i)) (hworker : v.worker = m.worker)
    (hkernel : m.kernel.Voices v.ring) (hpass : Passes serve block (v.stage, m) (stage, m')) :
    ∃ v₁ since v', v.LoopStep v₁ ∧ v₁.stage = stage ∧ v₁.ring = v.ring.atStage v.worker.batch v.stage ∧
      m'.trace = since ++ m.trace ∧ v₁.Heeds since m'.worker v' := by
  generalize hs : v.stage = s at hpass ⊢
  cases hpass with
  | beginDrain hstop hrun =>
    rw [Run.beginDrain_run (Run.not_overlong_of_beginDrain hrun)] at hrun
    have hstep : v.LoopStep _ := .beginDrain (m.kernel.now + m.worker.grace) hs (hworker ▸ hstop)
    obtain ⟨since, v', htrace, hheeds⟩ := (h.loop hstep).heeds_makes .stage (by rw [hworker])
      (Makes.drainSlots Part.stage_ne_call) nofun (fun _ => by rw [hs]; exact nofun) hrun
    exact ⟨_, since, v', hstep, hs, rfl, htrace, hheeds⟩
  | check hstop hrun =>
    obtain rfl := Run.of_drained_false hrun
    exact ⟨_, [], _, .check hs (hworker ▸ hstop), rfl, rfl, rfl, .stays hworker nofun⟩
  | finish hstop hrun =>
    obtain ⟨deadline, said, hdeadline, -, -⟩ := Run.of_drained hrun
    have hdrain : v.worker.deadline.isSome = true := by rw [hworker, hdeadline]; rfl
    have hstep : v.LoopStep _ := .finish hs hdrain
    obtain ⟨since, v', htrace, hheeds⟩ := (h.loop hstep).heeds_makes .call hworker
      Makes.drained nofun nofun hrun
    exact ⟨_, since, v', hstep, rfl, rfl, htrace, hheeds⟩
  | arm hrun =>
    have hstep : v.LoopStep _ := .arm hs
    obtain ⟨since, v', htrace, hheeds⟩ := (h.loop hstep).heeds_makes .call hworker
      Makes.arm nofun nofun hrun
    exact ⟨_, since, v', hstep, rfl, rfl, htrace, hheeds⟩
  | submit hrun hwaits =>
    obtain ⟨v₁, since, hstep, -, hgoes, hring, htrace, hheeds⟩ := handsOver hworker hkernel hs hrun
    exact ⟨v₁, since, v₁, hstep, hgoes hwaits, hring, htrace, hheeds⟩
  | wait hrun hwaits =>
    obtain ⟨v₁, since, hstep, hstays, -, hring, htrace, hheeds⟩ := handsOver hworker hkernel hs hrun
    exact ⟨v₁, since, v₁, hstep, hstays hwaits, hring, htrace, hheeds⟩
  | woken => exact ⟨_, [], _, .interrupted hs, rfl, rfl, rfl, .stays hworker nofun⟩
  | batch hrun =>
    obtain ⟨rfl, hroutes⟩ := Run.of_takeBatch hrun
    have hbatch : (m.kernel.harvest m.worker.batch).1 = (v.ring.poll v.worker.batch).1 := by
      rw [hkernel.harvest, hworker]
    have hstep : v.LoopStep _ := .poll hs
    have hstand : (if (v.ring.poll v.worker.batch).1.length < v.worker.batch then .drain else .harvest) =
        if m.worker.batch ≤ (m.kernel.harvest m.worker.batch).1.length then LoopStage.harvest else .drain := by
      rw [hbatch, ← hworker]
      by_cases hfull : v.worker.batch ≤ (v.ring.poll v.worker.batch).1.length
      · rw [if_pos hfull, if_neg (Nat.not_lt.2 hfull)]
      · rw [if_neg hfull, if_pos (Nat.lt_of_not_le hfull)]
    have hwait : (if (v.ring.poll v.worker.batch).1.length < v.worker.batch then LoopStage.drain else .harvest) ≠
        .waiting := by split <;> exact nofun
    obtain ⟨since, v', htrace, hheeds⟩ := (h.loop hstep).heeds_makes .stage (m := { m with
      kernel := (m.kernel.harvest m.worker.batch).2
      trace := .polled :: m.trace }) hworker
      (Makes.forM (Makes.route Part.stage_ne_call)) nofun (fun _ => hwait) hroutes
    refine ⟨_, since ++ [.polled], v', hstep, hstand, rfl, ?_, .trans (.stays rfl (by simp [Event.isHeeded])) hheeds⟩
    rw [htrace, List.append_assoc]
    rfl
  | command hinbox hrun =>
    have hstep : v.LoopStep _ := .pop hs (hworker ▸ hinbox)
    obtain ⟨since, v', htrace, hheeds⟩ := (h.loop hstep).heeds_makes .stage (by rw [hworker])
      (Makes.execute Part.stage_ne_call hserve _) nofun (fun _ => by rw [hs]; exact nofun) hrun
    exact ⟨_, since, v', hstep, hs, rfl, htrace, hheeds⟩
  | emptied hinbox => exact ⟨_, [], _, .emptied hs (hworker ▸ hinbox), rfl, rfl, rfl, .stays hworker nofun⟩

end Vigil.Guarded

/-! ## Those who call the worker -/

/-- Where the loop is there, nobody else takes commands out. -/
theorem Run.settle_live (hlive : m.worker.exited = false) : (settle : Run α Unit) m = .ok () m := by
  show (if m.worker.exited then failOrphans else pure () : Run α Unit) m = _
  rw [hlive]
  rfl

/-- Handing a command to a worker whose loop is there puts it into the inbox, and rings the counter once. -/
theorem Run.of_submit {c : Command} (hlive : m.worker.exited = false) (hrun : submit c m = .ok () m') :
    m.worker.inboxFull = false ∧ m'.worker = { m.worker with inbox := m.worker.inbox ++ [c] } ∧
      ∃ since, m'.trace = since ++ .rung :: m.trace ∧ ∀ e ∈ since, e.isHeeded = false := by
  cases hfull : m.worker.inboxFull with
  | true =>
    rw [submit_full hfull, hlive] at hrun
    cases hrun
  | false =>
    rw [submit_placed c hfull] at hrun
    refine ⟨rfl, ?_⟩
    cases hanswer : (m.kernel.ask .notify).1 with
    | ok _ =>
      rw [hanswer] at hrun
      cases (settle_live (by exact hlive)).symm.trans hrun
      exact ⟨rfl, [], rfl, nofun⟩
    | error e =>
      rw [hanswer] at hrun
      obtain ⟨⟨⟩, m₁, hsaid, hrest⟩ := of_bind hrun
      obtain ⟨line, hsay⟩ := say_run .warn s!"notify failed: {e.message}" _
      cases hsay.symm.trans hsaid
      cases (settle_live (by exact hlive)).symm.trans hrest
      exact ⟨rfl, [.said .warn line], rfl, by simp [Event.isHeeded]⟩

/-- So does asking it to stop. -/
theorem Run.of_requestStop (hrun : requestStop m = .ok () m') :
    m'.worker = { m.worker with stopping := true } ∧
      ∃ since, m'.trace = since ++ .rung :: m.trace ∧ ∀ e ∈ since, e.isHeeded = false := by
  obtain ⟨⟨⟩, m₁, hstop, hrest⟩ := of_bind hrun
  cases hstop
  obtain ⟨answer, m₁, hrung, hrest⟩ := of_bind hrest
  obtain ⟨-, rfl⟩ := EStateM.Result.ok.inj hrung
  cases answer with
  | ok _ =>
    cases hrest
    exact ⟨rfl, [], rfl, nofun⟩
  | error e =>
    obtain ⟨line, hsay⟩ := say_run .warn s!"shutdown notify failed: {e.message}" _
    cases hsay.symm.trans hrest
    exact ⟨rfl, [.said .warn line], rfl, by simp [Event.isHeeded]⟩

namespace Vigil

variable {v : Vigil}

/-- What takes the worker from one machine to the other is two steps of a submitter: it leaves something for the loop,
and rings after that. -/
def Rings (v : Vigil) (k : Nat) (m m' : Machine α) : Prop :=
  ∃ v₁ v₂, v.SubmitterStep v₁ ∧ v₁.progress k = .pushed ∧ v₁.worker = m'.worker ∧
    v₁.SubmitterStep v₂ ∧ v₂.progress k = .rung ∧ v₂.worker = m'.worker ∧
    ∃ since, m'.trace = since ++ .rung :: m.trace ∧ ∀ e ∈ since, e.isHeeded = false

theorem Guarded.rings_submit (h : v.Guarded) {c : Command} {k : Nat} (hworker : v.worker = m.worker)
    (hfirst : v.progress k = .outside) (hrun : Run.submit c m = .ok () m') : v.Rings k m m' := by
  obtain ⟨hroom, hafter, hrecord⟩ := Run.of_submit (hworker ▸ h.exited) hrun
  have hpush : v.SubmitterStep _ := .push c hfirst (hworker ▸ hroom)
  have hsame : { v.worker with inbox := v.worker.inbox ++ [c] } = m'.worker := by rw [hworker, hafter]
  exact ⟨_, _, hpush, Function.update_self .., hsame, .ring (k := k) (Function.update_self ..),
    Function.update_self .., hsame, hrecord⟩

theorem rings_stop {k : Nat} (hworker : v.worker = m.worker) (hfirst : v.progress k = .outside)
    (hrun : Run.requestStop m = .ok () m') : v.Rings k m m' := by
  obtain ⟨hafter, hrecord⟩ := Run.of_requestStop hrun
  have hstop : v.SubmitterStep _ := .stop hfirst
  have hsame : { v.worker with stopping := true } = m'.worker := by rw [hworker, hafter]
  exact ⟨_, _, hstop, Function.update_self .., hsame, .ring (k := k) (Function.update_self ..),
    Function.update_self .., hsame, hrecord⟩

end Vigil

/-! ## The program among its callers -/

/-- A worker with its ring and its wake-up counter, and where its loop stands. -/
structure Watch (α : Type) where
  machine : Machine α
  ring : Ring
  counter : EventCounter := {}
  stage : LoopStage := .check

namespace Watch

/-- The worker has come to another machine, and what it recorded to the ring and the counter. -/
def after (w : Watch α) (since : List Event) (m : Machine α) : Watch α :=
  { w with machine := m, ring := w.ring.heed since, counter := w.counter.heed since }

/-- What the program does next: its loop passes a stage, or somebody calls the worker. The kernel does what it does in a
vigil, and answers a stage as the ring does. -/
inductive Step (serve : Run.Serve α) (w : Watch α) : Watch α → Prop
  | pass {block : Bool} {stage : LoopStage} {m : Machine α} {since : List Event}
    (hkernel : w.machine.kernel.Voices w.ring) (hpass : Passes serve block (w.stage, w.machine) (stage, m))
    (htrace : m.trace = since ++ w.machine.trace) :
    Step serve w
      (({ w with ring := w.ring.atStage w.machine.worker.batch w.stage, stage } : Watch α).after since m)
  | assign {fd : Int} {peer : Option Net.SocketAddress} {answer : Except Error Nat} {m : Machine α}
    {since : List Event} (hrun : Run.assign fd peer w.machine = .ok answer m)
    (htrace : m.trace = since ++ w.machine.trace) : Step serve w (w.after since m)
  | deed {i : Nat} (d : Deed) {m : Machine α} {since : List Event} (hrun : d.run i w.machine = .ok () m)
    (htrace : m.trace = since ++ w.machine.trace) : Step serve w (w.after since m)
  | stop {m : Machine α} {since : List Event} (hrun : Run.requestStop w.machine = .ok () m)
    (htrace : m.trace = since ++ w.machine.trace) : Step serve w (w.after since m)
  | kernel {v : Vigil}
    (hstep : ({ worker := w.machine.worker, ring := w.ring, counter := w.counter } : Vigil).KernelStep v) :
    Step serve w { w with ring := v.ring, counter := v.counter }
  /-- Something happens around the worker. -/
  | around (kernel : Kernel) (app : α) : Step serve w { w with machine := { w.machine with kernel, app } }

/-- The vigil has the same worker, ring and counter, and its loop stands at the same stage. All who left something for
the loop have rung. -/
structure Shows (w : Watch α) (v : Vigil) : Prop where
  worker : v.worker = w.machine.worker
  ring : v.ring = w.ring
  counter : v.counter = w.counter
  stage : v.stage = w.stage
  rung : ∀ k, v.progress k ≠ .pushed

end Watch

namespace Vigil

variable {v v' : Vigil}

theorem LoopStep.aloof (h : v.LoopStep v') : v'.counter = v.counter ∧ v'.progress = v.progress := by
  cases h <;> exact ⟨rfl, rfl⟩

/-- After steps that come to what was recorded, the vigil shows what it showed before. -/
theorem Heeds.shows {w : Watch α} (h : v.Heeds since m.worker v') (hshows : w.Shows v) :
    (w.after since m).Shows v' where
  worker := h.worker
  ring := by rw [h.ring, hshows.ring]; rfl
  counter := by rw [h.counter, hshows.counter]; rfl
  stage := h.stage.trans hshows.stage
  rung k := by
    by_cases hk : v.progress k = .outside
    · rcases h.rung k hk with hafter | hafter <;> rw [hafter] <;> exact nofun
    · rw [h.progress k hk]
      exact hshows.rung k

/-- To ask the worker to stop is to ask, and to ring after that. -/
theorem Guarded.follows_stop (h : v.Guarded) {w : Watch α} (hshows : w.Shows v)
    (hrun : Run.requestStop w.machine = .ok () m) (htrace : m.trace = since ++ w.machine.trace) :
    ∃ v', Relation.ReflTransGen Step v v' ∧ (w.after since m).Shows v' := by
  obtain ⟨hafter, said, htrace', hquiet⟩ := Run.of_requestStop hrun
  have hsince : since ++ w.machine.trace = (said ++ [.rung]) ++ w.machine.trace := by
    rw [List.append_assoc]
    exact htrace.symm.trans htrace'
  cases List.append_cancel_right hsince
  obtain ⟨n, hfresh⟩ := h.fresh
  have hstop : v.SubmitterStep _ := .stop (hfresh n (Nat.le_refl n))
  refine ⟨_, .tail (.single (.submitter hstop)) (.submitter (.ring (k := n) (Function.update_self ..))), ?_⟩
  constructor
  case worker =>
    show { v.worker with stopping := true } = m.worker
    rw [hafter, hshows.worker]
  case ring =>
    show v.ring = w.ring.heed (said ++ [.rung])
    rw [Ring.heed_append, Ring.heed_quiet _ hquiet, hshows.ring]
    rfl
  case counter =>
    show v.counter.notify.2 = w.counter.heed (said ++ [.rung])
    rw [EventCounter.heed_append, EventCounter.heed_quiet _ hquiet, hshows.counter]
    rfl
  case stage => exact hshows.stage
  case rung =>
    intro k
    show Function.update (Function.update v.progress n .pushed) n .rung k ≠ .pushed
    by_cases hk : k = n
    · rw [hk, Function.update_self]
      exact nofun
    · rw [Function.update_of_ne hk, Function.update_of_ne hk]
      exact hshows.rung k

/-- The kernel goes by the ring and the counter alone. -/
theorem KernelStep.follows {w : Watch α} (hshows : w.Shows v)
    (hstep : ({ worker := w.machine.worker, ring := w.ring, counter := w.counter } : Vigil).KernelStep v') :
    ∃ v₁, v.KernelStep v₁ ∧ ({ w with ring := v'.ring, counter := v'.counter } : Watch α).Shows v₁ := by
  obtain ⟨hworker, hring, hcounter, hstage, hrung⟩ := hshows
  cases hstep with
  | answer he hop result => exact ⟨_, .answer (hring ▸ he) hop result, hworker, by rw [hring], hcounter, hstage, hrung⟩
  | wake he hread hcount =>
    exact ⟨_, .wake (hring ▸ he) hread (hcounter ▸ hcount), hworker, by rw [hring], rfl, hstage, hrung⟩
  | moveUp => exact ⟨_, .moveUp, hworker, by rw [hring], hcounter, hstage, hrung⟩
  | fetch count => exact ⟨_, .fetch count, hworker, by rw [hring], hcounter, hstage, hrung⟩

/-- Whatever the program does next, the vigil does too. -/
theorem Guarded.follows (h : v.Guarded) (hserve : ∀ i, Makes .stage (fun _ => True) (serve i)) {w w' : Watch α}
    (hshows : w.Shows v) (hstep : w.Step serve w') :
    ∃ v', Relation.ReflTransGen Step v v' ∧ w'.Shows v' := by
  have hcall : ∀ {since' since : List Event} {m : Machine α} {v' : Vigil}, m.trace = since' ++ w.machine.trace →
      v.Heeds since' m.worker v' → m.trace = since ++ w.machine.trace →
        ∃ v', Relation.ReflTransGen Step v v' ∧ (w.after since m).Shows v' := by
    intro since' since m v' htrace' hheeds htrace
    cases List.append_cancel_right (htrace'.symm.trans htrace)
    exact ⟨v', hheeds.steps, hheeds.shows hshows⟩
  cases hstep with
  | @pass block stage m since hkernel hpass htrace =>
    obtain ⟨v₁, since', v', hloop, hstage, hring, htrace', hheeds⟩ :=
      h.passes hserve hshows.worker (hshows.ring ▸ hkernel) (hshows.stage ▸ hpass)
    cases List.append_cancel_right (htrace'.symm.trans htrace)
    obtain ⟨hcounter, hprogress⟩ := hloop.aloof
    refine ⟨v', .head (.loop hloop) hheeds.steps, ?_⟩
    -- between the loop's own step and those that follow from it, the worker is neither's
    have hshows₁ : ({ w with
        machine := { w.machine with worker := v₁.worker }
        ring := w.ring.atStage w.machine.worker.batch w.stage, stage } : Watch α).Shows v₁ :=
      { worker := rfl
        ring := by rw [hring, hshows.ring, hshows.worker, hshows.stage]
        counter := hcounter.trans hshows.counter
        stage := hstage
        rung := fun k => hprogress ▸ hshows.rung k }
    have hafter := hheeds.shows hshows₁
    exact hafter
  | assign hrun htrace =>
    obtain ⟨since', v', htrace', hheeds⟩ := h.heeds_makes .call hshows.worker (.assign _ _) nofun nofun hrun
    exact hcall htrace' hheeds htrace
  | deed d hrun htrace =>
    obtain ⟨since', v', htrace', hheeds⟩ := h.heeds_makes .call hshows.worker (.deed d) nofun nofun hrun
    exact hcall htrace' hheeds htrace
  | stop hrun htrace => exact h.follows_stop hshows hrun htrace
  | kernel hstep =>
    obtain ⟨v', hstep', hshows'⟩ := KernelStep.follows hshows hstep
    exact ⟨v', .single (.kernel hstep'), hshows'⟩
  | around kernel app => exact ⟨v, .refl, { hshows with }⟩

/-- The steps of the vigil are those of the program. -/
structure Covers (serve : Run.Serve α) (v : Vigil) : Prop where
  /-- A command is put into the inbox, and the counter is rung after that. -/
  submit : ∀ {m m' : Machine α} {c : Command} {k : Nat}, v.worker = m.worker → v.progress k = .outside →
    Run.submit c m = .ok () m' → v.Rings k m m'
  /-- The worker is asked to stop, and the counter is rung after that. -/
  stop : ∀ {m m' : Machine α} {k : Nat}, v.worker = m.worker → v.progress k = .outside →
    Run.requestStop m = .ok () m' → v.Rings k m m'
  /-- Whatever an acceptor does is done by steps, -/
  assign : ∀ {m m' : Machine α} {fd : Int} {peer : Option Net.SocketAddress} {answer : Except Error Nat},
    v.worker = m.worker → Run.assign fd peer m = .ok answer m' →
      ∃ since v', m'.trace = since ++ m.trace ∧ v.Heeds since m'.worker v'
  /-- and so is whatever is done through a handle. -/
  deed : ∀ {m m' : Machine α} {i : Nat} (d : Deed), v.worker = m.worker → d.run i m = .ok () m' →
    ∃ since v', m'.trace = since ++ m.trace ∧ v.Heeds since m'.worker v'
  /-- A turn of the loop is a row of stages, -/
  turn : ∀ {m m' : Machine α} {block b : Bool}, FeralRun serve m → m.worker.exited = false →
    Run.turn serve block m = .ok b m' → ∃ m₁, PassesOn serve block (.check, m) (if b then .check else .ended, m₁) ∧
      (m' = m₁ ∨ Run.rest m₁ = .ok () m')
  /-- and each stage is a step of the loop, with steps that follow from it. -/
  pass : ∀ {m m' : Machine α} {block : Bool} {stage : LoopStage}, v.worker = m.worker → m.kernel.Voices v.ring →
    Passes serve block (v.stage, m) (stage, m') →
      ∃ v₁ since v', v.LoopStep v₁ ∧ v₁.stage = stage ∧ v₁.ring = v.ring.atStage v.worker.batch v.stage ∧
        m'.trace = since ++ m.trace ∧ v₁.Heeds since m'.worker v'
  /-- There is a kernel that answers as the ring does. -/
  voiced : ∃ k : Kernel, k.Voices v.ring
  /-- Where the program is what the vigil shows, and does something, the vigil shows what comes of it after steps of its
  own. -/
  follows : ∀ {w w' : Watch α}, w.Shows v → w.Step serve w' →
    ∃ v', Relation.ReflTransGen Vigil.Step v v' ∧ w'.Shows v'

end Vigil

namespace VigilRun

variable {v : Vigil}

/-- No wake-up is lost, and what the vigil is about is what the program does. -/
theorem wakeful (hmodest : Modest serve) (hserve : ∀ i, Makes .stage (fun _ => True) (serve i)) (h : VigilRun v) :
    v.Wakeful ∧ v.Covers serve where
  left := h.guarded.attentive
  right :=
    { submit := fun hworker => h.guarded.rings_submit hworker
      stop := fun hworker => Vigil.rings_stop hworker
      assign := fun hworker => h.guarded.heeds_makes .call hworker (.assign _ _) nofun nofun
      deed := fun d hworker => h.guarded.heeds_makes .call hworker (.deed d) nofun nofun
      turn := fun hrun hexited => hrun.turn_stages hmodest hexited
      pass := fun hworker hkernel => h.guarded.passes hserve hworker hkernel
      voiced := ⟨v.ring.voice, v.ring.voices_voice⟩
      follows := fun hshows => h.guarded.follows hserve hshows }

/-- A command comes while the loop is blocked. -/
theorem wakeful_blocked : ∃ v : Vigil, VigilRun v ∧ v.Blocked ∧ 0 ∈ v.owners ∧ v.progress 0 = .rung ∧ v.Wakeful ∧
    v.Covers Application.serve := by
  have hsteps : Relation.ReflTransGen Vigil.Step small _ :=
    .head (.loop (.check rfl rfl)) <| .head (.loop (.arm rfl)) <| .head (.loop (.submit true rfl rfl)) <|
      .head (.submitter (.push (k := 0) (.receive 0) rfl rfl)) <| .head (.submitter (.ring (k := 0) rfl)) .refl
  have hrun : VigilRun _ := ⟨small, small_starts, hsteps⟩
  exact ⟨_, hrun, ⟨rfl, rfl⟩, .head _, rfl, wakeful Application.modest_serve Application.makes_serve hrun⟩

end VigilRun

/-! ## Every run of the program -/

namespace Watch

variable {w : Watch α}

/-- The worker and its ring were just made, and the loop has not begun. -/
structure Starts (w : Watch α) : Prop where
  machine : w.machine.Fresh
  ring : ∃ entries completions ring refusals, Ring.setup entries completions = .ok (.ok ring) ∧
    w.ring = { ring with refusals }
  counter : w.counter = {}
  stage : w.stage = .check

/-- A worker, its ring and its counter, wherever its loop and all who call it have come to. -/
def Runs (serve : Run.Serve α) (w : Watch α) : Prop :=
  ∃ w₀ : Watch α, w₀.Starts ∧ Relation.ReflTransGen (Step serve) w₀ w

/-- A vigil shows what was just made. -/
theorem Starts.vigil (h : w.Starts) : ∃ v : Vigil, v.Starts ∧ w.Shows v := by
  obtain ⟨id, config, cores, k, -, hbuild⟩ := h.machine.built
  obtain ⟨_, pool, _, -, -, -, -, hpool⟩ := Worker.of_build hbuild
  refine ⟨{ worker := w.machine.worker, ring := w.ring }, ?_, ?_⟩
  · exact ⟨⟨id, config, k.memory, pool, hpool⟩, h.ring, rfl, rfl, fun _ => rfl, rfl, rfl⟩
  · exact ⟨rfl, rfl, h.counter.symm, h.stage.symm, fun _ => nofun⟩

/-- Every run of the program is a run of a vigil. -/
theorem Runs.vigil (hserve : ∀ i, Makes .stage (fun _ => True) (serve i)) (h : w.Runs serve) :
    ∃ v, VigilRun v ∧ w.Shows v := by
  obtain ⟨w₀, hstarts, hsteps⟩ := h
  obtain ⟨v₀, hfirst, hshows₀⟩ := hstarts.vigil
  induction hsteps with
  | refl => exact ⟨v₀, ⟨v₀, hfirst, .refl⟩, hshows₀⟩
  | tail _ hstep ih =>
    obtain ⟨v, ⟨v₁, hfirst₁, hbefore⟩, hshows⟩ := ih
    have hrun : VigilRun v := ⟨v₁, hfirst₁, hbefore⟩
    obtain ⟨v', hafter, hshows'⟩ := hrun.guarded.follows hserve hshows hstep
    exact ⟨v', ⟨v₁, hfirst₁, hbefore.trans hafter⟩, hshows'⟩

/-- A loop that waits has nothing left for it, or a wake-up completion is there or will be made of what was counted. -/
theorem Runs.unlost (hserve : ∀ i, Makes .stage (fun _ => True) (serve i)) (h : w.Runs serve)
    (hwait : w.stage = .waiting) : w.machine.worker.inbox = [] ∧ w.machine.worker.stopping = false ∨
      w.ring.hasWake = true ∨ w.ring.holdsWake = true ∧ 0 < w.counter.count := by
  obtain ⟨v, hrun, hshows⟩ := h.vigil hserve
  have hwakeful := hrun.guarded.attentive
  rcases hwakeful.unlost (hshows.stage.trans hwait) with hnone | hhas | hcount | hpushed
  · exact .inl (hshows.worker ▸ hnone)
  · exact .inr (.inl (hshows.ring ▸ hhas))
  · exact .inr (.inr (hshows.ring ▸ hshows.counter ▸ hcount))
  · -- all who have left something have rung, so nobody has
    have howners : v.owners = [] := List.eq_nil_iff_forall_not_mem.2 fun k hk => hshows.rung k (hpushed k (.inl hk))
    have hstoppers : v.stoppers = [] := List.eq_nil_iff_forall_not_mem.2 fun k hk => hshows.rung k (hpushed k (.inr hk))
    refine .inl ⟨?_, ?_⟩
    · have hlength := hwakeful.paired
      rw [howners, hshows.worker] at hlength
      exact List.length_eq_zero_iff.1 hlength.symm
    · cases hstopping : w.machine.worker.stopping with
      | false => rfl
      | true => exact absurd hstoppers (hwakeful.asked.1 (hshows.worker ▸ hstopping))

end Watch

end SlotServer
