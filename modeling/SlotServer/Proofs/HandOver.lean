import SlotServer.Proofs.HonestRuns
import SlotServer.Proofs.LoopChanges
import SlotServer.Proofs.Strides

/-!
# Closes that the kernel never sees

The kernel does not see an operation before the queue is handed over. The teardown leaves the socket of a disconnecting
slot to the close that was queued for it, so the socket is closed only if the queue was handed over once more.

- `HandedOver`, `unsubmitted`: what was queued before the queue was handed over, and what was not;
- `Run.overdue_of_turn_false`, `Run.unsubmitted_of_turn_false`: when a turn ends the loop, and what it leaves;
- `Run.unsubmitted_turn`: what a turn that goes on leaves to the next one to hand over;
- `HonestRun.close_handedOver`: which closes are handed over before the kernel's side is let go. Those that are queued
  after the loop's last hand-over are not: `not_handedOver_at_once`.
-/

namespace SlotServer

variable {α : Type}

/-- The operation was queued, and the queue was handed over after that. -/
def HandedOver (op : Op) (h : List Event) : Prop :=
  ∃ newer least older, h = newer ++ .submitted least :: older ∧ .queued op ∈ older ∧ .queued op ∉ newer

/-- What was queued after the queue was handed over for the last time. -/
def unsubmitted : List Event → List Op
  | [] => []
  | e :: h =>
    match e with
    | .queued op => op :: unsubmitted h
    | .submitted _ => []
    | _ => unsubmitted h

variable {op : Op} {h since : List Event}

/-- What was queued was handed over, unless that was after the last time. -/
theorem handedOver_iff (hop : .queued op ∈ h) : HandedOver op h ↔ op ∉ unsubmitted h := by
  constructor
  · rintro ⟨newer, least, older, rfl, -, hnewer⟩
    clear hop
    induction newer with
    | nil => exact List.not_mem_nil
    | cons e newer ih =>
      obtain ⟨hne, hrest⟩ := not_or.1 (mt List.mem_cons.2 hnewer)
      cases e with
      | queued op' =>
        intro hmem
        rcases List.mem_cons.1 hmem with rfl | hmem
        · exact hne rfl
        · exact ih hrest hmem
      | submitted => exact List.not_mem_nil
      | _ => exact ih hrest
  · intro hnot
    induction h with
    | nil => cases hop
    | cons e h ih =>
      have hcons : op ∉ unsubmitted h → e ≠ .queued op → HandedOver op (e :: h) := by
        intro hnot hne
        obtain ⟨newer, least, older, heq, holder, hnewer⟩ := ih ((List.mem_cons.1 hop).resolve_left hne.symm) hnot
        refine ⟨e :: newer, least, older, by rw [heq]; rfl, holder, fun hmem => ?_⟩
        exact (List.mem_cons.1 hmem).elim (fun heq => hne heq.symm) hnewer
      cases e with
      | queued op' =>
        obtain ⟨hne, hrest⟩ := not_or.1 (mt List.mem_cons.2 hnot)
        exact hcons hrest fun heq => hne (Event.queued.inj heq).symm
      | submitted least =>
        refine ⟨[], least, h, rfl, (List.mem_cons.1 hop).resolve_left nofun, List.not_mem_nil⟩
      | _ => exact hcons hnot nofun

theorem unsubmitted_append (hsince : ∀ e ∈ since, e.ofQueue = false) : unsubmitted (since ++ h) = unsubmitted h := by
  induction since with
  | nil => rfl
  | cons e since ih =>
    obtain ⟨he, hrest⟩ := List.forall_mem_cons.1 hsince
    cases e with
    | queued | refused | submitted => cases he
    | _ => exact ih hrest

/-- What is only said concerns no queue. -/
theorem not_ofQueue_of_said (hsaid : ∀ e ∈ since, ∃ level line, e = .said level line) :
    ∀ e ∈ since, e.ofQueue = false := fun e he => by
  obtain ⟨level, line, rfl⟩ := hsaid e he
  rfl

/-- After the queue was handed over, only what is queued since is left. -/
theorem unsubmitted_since (hnone : unsubmitted h = []) : unsubmitted (since ++ h) = unsubmitted since := by
  induction since with
  | nil => exact hnone
  | cons e since ih =>
    cases e with
    | queued op => exact congrArg (op :: ·) ih
    | submitted => rfl
    | _ => exact ih

/-- What nothing was queued after was outstanding before. -/
theorem mem_outstanding_of_append (hsince : ∀ e ∈ since, e.ofQueue = false) (hop : op ∈ outstanding (since ++ h)) :
    op ∈ outstanding h := by
  induction since with
  | nil => exact hop
  | cons e since ih =>
    obtain ⟨he, hrest⟩ := List.forall_mem_cons.1 hsince
    cases e with
    | queued | refused | submitted => cases he
    | answered c => exact ih hrest (List.mem_of_mem_eraseP hop)
    | released => cases hop
    | _ => exact ih hrest hop

/-! ## The last turn -/

namespace Run

variable {serve : Serve α} {block : Bool} {m m' : Machine α}

/-- A drain is over when nothing is left to do, or when the time is. Nothing was done to find that out. -/
theorem of_drained (hrun : drained m = .ok true m') : ∃ deadline since, m.worker.deadline = some deadline ∧
    m' = { m with trace := since ++ m.trace } ∧ (∀ e ∈ since, ∃ level line, e = .said level line) ∧
    (m.kernel.outstanding = 0 ∧ m.worker.inbox = [] ∨ deadline ≤ m.kernel.now) := by
  obtain ⟨w, m₁, hw, hrest⟩ := of_bind hrun
  cases hw
  cases hdeadline : m.worker.deadline with
  | none =>
    rw [hdeadline] at hrest
    cases hrest
  | some deadline =>
    rw [hdeadline] at hrest
    obtain ⟨count, m₁, hcount, hrest⟩ := of_bind hrest
    cases hcount
    obtain ⟨w, m₁, hw, hrest⟩ := of_bind hrest
    cases hw
    split at hrest
    · rename_i hidle
      cases hrest
      obtain ⟨hzero, hnil⟩ := Bool.and_eq_true_iff.1 hidle
      exact ⟨deadline, [], rfl, rfl, nofun, .inl ⟨of_decide_eq_true hzero, List.isEmpty_iff.1 hnil⟩⟩
    · obtain ⟨m₂, m₁, hget, hrest⟩ := of_bind hrest
      cases hget
      split at hrest
      · rename_i hlate
        obtain ⟨⟨⟩, m₁, hsay, hrest⟩ := of_bind hrest
        cases hsay
        cases hrest
        exact ⟨deadline, [_], rfl, rfl, fun e he => ⟨_, _, List.mem_singleton.1 he⟩, .inr hlate⟩
      · cases hrest

/-- The loop comes to its end only when a drain is over. -/
theorem of_turn_false (hrun : turn serve block m = .ok false m') :
    ∃ m₁, openTurn m = .ok () m₁ ∧ drained m₁ = .ok true m' := by
  obtain ⟨m₁, done, m₂, hopen, hdone, hrest⟩ := of_turn hrun
  cases done with
  | true =>
    cases hrest
    exact ⟨m₁, hopen, hdone⟩
  | false => exact absurd (steps_of_goOn hrest).1 nofun

/-- The loop comes to its end when the kernel has nothing left to do, or when the time is over. -/
theorem overdue_of_turn_false (hrun : turn serve block m = .ok false m') : ∃ deadline,
    m'.worker.deadline = some deadline ∧ (m'.kernel.outstanding = 0 ∨ deadline ≤ m'.kernel.now) := by
  obtain ⟨m₁, -, hdone⟩ := of_turn_false hrun
  obtain ⟨deadline, said, hdeadline, rfl, -, hover⟩ := of_drained hdone
  exact ⟨deadline, hdeadline, hover.imp And.left id⟩

/-- The last turn begins the drain, or leaves to be handed over what it has found. -/
theorem unsubmitted_of_turn_false (hrun : turn serve block m = .ok false m') :
    m.worker.isToDrain = true ∧ m'.worker.deadline = some (m.kernel.now + m.worker.grace) ∨
      m.worker.isToDrain = false ∧ unsubmitted m'.trace = unsubmitted m.trace := by
  obtain ⟨m₁, hopen, hdone⟩ := of_turn_false hrun
  obtain ⟨-, said, -, rfl, hsaid, -⟩ := of_drained hdone
  rw [openTurn_eq] at hopen
  cases hstop : m.worker.isToDrain with
  | true =>
    rw [hstop] at hopen
    have hbegun : m₁.worker.deadline = some (m.kernel.now + m.worker.grace) := deadline_of_beginDrain hopen
    exact .inl ⟨rfl, hbegun⟩
  | false =>
    rw [hstop] at hopen
    cases hopen
    exact .inr ⟨rfl, unsubmitted_append (not_ofQueue_of_said hsaid)⟩

/-- The loop hands the queue over, and says so where the kernel refuses it. -/
theorem of_submitQueue (hrun : submitQueue block m = .ok () m') : m'.worker = m.worker ∧
    ∃ least said, m'.trace = said ++ .submitted least :: m.trace ∧ ∀ e ∈ said, ∃ level line, e = .said level line := by
  obtain ⟨w, m₁, hw, hrest⟩ := of_bind hrun
  cases hw
  obtain ⟨m₁, m₂, hget, hrest⟩ := of_bind hrest
  cases hget
  obtain ⟨⟨⟩, m₂, hrecord, hrest⟩ := of_bind hrest
  cases hrecord
  obtain ⟨answer, m₂, hsubmit, hrest⟩ := of_bind hrest
  obtain ⟨-, rfl⟩ := EStateM.Result.ok.inj hsubmit
  cases answer with
  | ok _ =>
    cases hrest
    exact ⟨rfl, _, [], rfl, nofun⟩
  | error e =>
    obtain ⟨line, hsay⟩ := say_run .debug s!"submit_and_wait: {e.message}" _
    cases hsay.symm.trans hrest
    exact ⟨rfl, _, [_], rfl, fun e he => ⟨_, _, List.mem_singleton.1 he⟩⟩

/-- Once the queue was handed over, nothing is left of it. -/
theorem unsubmitted_submitQueue (hrun : submitQueue block m = .ok () m') : unsubmitted m'.trace = [] := by
  obtain ⟨-, least, said, htrace, hsaid⟩ := of_submitQueue hrun
  rw [htrace, unsubmitted_append (not_ofQueue_of_said hsaid)]
  rfl

/-- After a turn that goes on, what is left to be handed over was queued by its completions and its commands. -/
theorem unsubmitted_turn (hserve : Discreet serve) (hexited : m.worker.exited = false)
    (hrun : turn serve block m = .ok true m') : ∃ (m₁ m₂ m₃ : Machine α) (since : _), arm m₁ = .ok () m₂ ∧
      submitQueue block m₂ = .ok () m₃ ∧ m'.trace = since ++ m₃.trace ∧ unsubmitted m'.trace = unsubmitted since := by
  obtain ⟨m₁, done, m₁', hopen, hdone, hrest⟩ := of_turn hrun
  cases done with
  | true => cases hrest
  | false =>
    obtain ⟨⟨⟩, m₂, harm, hrest⟩ := of_bind hrest
    obtain ⟨⟨⟩, m₃, hsubmit, hrest⟩ := of_bind hrest
    have hopened : m₁.worker.exited = false := by
      rw [openTurn_eq] at hopen
      split at hopen
      · exact (Makes.beginDrain m hexited () m₁ hopen).exited.trans hexited
      · cases hopen
        exact hexited
    have hdrained : Makes .all (· = false) (drained : Run α Bool) := Makes.drained
    have harms : Makes .all (· = false) (arm : Run α Unit) := Makes.arm
    have hlooked := (hdrained m₁ hopened false m₁' hdone).exited.trans hopened
    have harmed := (harms m₁' hlooked () m₂ harm).exited.trans hlooked
    have hlive := (Makes.submitQueue block m₂ harmed () m₃ hsubmit).exited.trans harmed
    obtain ⟨since, htrace, -⟩ := (Makes.afterSubmit hserve block m₃ hlive true m' hrest).trace
    refine ⟨m₁', m₂, m₃, since, harm, hsubmit, htrace, ?_⟩
    rw [htrace, unsubmitted_since (unsubmitted_submitQueue hsubmit)]

end Run

/-! ## What is left to the kernel -/

section

variable {serve : Run.Serve α} {m m₁ : Machine α} {i : Nat} {s : Slot}

/-- Once what was left in the inbox was failed, a slot that is still disconnecting has its close outstanding. -/
theorem HonestRun.close_outstanding (hmodest : Modest serve) (h : HonestRun serve m) (hexited : m.worker.exited = false)
    (horphans : Run.failOrphans m.exit = .ok () m₁) (hs : m₁.worker.slots[i]? = some s)
    (hstate : s.state = .disconnecting) : s.closeOp i ∈ outstanding m₁.trace := by
  have hebbing : m.exit.All Ebbing [] := fun j => (honest hmodest).exit (h.resting hmodest j) hexited
  have hfailed : Run.failUpTo m.exit.worker.inbox.length m.exit = .ok () m₁ := horphans
  obtain ⟨hall, -, hinbox⟩ := ((honest hmodest).failUpTo hebbing rfl rfl).of_ok hfailed
  rcases hall i with ⟨s', hcalm⟩ | habsent
  case inr =>
    rw [show m₁.worker.slots[i]? = none from habsent.slot] at hs
    cases hs
  obtain rfl : s = s' := Option.some.inj (hs.symm.trans hcalm.here)
  have hnone : (m₁.view [] i).commands = [] := by
    show m₁.worker.inbox.filter _ = []
    rw [hinbox]
    rfl
  obtain ⟨p, hp, hstage⟩ := hcalm.stage
  rw [Stage, hstate, hnone] at hstage
  rcases hstage with ⟨-, hdue⟩ | ⟨rfl, -⟩
  · cases hdue
  · have hops : outstanding (m₁.history i) = [s.closeOp i] := outstanding_of_phase hp
    rw [Machine.history, outstanding_concerns] at hops
    have hmem : s.closeOp i ∈ (outstanding m₁.trace).filter (·.ctx.slot = i) := hops ▸ List.mem_singleton_self _
    exact (List.mem_filter.1 hmem).1

/-- A slot that the teardown finds disconnecting has its close queued and not answered, and the time of the drain is
over where the kernel counts what is outstanding. Its close was handed over before the kernel's side is let go just if
it is not one of those that were queued after the loop handed the queue over for the last time. Of these there are two
kinds. Either the last turn itself has begun the drain, and its time was over at once; or the close was there before the
last turn, where the turn before had queued it for a completion or a command (`Run.unsubmitted_turn`). -/
theorem HonestRun.close_handedOver {block : Bool} {m' m'' : Machine α} (hmodest : Modest serve)
    (hdiscreet : Discreet serve) (h : HonestRun serve m) (hexited : m.worker.exited = false)
    (hturn : Run.turn serve block m = .ok false m') (horphans : Run.failOrphans m'.exit = .ok () m₁)
    (hs : m₁.worker.slots[i]? = some s) (hstate : s.state = .disconnecting)
    (hfinish : Run.finish m' = .ok () m'') :
    s.closeOp i ∈ outstanding m'.trace ∧
      ((outstanding m'.trace).length ≤ m'.kernel.outstanding →
        ∃ deadline, m'.worker.deadline = some deadline ∧ deadline ≤ m'.kernel.now) ∧
      (∃ after since, m''.trace = after ++ .released :: (since ++ m'.trace) ∧
        (HandedOver (s.closeOp i) (since ++ m'.trace) ↔ s.closeOp i ∉ unsubmitted m'.trace)) ∧
      (s.closeOp i ∈ unsubmitted m'.trace →
        m.worker.isToDrain = true ∧ m'.worker.deadline = some (m.kernel.now + m.worker.grace) ∨
          m.worker.isToDrain = false ∧ s.closeOp i ∈ unsubmitted m.trace) := by
  have hexited' : m'.worker.exited = false := (Makes.turn hdiscreet block m hexited false m' hturn).exited.trans hexited
  have hmove : (Move.turn block).run serve m = .ok () m' := Run.bind_run hturn
  have hrun : HonestRun serve m' := h.step (.move (.turn block) hexited hmove)
  -- nothing is queued any more once the loop has come to its end
  obtain ⟨m₁', m₂, horphans', hchanges, -, hlast⟩ := Run.of_finish hfinish
  rw [horphans] at horphans'
  cases horphans'
  have hfailed : Changes .all m'.exit m₁ := Makes.failOrphans m'.exit rfl () m₁ horphans
  obtain ⟨since₁, htrace₁, hnone₁⟩ := hfailed.trace
  obtain ⟨since₂, htrace₂, hnone₂⟩ := hchanges.trace
  obtain ⟨after, htrace, -⟩ := hlast.trace
  replace hnone₁ := hnone₁ rfl
  replace hnone₂ := hnone₂ hfailed.exited
  have hout : s.closeOp i ∈ outstanding m'.trace := by
    have hout₁ := hrun.close_outstanding hmodest hexited' horphans hs hstate
    rw [htrace₁] at hout₁
    exact mem_outstanding_of_append hnone₁ hout₁
  obtain ⟨deadline, hdeadline, hover⟩ := Run.overdue_of_turn_false hturn
  refine ⟨hout, fun hcount => ⟨deadline, hdeadline, ?_⟩, ⟨after, since₂ ++ since₁, ?_, ?_⟩, fun hlate => ?_⟩
  · have hpos := List.length_pos_of_mem hout
    exact hover.resolve_left fun hzero => by omega
  · rw [htrace, htrace₂, htrace₁, List.append_assoc]
  · have hnone : ∀ e ∈ since₂ ++ since₁, e.ofQueue = false := fun e he =>
      (List.mem_append.1 he).elim (hnone₂ e) (hnone₁ e)
    rw [handedOver_iff (List.mem_append_right _ (mem_outstanding hout)), unsubmitted_append hnone]
  · exact (Run.unsubmitted_of_turn_false hturn).imp_right fun ⟨hstop, hsame⟩ => ⟨hstop, hsame ▸ hlate⟩

end

/-! ## A loop's end -/

/-- A last turn: the machine after it, after what was left in the inbox was failed, and after the teardown. -/
def Machine.lastTurn? (serve : Run.Serve α) (m : Machine α) : Option (Machine α × Machine α × Machine α) :=
  match Run.turn serve true m with
  | .ok false m' =>
    match Run.failOrphans m'.exit, Run.finish m' with
    | .ok () m₁, .ok () m'' => some (m', m₁, m'')
    | _, _ => none
  | _ => none

theorem Machine.of_lastTurn? {serve : Run.Serve α} {m m' m₁ m'' : Machine α}
    (h : m.lastTurn? serve = some (m', m₁, m'')) :
    Run.turn serve true m = .ok false m' ∧ Run.failOrphans m'.exit = .ok () m₁ ∧ Run.finish m' = .ok () m'' := by
  unfold lastTurn? at h
  split at h
  · rename_i hturn
    split at h
    · rename_i horphans hfinish
      cases h
      exact ⟨hturn, horphans, hfinish⟩
    · cases h
  · cases h

/-- A machine with one slot, whose worker drains for so many milliseconds. -/
def Machine.draining? (grace : Nat) : Option (Machine Application) :=
  built? { backlog := 1, receiveLength := 1, sendLength := 1, useNagle := true, grace } 1 { service := .keep }

/-- With a millisecond to drain, the close of an idle connection is handed over. -/
theorem HonestRun.close_handedOver_draining : ∃ m m' m₁ m'' s,
    (Machine.draining? 1).bind (·.after? Application.serve [.assign 5 none, .turn true, .stop, .turn true]) = some m ∧
      m.lastTurn? Application.serve = some (m', m₁, m'') ∧ m₁.worker.slots[0]? = some s ∧ s.state = .disconnecting ∧
      ∃ after since, m''.trace = after ++ .released :: (since ++ m'.trace) ∧
        HandedOver (s.closeOp 0) (since ++ m'.trace) := by
  have hany : ((Machine.draining? 1).bind
      (·.after? Application.serve [.assign 5 none, .turn true, .stop, .turn true])).any (fun m =>
        m.worker.exited = false ∧ (m.lastTurn? Application.serve).any fun (m', m₁, _) =>
          m₁.worker.slots[0]?.any fun s => s.state = .disconnecting ∧ s.closeOp 0 ∉ unsubmitted m'.trace) = true := by
    decide +kernel
  obtain ⟨m, hafter, hlast⟩ := (Option.any_eq_true ..).1 hany
  obtain ⟨hexited, hlast⟩ := of_decide_eq_true hlast
  obtain ⟨⟨m', m₁, m''⟩, hlast, hslot⟩ := (Option.any_eq_true ..).1 hlast
  obtain ⟨s, hs, hslot⟩ := (Option.any_eq_true ..).1 hslot
  obtain ⟨hstate, hnot⟩ := of_decide_eq_true hslot
  obtain ⟨hturn, horphans, hfinish⟩ := Machine.of_lastTurn? hlast
  obtain ⟨-, -, ⟨after, since, htrace, hhanded⟩, -⟩ := HonestRun.close_handedOver Application.modest_serve
    Application.discreet_serve (HonestRun.of_built hafter) hexited hturn horphans hs hstate hfinish
  exact ⟨m, m', m₁, m'', s, hafter, hlast, hs, hstate, after, since, htrace, hhanded.2 hnot⟩

/-- With no time to drain, it is not, and the socket is not closed otherwise. -/
theorem not_handedOver_at_once : ∃ m m' m₁ m'' s,
    (Machine.draining? 0).bind (·.after? Application.serve [.assign 5 none, .turn true, .stop]) = some m ∧
      m.lastTurn? Application.serve = some (m', m₁, m'') ∧ m₁.worker.slots[0]? = some s ∧ s.state = .disconnecting ∧
      ¬ HandedOver (s.closeOp 0) m''.trace ∧ .closed (some 0) s.fd ∉ m''.trace := by
  have hany : ((Machine.draining? 0).bind
      (·.after? Application.serve [.assign 5 none, .turn true, .stop])).any (fun m =>
        (m.lastTurn? Application.serve).any fun (_, m₁, m'') =>
          m₁.worker.slots[0]?.any fun s => s.state = .disconnecting ∧ .queued (s.closeOp 0) ∈ m''.trace ∧
            s.closeOp 0 ∈ unsubmitted m''.trace ∧ .closed (some 0) s.fd ∉ m''.trace) = true := by
    decide +kernel
  obtain ⟨m, hafter, hlast⟩ := (Option.any_eq_true ..).1 hany
  obtain ⟨⟨m', m₁, m''⟩, hlast, hslot⟩ := (Option.any_eq_true ..).1 hlast
  obtain ⟨s, hs, hslot⟩ := (Option.any_eq_true ..).1 hslot
  obtain ⟨hstate, hqueued, hlate, hopen⟩ := of_decide_eq_true hslot
  exact ⟨m, m', m₁, m'', s, hafter, hlast, hs, hstate, fun hhanded => (handedOver_iff hqueued).1 hhanded hlate, hopen⟩

end SlotServer
