import SlotServer.Proofs.Departures

/-!
# Descriptors at the end of a loop

A slot lets go of its descriptor in one of two ways: the worker closes it at once, or the loop's end leaves it to
whoever has its close. That is right where the kernel has the close. But a slot is disconnecting as well while a party
is still about to close it, and when the loop's end comes first, that party finds the slot free and closes nothing.

- `letGos`: the marks by which a slot let go of its descriptors;
- `Closing`: what holds of a slot throughout. A slot that is disconnecting has its close with the kernel or in the hands
  of a party, and the loop's end leaves at most one of its descriptors open;
- `HonestRun.relieved`: each descriptor is let go once, and whose close it is left to;
- `not_closed_overtaken`: a descriptor that nobody closes.
-/

namespace SlotServer

variable {α : Type}

/-- The mark of a slot that let go of its descriptor. -/
def Mark.letsGo (i : Nat) : Mark → Bool
  | .closed j _ | .spared j _ => j = i
  | _ => false

/-- The mark of a descriptor that was left open. -/
def Mark.spares : Mark → Bool
  | .spared .. => true
  | _ => false

/-- How a slot let go of its descriptors, the latest first. -/
def letGos (i : Nat) (log : List Mark) : List Mark := log.filter (·.letsGo i)

theorem letGos_def (i : Nat) (log : List Mark) : letGos i log = log.filter (·.letsGo i) := rfl

theorem letGos_append {i : Nat} {marks log : List Mark} (h : ∀ e ∈ marks, e.letsGo i = false) :
    letGos i (marks ++ log) = letGos i log := by
  have hnone : marks.filter (·.letsGo i) = [] := List.filter_eq_nil_iff.2 fun e he => by simp [h e he]
  rw [letGos_def, List.filter_append, hnone]
  rfl

theorem Mark.letsGo_of_slot_ne {i : Nat} {e : Mark} (h : e.slot ≠ i) : e.letsGo i = false := by
  cases e <;> first | rfl | exact decide_eq_false h

/-- How many parties are about to close the slot, or will be once they have taken a command out. -/
def Spot.closers (i : Nat) (p : Spot) (duty : Duty → Nat) : Nat :=
  duty .close + duty .disconnect + p.commands.count (.disconnect i)

theorem Spot.closers_def (i : Nat) (p : Spot) (duty : Duty → Nat) :
    p.closers i duty = duty .close + duty .disconnect + p.commands.count (.disconnect i) := rfl

theorem Spot.closers_pos {i : Nat} {p : Spot} {duty : Duty → Nat} (h : duty .close ≠ 0 ∨ duty .disconnect ≠ 0) :
    0 < p.closers i duty := by
  rw [closers_def]
  omega

/-- What holds of a slot throughout. When the loop stopped, the kernel had the close of the descriptor in `held`. -/
structure Closing (i : Nat) (held : Option Int) (p : Spot) (duty : Duty → Nat) (log : List Mark) : Prop where
  /-- A slot that is disconnecting has its close somewhere. -/
  gap : p.state = .disconnecting → 0 < p.closers i duty ∨ held ≠ none ∧ duty .force ≠ 0
  /-- While the kernel has the close, nobody else is about to close the slot. -/
  kept : ∀ fd, held = some fd → duty .force ≠ 0 →
    p.state = .disconnecting ∧ p.fd? = some fd ∧ p.closers i duty = 0 ∧ letGos i log = []
  /-- The loop's end leaves the descriptor to the kernel before anything else is closed. -/
  left : ∀ fd, held = some fd → duty .force = 0 → (letGos i log).getLast? = some (.spared i fd)
  few : (letGos i log).countP Mark.spares + duty .force ≤ 1

namespace Closing

variable {i : Nat} {held : Option Int} {p p' : Spot} {duty duty' rest : Duty → Nat} {log marks : List Mark} {a : Act}
  {more : List Act}

/-- The slot stays as it is, and whoever is about to close it. -/
theorem congr (h : Closing i held p duty log) (hstate : p'.state = p.state) (hfd : p'.fd? = p.fd?)
    (hclosers : p'.closers i duty' = p.closers i duty) (hforce : duty' .force = duty .force)
    (hmarks : ∀ e ∈ marks, e.letsGo i = false) : Closing i held p' duty' (marks ++ log) where
  gap hs := by
    rw [hclosers, hforce]
    exact h.gap (hstate ▸ hs)
  kept fd hheld hf := by
    rw [hstate, hfd, hclosers, letGos_append hmarks]
    exact h.kept fd hheld (hforce ▸ hf)
  left fd hheld hf := by
    rw [letGos_append hmarks]
    exact h.left fd hheld (hforce ▸ hf)
  few := by
    rw [letGos_append hmarks, hforce]
    exact h.few

/-- A slot that keeps its state and its descriptor. -/
theorem stays {s s' : Slot} (h : Closing i held p duty log) (hs : p.slot? = some s) (hs' : p'.slot? = some s')
    (hstate : s'.state = s.state) (hfd : s'.fd = s.fd) (hclosers : p'.closers i duty' = p.closers i duty)
    (hforce : duty' .force = duty .force) (hmarks : ∀ e ∈ marks, e.letsGo i = false) :
    Closing i held p' duty' (marks ++ log) :=
  h.congr (by rw [Spot.state_eq hs, Spot.state_eq hs', hstate])
    (by rw [Spot.fd?_eq hs, Spot.fd?_eq hs', hstate, hfd]) hclosers hforce hmarks

/-- A slot that is not disconnecting goes on without letting go of a descriptor. -/
theorem goes (h : Closing i held p duty log) (hopen : p.state ≠ .disconnecting)
    (hclosers : p'.state = .disconnecting → 0 < p'.closers i duty') (hforce : duty' .force ≤ duty .force)
    (hmarks : ∀ e ∈ marks, e.letsGo i = false) : Closing i held p' duty' (marks ++ log) where
  gap hs := .inl (hclosers hs)
  kept fd hheld hf := absurd (h.kept fd hheld (by omega)).1 hopen
  left fd hheld _ := by
    rw [letGos_append hmarks]
    refine h.left fd hheld (Decidable.byContradiction fun hf => ?_)
    exact hopen (h.kept fd hheld hf).1
  few := by
    rw [letGos_append hmarks]
    exact Nat.le_trans (Nat.add_le_add_left hforce _) h.few

theorem turn (h : Closing i held p (fun duty => a.counts i duty + rest duty) log) (hturn : Turn i a p more marks p') :
    Closing i held p' (fun duty => duties i more duty + rest duty) (marks ++ log) := by
  cases hturn with
  | aloof haloof =>
    refine h.congr rfl rfl ?_ (by simp [haloof.counts]) fun e he => Mark.letsGo_of_slot_ne (haloof.marks e he)
    simp [Spot.closers_def, haloof.counts]
  | looked | emptied | exited => exact h.congr rfl rfl (by simp [Spot.closers_def]) (by simp) nofun
  | @retracted p n hslot =>
    by_cases hi : i < n
    · have hone : (List.range n).count i = 1 := List.count_eq_one_of_mem List.nodup_range (List.mem_range.2 hi)
      exact h.congr rfl rfl (by simp [Spot.closers_def]) (by simp [hone]) nofun
    · have hnone : (List.range n).count i = 0 := List.count_eq_zero.2 fun hmem => hi (List.mem_range.1 hmem)
      rw [decide_eq_false hi, Option.isSome_eq_false_iff, Option.isNone_iff_eq_none] at hslot
      have hfree : p.state = .disconnected := Spot.state_none hslot
      exact h.goes (by rw [hfree]; exact nofun) (fun hs => nomatch hfree.symm.trans hs) (by simp [hnone]) nofun
  | deal hdeal =>
    cases hdeal with
    | absent hnone ha hfew =>
      have hfree : p.state = .disconnected := Spot.state_none hnone
      exact h.goes (by rw [hfree]; exact nofun) (fun hs => nomatch hfree.symm.trans hs) (by simp) nofun
    | bound hs hstate =>
      exact h.goes (by rw [Spot.state_eq hs, hstate]; exact nofun) nofun (by simp) (by simp [Mark.letsGo])
    | @began half length p s hs hstart =>
      have hidle := SlotState.isOver_of_isIdle (Slot.isIdle_of_startsFrom hstart)
      refine h.goes (fun hclosing => ?_) (fun hclosing => ?_) (by simp) (by simp [Mark.letsGo])
      · rw [Spot.state_eq hs] at hclosing
        rw [hclosing] at hidle
        cases hidle
      · rw [Spot.state_eq rfl, Slot.state_begin] at hclosing
        cases half <;> cases hclosing
    | disconnecting hs hidle =>
      refine h.goes (fun hclosing => ?_) (fun _ => Spot.closers_pos (.inr (by simp))) (by simp) nofun
      rw [Spot.state_eq hs] at hclosing
      rw [hclosing] at hidle
      cases hidle
    | failedAccept hs hstate =>
      exact h.goes (by rw [Spot.state_eq hs, hstate]; exact nofun)
        (fun _ => Spot.closers_pos (.inl (by simp))) (by simp) nofun
    | @failedHalf half p s n hs hstate =>
      exact h.goes (by rw [Spot.state_eq hs, hstate]; cases half <;> exact nofun)
        (fun _ => Spot.closers_pos (.inl (by simp))) (by simp) nofun
    | unclosed hs hstate =>
      rw [← Spot.state_eq hs] at hstate
      exact h.goes hstate (fun hclosing => absurd hclosing hstate) (by simp) nofun
    | unforced hfree =>
      have hopen : p.state ≠ .disconnecting := by
        cases hs : p.slot? with
        | none => rw [Spot.state_none hs]; exact nofun
        | some s => rw [Spot.state_eq hs, hfree s hs]; exact nofun
      exact h.goes hopen (fun hclosing => absurd hclosing hopen) (by simp) nofun
    | @closed p s places hs hstate =>
      -- whoever closes the slot counts among its closers, so the kernel has no close of it
      have hcloser : 0 < p.closers i (fun duty => (Act.close i).counts i duty + rest duty) :=
        Spot.closers_pos (.inl (by simp))
      have hlet : letGos i ([.freed i, .closed i s.fd] ++ log) = .closed i s.fd :: letGos i log := by
        simp [letGos_def, Mark.letsGo]
      refine ⟨nofun, fun fd hheld hf => ?_, fun fd hheld hf => ?_, ?_⟩
      · have hnone := (h.kept fd hheld (by simpa using hf)).2.2.1
        omega
      · have hlast := h.left fd hheld (by simpa using hf)
        rw [hlet, List.getLast?_cons, hlast]
        rfl
      · have hfew := h.few
        rw [hlet]
        simpa [Mark.spares] using hfew
    | @forcedHalf half left forced forced' p s c places hs hstate =>
      have hopen : p.state ≠ .disconnecting := by
        rw [Spot.state_eq hs, hstate]
        cases half <;> exact nofun
      have hlet : letGos i ([.freed i, .closed i s.fd, .completed ⟨i, half⟩] ++ log) =
          .closed i s.fd :: letGos i log := by
        simp [letGos_def, Mark.letsGo]
      have hheld : held = none := Option.eq_none_iff_forall_ne_some.2 fun fd hheld =>
        hopen (h.kept fd hheld (by simp)).1
      refine ⟨fun hclosing => ?_, fun fd hfd => ?_, fun fd hfd => ?_, ?_⟩
      · rw [Spot.state_eq rfl] at hclosing
        cases half <;> cases hclosing
      · rw [hheld] at hfd
        cases hfd
      · rw [hheld] at hfd
        cases hfd
      · have hfew := h.few
        rw [hlet]
        simp [Mark.spares] at hfew ⊢
        omega
    | @forced left forced forced' p s places hs hlive =>
      -- the loop's end comes to a slot once, and leaves its descriptor open just where the slot is disconnecting
      have hfew := h.few
      have hnow : (Act.force (i :: left) forced).counts i .force + rest .force ≠ 0 := by simp
      have hthen : duties i [.force left forced'] .force + rest .force = 0 := by
        simp at hfew ⊢
        omega
      by_cases hclosing : s.state = .disconnecting
      · simp only [if_pos hclosing]
        have hlet : letGos i ([.freed i, .spared i s.fd] ++ log) = .spared i s.fd :: letGos i log := by
          simp [letGos_def, Mark.letsGo]
        refine ⟨nofun, fun fd _ hf => absurd hthen hf, fun fd hheld _ => ?_, ?_⟩
        · obtain ⟨-, hfd, -, hnone⟩ := h.kept fd hheld hnow
          rw [Spot.fd?_eq hs, if_neg hlive] at hfd
          rw [hlet, hnone, Option.some.inj hfd]
          rfl
        · rw [hlet]
          simp [List.countP_cons, Mark.spares] at hfew ⊢
          omega
      · simp only [if_neg hclosing]
        have hlet : letGos i ([.freed i, .closed i s.fd] ++ log) = .closed i s.fd :: letGos i log := by
          simp [letGos_def, Mark.letsGo]
        refine ⟨nofun, fun fd _ hf => absurd hthen hf, fun fd hheld _ => ?_, ?_⟩
        · exact absurd (Spot.state_eq hs ▸ (h.kept fd hheld hnow).1) hclosing
        · rw [hlet]
          simp [Mark.spares] at hfew ⊢
          omega
    | @pushed c p hc =>
      refine h.congr rfl rfl ?_ (by simp) (by simp [Mark.letsGo])
      simp [Spot.closers_def, Command.counts_disconnect_eq, List.count_singleton]
      omega
    | popped hc hcommands =>
      refine h.congr rfl rfl ?_ (by simp) (by simp [Mark.letsGo])
      simp [Spot.closers_def, hcommands, Command.counts_disconnect_eq, List.count_cons]
      omega
    | polled hs =>
      exact h.stays hs rfl (Slot.state_setCell ..) (Slot.fd_setCell ..) (by simp [Spot.closers_def]) rfl nofun
    | completed hs =>
      exact h.stays hs rfl (Slot.state_setCell ..) (Slot.fd_setCell ..) (by simp [Spot.closers_def])
        (by simp) (by simp [Mark.letsGo])
    | left hs | released hs | spentHalf hs =>
      exact h.stays hs rfl rfl rfl (by simp [Spot.closers_def]) (by simp) nofun
    | failedDisconnect =>
      refine h.congr rfl rfl ?_ (by simp) nofun
      simp [Spot.closers_def]
      omega
    | _ => exact h.congr rfl rfl (by simp [Spot.closers_def]) (by simp) nofun

end Closing

/-! ## What was closed -/

/-- The descriptors of a slot that are marked as closed, the latest first. -/
def closedOf (i : Nat) (log : List Mark) : List Int :=
  log.filterMap fun
    | .closed j fd => if j = i ∧ 0 ≤ fd then some fd else none
    | _ => none

/-- What is marked as closed was closed, and nothing else. -/
def Recorded (i : Nat) (cuts : List Int) (p : Spot) (log : List Mark) : Prop := p.cuts = closedOf i log ++ cuts

namespace Recorded

variable {i : Nat} {cuts : List Int} {p p' : Spot} {log marks : List Mark} {a : Act} {more : List Act}

theorem closedOf_append (h : ∀ e ∈ marks, e.letsGo i = false) : closedOf i (marks ++ log) = closedOf i log := by
  have hnone : closedOf i marks = [] := List.filterMap_eq_nil_iff.2 fun e he => by
    have hother := h e he
    cases e <;> simp_all [Mark.letsGo]
  rw [closedOf, List.filterMap_append]
  exact congrArg (· ++ _) hnone

theorem cut (h : Recorded i cuts p log) (fd : Int) : p.cut fd = closedOf i (.closed i fd :: log) ++ cuts := by
  by_cases hfd : 0 ≤ fd
  · rw [Spot.cut, if_pos hfd, h]
    simp [closedOf, hfd]
  · rw [Spot.cut, if_neg hfd, h]
    simp [closedOf, hfd]

theorem turn (h : Recorded i cuts p log) (hturn : Turn i a p more marks p') : Recorded i cuts p' (marks ++ log) := by
  cases hturn with
  | aloof haloof =>
    exact h.trans (congrArg (· ++ _) (closedOf_append fun e he => Mark.letsGo_of_slot_ne (haloof.marks e he)).symm)
  | looked | emptied | exited | retracted => exact h
  | deal hdeal =>
    cases hdeal with
    | closed => exact h.cut _
    | forcedHalf => exact h.cut _
    | @forced left forced forced' p s places =>
      by_cases hclosing : s.state = .disconnecting
      · simp only [if_pos hclosing]
        exact h
      · simp only [if_neg hclosing]
        exact h.cut s.fd
    | _ => exact h

end Recorded

/-- The descriptor that an operation closes. -/
def Op.closes? : Op → Option Int
  | .close _ fd => some fd
  | _ => none

/-- The descriptor of a slot that is disconnecting, whose close the kernel has. -/
def Machine.closing? (m : Machine α) (i : Nat) : Option Int :=
  if (m.spot i).state = .disconnecting then (outstanding (m.history i)).findSome? Op.closes? else none

/-- When the loop stops, a slot that is disconnecting has its close with the kernel or in the inbox. -/
theorem HonestRun.closing {serve : Run.Serve α} {m : Machine α} (hserve : Modest serve) (h : HonestRun serve m)
    (i : Nat) : Closing i (m.closing? i) (m.spot i) (duties i [.exit]) [] := by
  -- where the kernel has no close of the slot
  have hnone : m.closing? i = none → ((m.spot i).state = .disconnecting → .disconnect i ∈ (m.spot i).commands) →
      Closing i (m.closing? i) (m.spot i) (duties i [.exit]) [] := fun hheld hqueued => by
    refine ⟨fun hs => .inl ?_, fun fd hfd => ?_, fun fd hfd => ?_, by simp [letGos_def]⟩
    · exact Nat.lt_of_lt_of_le (List.count_pos_iff.2 (hqueued hs)) (Nat.le_add_left ..)
    all_goals
      rw [hheld] at hfd
      cases hfd
  by_cases hstate : (m.spot i).state = .disconnecting
  case neg => exact hnone (if_neg hstate) fun hs => absurd hs hstate
  rcases h.resting hserve i with ⟨s, hcalm, -⟩ | habsent
  case inr =>
    rw [Spot.state_none habsent.slot] at hstate
    cases hstate
  have hs : (m.spot i).slot? = some s := hcalm.here
  obtain ⟨p, hp, hstage⟩ := hcalm.stage
  have hclosing : m.closing? i = p.ops.findSome? Op.closes? :=
    (if_pos hstate).trans (congrArg (List.findSome? _) (outstanding_of_phase hp))
  rw [Spot.state_eq hs] at hstate
  rw [Stage, hstate] at hstage
  rcases hstage with ⟨hrests, hcommands⟩ | ⟨rfl, hcommands⟩
  · refine hnone (hclosing.trans (by rw [(Phase.of_rest? hrests).2]; rfl)) fun _ => ?_
    rw [show (m.spot i).commands = [.disconnect i] from hcommands]
    exact List.mem_singleton_self _
  · have hheld : m.closing? i = some s.fd := hclosing
    have hlive : s.state ≠ .disconnected := by rw [hstate]; decide
    refine ⟨fun _ => .inr ⟨by rw [hheld]; exact Option.some_ne_none _, by simp⟩, fun fd hfd _ => ?_, fun fd _ hf => ?_,
      by simp [letGos_def]⟩
    · rw [hheld] at hfd
      refine ⟨(Spot.state_eq hs).trans hstate, ?_, ?_, rfl⟩
      · rw [Spot.fd?_eq hs, if_neg hlive, hfd]
      · rw [Spot.closers_def, show (m.spot i).commands = [] from hcommands]
        simp
    · simp at hf

/-! ## What comes of descriptors -/

/-- What comes of the descriptors of a slot. -/
structure Departure.Relieved (m : Machine α) (d : Departure α) (i : Nat) : Prop where
  /-- A slot that is disconnecting has its close with the kernel until the loop's end comes to it, or some party is
  about to close it. -/
  somewhere : (d.machine.spot i).state = .disconnecting →
    0 < (d.machine.spot i).closers i (duties i d.todo) ∨ m.closing? i ≠ none ∧ duties i d.todo .force ≠ 0
  /-- What is marked as closed was closed, and nothing else. -/
  closed : (d.machine.spot i).cuts = closedOf i d.log ++ (m.spot i).cuts
  /-- At most one descriptor is left open. -/
  few : (letGos i d.log).countP Mark.spares ≤ 1
  /-- Descriptors were bound and let go in turns, so that each was let go once. -/
  once : d.Done → (descriptor i).after (m.spot i).fd? d.log = some none
  /-- The descriptor that the kernel closes is the one that is left open. -/
  left : ∀ fd, m.closing? i = some fd → d.Done → (letGos i d.log).getLast? = some (.spared i fd)

/-- However the end of a loop and the calls are interleaved, each slot lets go of each descriptor once. It leaves at
most one open, which is that of a close with the kernel, or of a close that a party is about to make. -/
theorem HonestRun.relieved {serve : Run.Serve α} {m : Machine α} {d : Departure α} (hserve : Modest serve)
    (h : HonestRun serve m) (hexited : m.worker.exited = false) (hsteps : Departure.Reaches m d) (i : Nat) :
    d.Relieved m i := by
  have hpoised := h.poised hserve hexited
  have hclosing := hsteps.keeps (K := fun i => Closing i (m.closing? i)) hpoised Closing.turn (h.closing hserve i)
  have hrecorded := hsteps.keeps (K := fun i p _ log => Recorded i (m.spot i).cuts p log) hpoised Recorded.turn
    (i := i) rfl
  have hdeparting := Departure.Reaches.ordered hpoised hsteps i
  refine ⟨hclosing.gap, hrecorded, ?_, fun hdone => ?_, fun fd hfd hdone => ?_⟩
  · exact Nat.le_trans (Nat.le_add_right ..) hclosing.few
  · rw [hdone.todo] at hdeparting
    rw [hdeparting.tied.descriptors, Spot.fd?, if_pos hdeparting.done.2]
  · rw [hdone.todo] at hclosing
    exact hclosing.left fd hfd rfl

/-- The loop comes to its end while the kernel has the close of a slot. -/
theorem HonestRun.relieved_handedOver : ∃ (m : Machine Application) (d : Departure Application),
    HonestRun Application.serve m ∧ m.worker.exited = false ∧ Departure.Reaches m d ∧ d.Done ∧
      m.closing? 0 = some 5 ∧ d.Relieved m 0 := by
  have hplayed : (Machine.small?.bind
      (·.after? Application.serve [.assign 5 none, .turn false, .deed 0 .drop, .turn false])).any (fun m =>
        (!m.worker.exited && decide (m.closing? 0 = some 5)) &&
          ((Departure.start m).play? (List.replicate 5 (.goesOn 0))).any fun d => decide d.Done) = true := by
    decide +kernel
  simp only [Option.any_eq_true, Bool.and_eq_true, Bool.not_eq_true', decide_eq_true_eq] at hplayed
  obtain ⟨m, hafter, ⟨hexited, hheld⟩, d, hplay, hdone⟩ := hplayed
  have hrun : HonestRun Application.serve m := HonestRun.of_built hafter
  have hsteps : Departure.Reaches m d := Departure.reaches_of_play? hplay
  exact ⟨m, d, hrun, hexited, hsteps, hdone, hheld,
    HonestRun.relieved Application.modest_serve hrun hexited hsteps 0⟩

/-- The event closes a descriptor, at once or through the kernel. -/
def Event.isCloseOf (fd : Int) : Event → Bool
  | .closed _ fd' => fd' = fd
  | .queued op => op.closes? = some fd
  | _ => false

namespace Departure

/-- A handle goes away, and its slot is disconnecting. Before its close is in the inbox, the loop comes to its end. -/
def unclosed : List Choice :=
  [.begins (.leave 0), .goesOn 0] ++ List.replicate 5 (.goesOn 1) ++ List.replicate 8 (.goesOn 0)

end Departure

/-- A descriptor need not be closed at all: the loop's end leaves it to the party that is about to close it, and that
party finds the slot free. -/
theorem not_closed_overtaken : ∃ (m : Machine Application) (d : Departure Application),
    HonestRun Application.serve m ∧ m.worker.exited = false ∧ (∀ i, (m.spot i).state ≠ .disconnecting) ∧
      Departure.Reaches m d ∧ d.Done ∧ d.machine.trace.count (.bound 0 5) = 1 ∧
        d.machine.trace.countP (·.isCloseOf 5) = 0 := by
  have hplayed : (Machine.small?.bind (·.after? Application.serve [.assign 5 none, .turn false])).any (fun m =>
      (!m.worker.exited && m.worker.slots.all fun s => decide (s.state ≠ .disconnecting)) &&
        ((Departure.start m).play? Departure.unclosed).any fun d => decide d.Done &&
          (decide (d.machine.trace.count (.bound 0 5) = 1) && decide (d.machine.trace.countP (·.isCloseOf 5) = 0))) =
      true := by
    decide +kernel
  simp only [Option.any_eq_true, Bool.and_eq_true, Bool.not_eq_true', decide_eq_true_eq, List.all_eq_true] at hplayed
  obtain ⟨m, hafter, ⟨hexited, hopen⟩, d, hplay, hdone, hbound, hends⟩ := hplayed
  refine ⟨m, d, HonestRun.of_built hafter, hexited, fun i => ?_, Departure.reaches_of_play? hplay, hdone, hbound, hends⟩
  cases hs : (m.spot i).slot? with
  | none => rw [Spot.state_none hs]; exact nofun
  | some s => rw [Spot.state_eq hs]; exact hopen s (List.mem_of_getElem? hs)

end SlotServer
