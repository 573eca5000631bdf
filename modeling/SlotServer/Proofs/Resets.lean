import SlotServer.Proofs.Scenes

/-!
# When a cell is reset

A slot lets the next operation begin before the loop has completed the cell of the last one. For receives that does no
harm: after a receive only a send may begin, and no receive again until the loop has ended that send, which it does once
it is done with the receive. A send may begin right after a send, and then it resets a cell that is still to be
completed.

- `Passage`: every way in which a scene may go on, as far as operations show (`Scene.Step.passage`);
- `awaiting`: how many operations of a half still await the completion of their cell;
- `InTurns`: each operation begins, ends once, and has its cell completed once, with its own outcome, before the next;
- `Scene.Reaches.sound`: what holds however the loop and the calls are interleaved;
- `not_timely_overtaken`: a send overtakes the completion of the one before it.
-/

namespace SlotServer

variable {β : Type}

/-! ## What a step does to operations -/

/-- The slot goes from one state to another as connections come and go, without an operation. -/
def SlotState.Drifts (old new : SlotState) : Prop :=
  new = old ∨ (∀ half : Half, old ≠ half.working) ∧ new ∈ [disconnecting, disconnected, accepting]

theorem SlotState.Drifts.refl (state : SlotState) : state.Drifts state := .inl rfl

/-- The cell shows the same to whoever asks or completes it. -/
structure Cell.Agrees (c c' : Cell) : Prop where
  isCompleted : c'.isCompleted = c.isCompleted
  outcome? : c'.outcome? = c.outcome?

theorem Cell.Agrees.refl (c : Cell) : c.Agrees c := ⟨rfl, rfl⟩

theorem Cell.agrees_poll (c : Cell) (waker : Waker) : c.Agrees (c.poll waker).2 := by
  obtain ⟨phase, left, result⟩ := c
  cases phase <;> exact ⟨rfl, rfl⟩

namespace Slot

/-- Both cells show the same. -/
def Agrees (s s' : Slot) : Prop := ∀ half, (Connection.cell s half).Agrees (Connection.cell s' half)

theorem Agrees.refl (s : Slot) : s.Agrees s := fun _ => .refl _

theorem agrees_poll (s : Slot) (half : Half) (waker : Waker) :
    s.Agrees (Connection.setCell s ((Connection.cell s half).poll waker).2 half) := fun other => by
  by_cases h : other = half
  · subst h
    rw [cell_setCell_self]
    exact Cell.agrees_poll _ _
  · rw [cell_setCell_of_ne _ _ h]
    exact .refl _

/-- A step that goes to a state from one of those allowed, and leaves the cells alone. -/
def Moves (f : Step β) (allowed : List SlotState) (next : SlotState) : Prop :=
  ∀ s : Slot, s.Agrees (f s).2 ∧
    ((∃ b, (f s).1 = .ok b) ∧ s.state ∈ allowed ∧ (f s).2.state = next ∨
      (∃ e, (f s).1 = .error e) ∧ (f s).2.state = s.state)

theorem moves_advance (allowed : List SlotState) (next : SlotState) : Moves (advance allowed next) allowed next := by
  intro s
  by_cases hmem : s.state ∈ allowed
  · rw [advance_of_mem hmem]
    exact ⟨fun half => by cases half <;> exact .refl _, .inl ⟨⟨_, rfl⟩, hmem, rfl⟩⟩
  · rw [advance_of_not_mem hmem]
    exact ⟨.refl s, .inr ⟨⟨_, rfl⟩, rfl⟩⟩

/-- A step that first takes down how many bytes were received. -/
theorem moves_counted {allowed : List SlotState} {next : SlotState} (n : Nat) :
    Moves (fun s => advance allowed next { s with receivedLength := n }) allowed next := by
  intro s
  obtain ⟨hagrees, hmoved⟩ := moves_advance allowed next { s with receivedLength := n }
  refine ⟨fun half => ?_, hmoved⟩
  cases half with
  | receive => exact hagrees .receive
  | send => exact hagrees .send

theorem moves_finishHalf (n : Nat) (half : Half) : Moves (finishHalf n half) [half.working] half.ended := by
  cases half with
  | receive => exact moves_counted n
  | send => exact moves_advance _ _

theorem moves_abortHalf (half : Half) : Moves (abortHalf half) [half.working] .disconnecting := by
  cases half with
  | receive => exact moves_counted 0
  | send => exact moves_advance _ _

theorem moves_finishDisconnect : Moves finishDisconnect [.disconnecting] .disconnected := by
  intro s
  by_cases hstate : s.state = .disconnecting
  · rw [finishDisconnect_ok hstate]
    exact ⟨fun half => by cases half <;> exact .refl _, .inl ⟨⟨_, rfl⟩, List.mem_singleton.2 hstate, rfl⟩⟩
  · rw [finishDisconnect, transition_of_not_mem fun hmem => hstate (List.mem_singleton.1 hmem)]
    exact ⟨.refl s, .inr ⟨⟨_, rfl⟩, rfl⟩⟩

theorem moves_startAccept (fd : Int) (peer : Option Net.SocketAddress) :
    Moves (startAccept fd peer) [.disconnected] .accepting := by
  intro s
  by_cases hstate : s.state = .disconnected
  · rw [startAccept_ok hstate]
    exact ⟨fun half => by cases half <;> exact .refl _, .inl ⟨⟨_, rfl⟩, List.mem_singleton.2 hstate, rfl⟩⟩
  · rw [startAccept_error hstate]
    exact ⟨.refl s, .inr ⟨⟨_, rfl⟩, rfl⟩⟩

end Slot

/-- The cell that the beat completes, and with what. -/
def Beat.due? : Beat → Option (Half × Outcome)
  | complete half outcome => some (half, outcome)
  | _ => none

/-- The beat may end an operation, or make the slot ready for the first one. -/
def Beat.early : Beat → Bool
  | accept | finish .. | abort .. | force => true
  | _ => false

namespace Scene

/-- The cells that the loop is to complete, and with what. -/
def dues (d : Scene) : List (Half × Outcome) := d.todo.filterMap Beat.due?

/-- What may end an operation is all that the loop is to do. -/
def Alone (d : Scene) : Prop := ∀ b ∈ d.todo, b.early = true → d.todo = [b]

end Scene

/-- Every way in which a scene may go on, as far as operations show. -/
inductive Passage (d : Scene) : Scene → Prop
  | drifts {s : Slot} {todo : List Beat} (hstate : d.slot.state.Drifts s.state) (hcells : d.slot.Agrees s)
    (hdues : todo.filterMap Beat.due? = d.dues) : Passage d ⟨s, todo, d.log⟩
  /-- The connection is ready for its first operation. -/
  | accepts {s : Slot} {todo : List Beat} (hold : d.slot.state = .accepting) (hnew : s.state = .accepted)
    (hcells : d.slot.Agrees s) (hnone : d.dues = []) (hdues : todo.filterMap Beat.due? = []) :
    Passage d ⟨s, todo, d.log⟩
  | begins (half : Half) (length : Nat) (hstart : d.slot.state ∈ Slot.startsFrom half) :
    Passage d { d with slot := d.slot.begin length half, log := .began half :: d.log }
  | ends {half : Half} {outcome : Outcome} {s : Slot} {todo : List Beat} (hold : d.slot.state = half.working)
    (hnew : s.state ∈ [half.ended, .disconnecting, .disconnected]) (hcells : d.slot.Agrees s) (hnone : d.dues = [])
    (hdues : todo.filterMap Beat.due? = [(half, outcome)]) : Passage d ⟨s, todo, .ended half outcome :: d.log⟩
  | completes {half : Half} {outcome : Outcome} {waker : Option Waker} {s : Slot} {todo : List Beat}
    (hdone : d.slot.completeHalf half outcome = .ok (waker, s))
    (hdues : d.dues = (half, outcome) :: todo.filterMap Beat.due?) :
    Passage d ⟨s, todo, .completed half outcome :: d.log⟩

namespace Passage

variable {d : Scene} {rest : List Beat}

/-- A call that belongs to no operation. -/
theorem of_call {f : Slot.Step β} {allowed : List SlotState} {next : SlotState} (hf : Slot.Moves f allowed next)
    (hallowed : ∀ half : Half, half.working ∉ allowed)
    (hnext : next ∈ [SlotState.disconnecting, .disconnected, .accepting]) :
    Passage d ⟨(f d.slot).2, d.todo, d.log⟩ := by
  obtain ⟨hagrees, ⟨-, hmem, hstate⟩ | ⟨-, hsame⟩⟩ := hf d.slot
  · exact .drifts (.inr ⟨fun half h => hallowed half (h ▸ hmem), hstate ▸ hnext⟩) hagrees rfl
  · exact .drifts (.inl hsame) hagrees rfl

/-- A beat that belongs to no operation. -/
theorem of_move {f : Slot.Step β} {allowed : List SlotState} {next : SlotState} {more : List Beat}
    (hf : Slot.Moves f allowed next) (hallowed : ∀ half : Half, half.working ∉ allowed)
    (hnext : next ∈ [SlotState.disconnecting, .disconnected, .accepting]) (hmore : more.filterMap Beat.due? = [])
    (hrest : rest.filterMap Beat.due? = d.dues) :
    Passage d ⟨(Beat.ifMoved more [] (f d.slot)).slot, (Beat.ifMoved more [] (f d.slot)).more ++ rest,
      (Beat.ifMoved more [] (f d.slot)).notes ++ d.log⟩ := by
  obtain ⟨hagrees, ⟨⟨b, hok⟩, hmem, hstate⟩ | ⟨⟨e, herror⟩, hsame⟩⟩ := hf d.slot
  · rw [show f d.slot = (.ok b, (f d.slot).2) from Prod.ext hok rfl]
    refine .drifts (.inr ⟨fun half h => hallowed half (h ▸ hmem), hstate ▸ hnext⟩) hagrees ?_
    show (more ++ rest).filterMap Beat.due? = d.dues
    rw [List.filterMap_append, hmore, hrest]
    rfl
  · rw [show f d.slot = (.error e, (f d.slot).2) from Prod.ext herror rfl]
    exact .drifts (.inl hsame) hagrees hrest

/-- A beat by which an operation ends. -/
theorem of_end {f : Slot.Step β} {half : Half} {outcome : Outcome} {next : SlotState} {more : List Beat}
    (hf : Slot.Moves f [half.working] next) (hnext : next ∈ [half.ended, .disconnecting, .disconnected])
    (hmore : more.filterMap Beat.due? = [(half, outcome)]) (hnone : d.dues = []) (hrest : rest = []) :
    Passage d ⟨(Beat.ifMoved more [.ended half outcome] (f d.slot)).slot,
      (Beat.ifMoved more [.ended half outcome] (f d.slot)).more ++ rest,
      (Beat.ifMoved more [.ended half outcome] (f d.slot)).notes ++ d.log⟩ := by
  subst hrest
  obtain ⟨hagrees, ⟨⟨b, hok⟩, hmem, hstate⟩ | ⟨⟨e, herror⟩, hsame⟩⟩ := hf d.slot
  · rw [show f d.slot = (.ok b, (f d.slot).2) from Prod.ext hok rfl]
    refine .ends (List.mem_singleton.1 hmem) (hstate ▸ hnext) hagrees hnone ?_
    rw [List.append_nil]
    exact hmore
  · rw [show f d.slot = (.error e, (f d.slot).2) from Prod.ext herror rfl]
    exact .drifts (.inl hsame) hagrees hnone.symm

end Passage

/-- What a beat does. -/
theorem Scene.GoesOn.passage {d d' : Scene} (h : d.GoesOn d') (halone : d.Alone) : Passage d d' := by
  cases h with
  | @beat b rest taken next htodo hrun =>
  -- what may end an operation is alone, so that nothing else is to be completed
  have hearly : b.early = true → rest = [] ∧ d.dues = b.due?.toList := fun hb => by
    have hall := halone b (by rw [htodo]; exact List.mem_cons_self ..) hb
    have hrest : rest = [] := by
      rw [htodo] at hall
      exact (List.cons.inj hall).2
    refine ⟨hrest, ?_⟩
    rw [Scene.dues, hall, List.filterMap_cons]
    cases b.due? <;> rfl
  have hquiet : b.due? = none → rest.filterMap Beat.due? = d.dues := fun hb => by
    rw [Scene.dues, htodo, List.filterMap_cons, hb]
  cases b with
  | accept =>
    obtain rfl := Except.ok.inj hrun
    obtain ⟨rfl, hnone⟩ := hearly rfl
    obtain ⟨hagrees, ⟨⟨c, hok⟩, hmem, hstate⟩ | ⟨⟨e, herror⟩, hsame⟩⟩ :=
      Slot.moves_advance [.accepting] .accepted d.slot
    · rw [show d.slot.finishAccept = (.ok c, d.slot.finishAccept.2) from Prod.ext hok rfl]
      exact .accepts (List.mem_singleton.1 hmem) hstate hagrees hnone rfl
    · rw [show d.slot.finishAccept = (.error e, d.slot.finishAccept.2) from Prod.ext herror rfl]
      exact .drifts (.inl hsame) hagrees hnone.symm
  | attach =>
    obtain rfl := Except.ok.inj hrun
    exact .drifts (.refl _) (fun half => by cases half <;> exact .refl _) (hquiet rfl)
  | abandon =>
    obtain rfl := Except.ok.inj hrun
    exact .of_move (Slot.moves_advance _ _) (fun half => by cases half <;> decide) (by decide) rfl (hquiet rfl)
  | finish half n =>
    obtain rfl := Except.ok.inj hrun
    obtain ⟨hrest, hnone⟩ := hearly rfl
    exact .of_end (Slot.moves_finishHalf n half) (List.mem_cons_self ..) rfl hnone hrest
  | abort half outcome =>
    obtain rfl := Except.ok.inj hrun
    obtain ⟨hrest, hnone⟩ := hearly rfl
    exact .of_end (Slot.moves_abortHalf half) (by simp) rfl hnone hrest
  | check =>
    obtain rfl := Except.ok.inj hrun
    refine .drifts (.refl _) (.refl _) ?_
    rw [List.filterMap_append, hquiet rfl]
    split <;> rfl
  | disconnect =>
    obtain rfl := Except.ok.inj hrun
    exact .of_move (Slot.moves_advance _ _) (fun half => by cases half <;> decide) (by decide) rfl (hquiet rfl)
  | close =>
    obtain rfl := Except.ok.inj hrun
    refine .drifts (.refl _) (.refl _) ?_
    rw [List.filterMap_append, hquiet rfl]
    split <;> rfl
  | unbind =>
    obtain rfl := Except.ok.inj hrun
    exact .of_move Slot.moves_finishDisconnect (fun half => by cases half <;> decide) (by decide) rfl (hquiet rfl)
  | release =>
    rw [Beat.run] at hrun
    split at hrun <;> cases hrun
    rename_i hreleased
    obtain rfl := (congrArg Prod.snd hreleased).symm
    exact .drifts (.refl _) (fun half => by cases half <;> exact .refl _) (hquiet rfl)
  | force =>
    obtain ⟨rfl, hnone⟩ := hearly rfl
    by_cases hfree : d.slot.state = .disconnected
    · rw [Beat.run, Slot.force_free hfree] at hrun
      obtain rfl := Except.ok.inj hrun
      exact .drifts (.refl _) (.refl _) hnone.symm
    rw [Beat.run, Slot.force_live hfree] at hrun
    obtain rfl := Except.ok.inj hrun
    have hcells : d.slot.Agrees d.slot.unbound := fun half => by cases half <;> exact .refl _
    dsimp only
    cases hhalf : d.slot.state.half? with
    | none =>
      have hidle : ∀ half : Half, d.slot.state ≠ half.working := fun half h => by
        rw [SlotState.half?_eq_some.2 h] at hhalf
        cases hhalf
      exact .drifts (.inr ⟨hidle, by simp⟩) hcells hnone.symm
    | some half => exact .ends (SlotState.half?_eq_some.1 hhalf) (by simp) hcells hnone rfl
  | complete half outcome =>
    rw [Beat.run] at hrun
    cases hdone : d.slot.completeHalf half outcome with
    | error fault =>
      rw [hdone] at hrun
      cases hrun
    | ok done =>
      rw [hdone] at hrun
      obtain rfl := Except.ok.inj hrun
      refine .completes hdone ?_
      rw [Scene.dues, htodo]
      rfl

/-- What a call does. -/
theorem Scene.Call.passage {d : Scene} {c : Call} {notes : List Note} {s : Slot}
    (hrun : c.run d.slot = .ok (notes, s)) : Passage d { d with slot := s, log := notes ++ d.log } := by
  cases c with
  | bind fd peer =>
    cases hrun
    exact .of_call (Slot.moves_startAccept fd peer) (fun half => by cases half <;> decide) (by decide)
  | receive =>
    rw [Call.run, Slot.startReceive_eq] at hrun
    split at hrun <;> cases hrun
    · rename_i hstart
      exact .begins .receive 0 hstart
    · exact .drifts (.refl _) (.refl _) rfl
  | send length =>
    rw [Call.run, Slot.startSend_eq] at hrun
    split at hrun
    · cases hrun
      exact .drifts (.refl _) (.refl _) rfl
    · split at hrun <;> cases hrun
      · rename_i hstart
        exact .begins .send length hstart
      · exact .drifts (.refl _) (.refl _) rfl
  | poll half waker =>
    cases hrun
    refine .drifts ?_ (Slot.agrees_poll _ half waker) rfl
    rw [Slot.state_setCell]
    exact .refl _
  | detach =>
    cases hrun
    exact .drifts (.refl _) (fun half => by cases half <;> exact .refl _) rfl
  | disconnect =>
    cases hrun
    exact .of_call (Slot.moves_advance _ _) (fun half => by cases half <;> decide) (by decide)
  | release =>
    rw [Call.run] at hrun
    split at hrun <;> cases hrun
    rename_i hreleased
    obtain rfl := (congrArg Prod.snd hreleased).symm
    exact .drifts (.refl _) (fun half => by cases half <;> exact .refl _) rfl

namespace Scene

variable {d d' : Scene}

theorem mem_ifMoved {more : List Beat} {notes : List Note} {r : Except Error β × Slot} {b : Beat}
    (h : b ∈ (Beat.ifMoved more notes r).more) : b ∈ more := by
  obtain ⟨answer, s⟩ := r
  cases answer with
  | error e => cases h
  | ok c => exact h

/-- What a beat leaves to be done ends no operation. -/
theorem late_more {b c : Beat} {taken : Bool} {s : Slot} {next : Beat.Next} (hrun : b.run taken s = .ok next)
    (hc : c ∈ next.more) : c.early = false := by
  have hlate : ∀ more : List Beat, (∀ b ∈ more, b.early = false) → c ∈ more → c.early = false := fun _ h => h c
  cases b with
  | accept | abandon | finish half n | abort half outcome | disconnect | unbind =>
    obtain rfl := Except.ok.inj hrun
    exact hlate _ (by simp [Beat.early]) (mem_ifMoved hc)
  | attach =>
    obtain rfl := Except.ok.inj hrun
    cases hc
  | check | close =>
    obtain rfl := Except.ok.inj hrun
    dsimp only at hc
    split at hc
    · cases hc
    · exact hlate [_] (by simp [Beat.early]) hc
  | release =>
    rw [Beat.run] at hrun
    split at hrun <;> cases hrun
    cases hc
  | force =>
    rw [Beat.run] at hrun
    split at hrun <;> cases hrun
    · cases hc
    · rename_i state _ _ _
      refine hlate _ (fun b hb => ?_) hc
      rcases List.mem_append.1 hb with hb | hb
      · obtain ⟨half, -, rfl⟩ := Option.map_eq_some_iff.1 (Option.mem_toList.1 hb)
        rfl
      · rw [List.mem_singleton.1 hb]
        rfl
  | complete half outcome =>
    rw [Beat.run] at hrun
    cases hdone : s.completeHalf half outcome with
    | error fault =>
      rw [hdone] at hrun
      cases hrun
    | ok done =>
      rw [hdone] at hrun
      obtain rfl := Except.ok.inj hrun
      cases hc

theorem Step.alone (h : d.Step d') (halone : d.Alone) : d'.Alone := by
  cases h with
  | calls => exact halone
  | begins =>
    intro b hb _
    rw [List.mem_singleton.1 hb]
  | goesOn h =>
    obtain ⟨htodo, hrun⟩ := h
    rename_i b rest taken next
    intro c hc hearly
    rcases List.mem_append.1 hc with hmore | hrest
    · rw [late_more hrun hmore] at hearly
      cases hearly
    · have hall := halone c (by rw [htodo]; exact List.mem_cons_of_mem _ hrest) hearly
      rw [htodo] at hall
      rw [(List.cons.inj hall).2] at hrest
      cases hrest

theorem Step.passage (h : d.Step d') (halone : d.Alone) : Passage d d' := by
  cases h with
  | calls hrun => exact Call.passage hrun
  | begins hidle hb =>
    rename_i b
    refine .drifts (.refl _) (.refl _) ?_
    rw [dues, hidle]
    cases b <;> first | rfl | cases hb
  | goesOn h => exact h.passage halone

end Scene

/-! ## Operations that await a completion -/

/-- The half of the operation. -/
def Note.half : Note → Half
  | began half | ended half _ | completed half _ => half

/-- An operation of the half begins. -/
def Note.isBegin (half : Half) : Note → Bool
  | began other => other = half
  | ended .. | completed .. => false

/-- The cell of the half is completed. -/
def Note.isCompletion (half : Half) : Note → Bool
  | completed other _ => other = half
  | began _ | ended .. => false

/-- How many operations of the half began whose cell was not completed since. -/
def awaiting (half : Half) (log : List Note) : Nat := log.countP (·.isBegin half) - log.countP (·.isCompletion half)

/-- Each operation of the half began when the cell awaited no completion. -/
def Timely (half : Half) : List Note → Prop
  | [] => True
  | e :: log => (e.isBegin half = true → awaiting half log = 0) ∧ Timely half log

instance Timely.decidable (half : Half) : (log : List Note) → Decidable (Timely half log)
  | [] => .isTrue trivial
  | _ :: log => @instDecidableAnd _ _ inferInstance (Timely.decidable half log)

/-- The states that a slot is never in while the loop is to complete the cell of the half. -/
def Half.bars : Half → List SlotState
  | receive => .receiving :: Slot.startsFrom .receive
  | send => [.accepted, .received]

theorem Slot.ne_working_of_startsFrom {s : Slot} {other : Half} (hstart : s.state ∈ startsFrom other) (half : Half) :
    s.state ≠ half.working := fun hstate => by
  have hworks := Half.isIdle_working half
  rw [← hstate, isIdle_of_startsFrom hstart] at hworks
  cases hworks

/-- What holds of the operations of a half, however the loop and the calls are interleaved. -/
structure Scene.Steady (half : Half) (d : Scene) : Prop where
  /-- An operation awaits its completion while it is under way, and while the loop is to complete its cell. -/
  counted : d.log.countP (·.isBegin half) = d.log.countP (·.isCompletion half) +
    ((if d.slot.state = half.working then 1 else 0) + d.dues.countP (·.1 = half))
  few : d.dues.length ≤ 1
  barred : ∀ o, (half, o) ∈ d.dues → d.slot.state ∉ half.bars

namespace Scene.Steady

variable {half : Half} {d d' : Scene}

theorem awaiting_eq (h : d.Steady half) : awaiting half d.log =
    (if d.slot.state = half.working then 1 else 0) + d.dues.countP (·.1 = half) := by
  rw [awaiting, h.counted, Nat.add_sub_cancel_left]

/-- An operation begins where none is under way. -/
theorem awaiting_idle (h : d.Steady half) {other : Half} (hstart : d.slot.state ∈ Slot.startsFrom other) :
    awaiting half d.log = d.dues.countP (·.1 = half) := by
  rw [h.awaiting_eq, if_neg (Slot.ne_working_of_startsFrom hstart half), Nat.zero_add]

end Scene.Steady

namespace Passage

variable {half : Half} {d d' : Scene}

/-- How an operation of the half counts while it is under way. -/
theorem steady_drifts {s : Slot} {todo : List Beat} (hsteady : d.Steady half) (hstate : d.slot.state.Drifts s.state)
    (hdues : todo.filterMap Beat.due? = d.dues) : Scene.Steady half ⟨s, todo, d.log⟩ := by
  obtain ⟨hcounted, hfew, hbarred⟩ := hsteady
  rcases hstate with hsame | ⟨hidle, hnew⟩
  · refine ⟨?_, ?_, ?_⟩ <;> simp only [Scene.dues, hdues, hsame]
    · exact hcounted
    · exact hfew
    · exact hbarred
  · have hnot : s.state ≠ half.working := fun hs => by
      rw [hs] at hnew
      cases half <;> exact absurd hnew (by decide)
    refine ⟨?_, ?_, fun o ho => ?_⟩
    · simp only [Scene.dues, hdues, if_neg hnot]
      rw [if_neg (hidle half)] at hcounted
      exact hcounted
    · simp only [Scene.dues, hdues]
      exact hfew
    · simp only [List.mem_cons, List.not_mem_nil, or_false] at hnew
      rcases hnew with hs | hs | hs <;> rw [hs] <;> cases half <;> decide

/-- What holds of the operations of a half, every step keeps. -/
theorem steady (h : Passage d d') (hsteady : d.Steady half) : d'.Steady half := by
  cases h with
  | drifts hstate hcells hdues => exact steady_drifts hsteady hstate hdues
  | @accepts s todo hold hnew hcells hnone hdues =>
    obtain ⟨hcounted, -, -⟩ := hsteady
    have hdues' : Scene.dues ⟨s, todo, d.log⟩ = [] := hdues
    refine ⟨?_, ?_, fun o ho => ?_⟩
    · rw [hdues', hnew, if_neg (by cases half <;> decide)]
      rw [hnone, hold, if_neg (by cases half <;> decide)] at hcounted
      exact hcounted
    · rw [hdues']
      exact Nat.zero_le _
    · rw [hdues'] at ho
      cases ho
  | begins other length hstart =>
    obtain ⟨hcounted, hfew, hbarred⟩ := hsteady
    rw [if_neg (Slot.ne_working_of_startsFrom hstart half)] at hcounted
    refine ⟨?_, hfew, fun o ho => ?_⟩
    · have hdues : Scene.dues { d with slot := d.slot.begin length other, log := .began other :: d.log } = d.dues := rfl
      rw [hdues, Slot.state_begin, List.countP_cons, List.countP_cons, hcounted]
      cases half <;> cases other <;> simp [Note.isBegin, Note.isCompletion, Half.working] <;> omega
    · -- where a receive may begin, none is to be completed
      have hfree := hbarred o ho
      rw [Slot.state_begin]
      cases half with
      | send => cases other <;> decide
      | receive =>
        cases other with
        | send => decide
        | receive => exact absurd (List.mem_cons_of_mem _ hstart) hfree
  | @ends other outcome s todo hold hnew hcells hnone hdues =>
    obtain ⟨hcounted, -, -⟩ := hsteady
    have hdues' : Scene.dues ⟨s, todo, .ended other outcome :: d.log⟩ = [(other, outcome)] := hdues
    have hnot : s.state ≠ half.working := fun hs => by
      rw [hs] at hnew
      cases half <;> cases other <;> exact absurd hnew (by decide)
    rw [hnone, hold] at hcounted
    refine ⟨?_, ?_, fun o ho => ?_⟩
    · rw [hdues', if_neg hnot, List.countP_cons, List.countP_cons, hcounted]
      cases half <;> cases other <;> simp [Note.isBegin, Note.isCompletion, Half.working]
    · rw [hdues']
      exact Nat.le_refl _
    · rw [hdues'] at ho
      obtain ⟨rfl, -⟩ := Prod.mk.inj (List.mem_singleton.1 ho)
      simp only [List.mem_cons, List.not_mem_nil, or_false] at hnew
      rcases hnew with hs | hs | hs <;> rw [hs] <;> cases half <;> decide
  | @completes other outcome waker s todo hdone hdues =>
    obtain ⟨hcounted, hfew, hbarred⟩ := hsteady
    obtain ⟨c, -, -, rfl⟩ := Slot.completeHalf_ok hdone
    have hdues' : d.dues = (other, outcome) ::
        Scene.dues ⟨Connection.setCell d.slot c other, todo, .completed other outcome :: d.log⟩ := hdues
    rw [hdues'] at hcounted hfew hbarred
    refine ⟨?_, Nat.le_of_succ_le hfew, fun o ho => ?_⟩
    · rw [Slot.state_setCell, List.countP_cons, List.countP_cons, hcounted, List.countP_cons]
      cases half <;> cases other <;> simp [Note.isBegin, Note.isCompletion] <;> omega
    · rw [Slot.state_setCell]
      exact hbarred o (List.mem_cons_of_mem _ ho)

end Passage

/-! ## Operations in turns -/

/-- How the operations of a half stand. -/
inductive Standing
  /-- Each that began was completed, the last one with this outcome. -/
  | rest (last : Option Outcome)
  | underWay
  /-- One has ended with this outcome, which its cell does not hold yet. -/
  | ended (outcome : Outcome)

/-- The operations of the half took turns: each began, ended once, and had its cell completed once with its own outcome,
before the next one began. -/
inductive InTurns (half : Half) : List Note → Standing → Prop
  | nil : InTurns half [] (.rest none)
  | began {log : List Note} {last : Option Outcome} (h : InTurns half log (.rest last)) :
    InTurns half (.began half :: log) .underWay
  | ended {log : List Note} {o : Outcome} (h : InTurns half log .underWay) :
    InTurns half (.ended half o :: log) (.ended o)
  | completed {log : List Note} {o : Outcome} (h : InTurns half log (.ended o)) :
    InTurns half (.completed half o :: log) (.rest (some o))
  | other {log : List Note} {e : Note} {st : Standing} (he : e.half ≠ half) (h : InTurns half log st) :
    InTurns half (e :: log) st

namespace Standing

/-- The slot and what the loop has to do are as the operations of the half stand, and the cell holds the outcome of the
last one as soon as the loop is done with it. -/
def Fits (half : Half) (d : Scene) : Standing → Prop
  | rest last => d.slot.state ≠ half.working ∧ (∀ o, (half, o) ∉ d.dues) ∧
      ∀ o, last = some o → (Connection.cell d.slot half).outcome? = some o
  | underWay => d.slot.state = half.working ∧ (∀ o, (half, o) ∉ d.dues) ∧
      (Connection.cell d.slot half).isCompleted = false
  | ended o => d.slot.state ≠ half.working ∧ (half, o) ∈ d.dues ∧ (Connection.cell d.slot half).isCompleted = false

theorem Fits.congr {half : Half} {d d' : Scene} {st : Standing} (h : st.Fits half d)
    (hstate : d'.slot.state = half.working ↔ d.slot.state = half.working)
    (hdues : ∀ o, (half, o) ∈ d'.dues ↔ (half, o) ∈ d.dues)
    (hcell : (Connection.cell d.slot half).Agrees (Connection.cell d'.slot half)) : st.Fits half d' := by
  cases st with
  | rest last =>
    obtain ⟨hidle, hnone, hlast⟩ := h
    exact ⟨fun hs => hidle (hstate.1 hs), fun o ho => hnone o ((hdues o).1 ho),
      fun o ho => hcell.outcome?.trans (hlast o ho)⟩
  | underWay =>
    obtain ⟨hworking, hnone, hopen⟩ := h
    exact ⟨hstate.2 hworking, fun o ho => hnone o ((hdues o).1 ho), hcell.isCompleted.trans hopen⟩
  | ended o =>
    obtain ⟨hidle, hdue, hopen⟩ := h
    exact ⟨fun hs => hidle (hstate.1 hs), (hdues o).2 hdue, hcell.isCompleted.trans hopen⟩

end Standing

/-- The operations of the half took turns, and the scene is as they stand. -/
def Scene.Turned (half : Half) (d : Scene) : Prop := ∃ st, InTurns half d.log st ∧ st.Fits half d

theorem Half.working_inj {half other : Half} (h : half.working = other.working) : half = other := by
  cases half <;> cases other <;> first | rfl | cases h

namespace Passage

variable {half : Half} {d d' : Scene}

/-- Operations of the other half are none of this one's. -/
theorem turned_other {e : Note} {s : Slot} {todo : List Beat} (he : e.half ≠ half) (hturned : d.Turned half)
    (hstate : s.state = half.working ↔ d.slot.state = half.working)
    (hdues : ∀ o, (half, o) ∈ todo.filterMap Beat.due? ↔ (half, o) ∈ d.dues)
    (hcell : (Connection.cell d.slot half).Agrees (Connection.cell s half)) :
    Scene.Turned half ⟨s, todo, e :: d.log⟩ := by
  obtain ⟨st, hin, hfits⟩ := hturned
  exact ⟨st, .other he hin, hfits.congr hstate hdues hcell⟩

/-- As long as operations of the half begin when their cell awaits nothing, they take turns. -/
theorem turned (h : Passage d d') (hsteady : d.Steady half) (htimely : Timely half d'.log) (hturned : d.Turned half) :
    d'.Turned half := by
  cases h with
  | drifts hstate hcells hdues =>
    obtain ⟨st, hin, hfits⟩ := hturned
    refine ⟨st, hin, hfits.congr ?_ (fun o => by rw [Scene.dues, hdues]) (hcells half)⟩
    rcases hstate with hsame | ⟨hidle, hnew⟩
    · rw [hsame]
    · refine iff_of_false (fun hs => ?_) (hidle half)
      rw [hs] at hnew
      cases half <;> exact absurd hnew (by decide)
  | accepts hold hnew hcells hnone hdues =>
    obtain ⟨st, hin, hfits⟩ := hturned
    refine ⟨st, hin, hfits.congr ?_ (fun o => by rw [Scene.dues, hdues, hnone]) (hcells half)⟩
    rw [hold, hnew]
    cases half <;> decide
  | begins other length hstart =>
    have hidle := Slot.ne_working_of_startsFrom hstart half
    by_cases hhalf : other = half
    · subst hhalf
      -- in time means that the loop has no completion to make, so that the last operation is at rest
      have hnone : d.dues.countP (·.1 = other) = 0 :=
        (hsteady.awaiting_idle hstart).symm.trans (htimely.1 (decide_eq_true rfl))
      have hnodue : ∀ o, (other, o) ∉ d.dues := fun o ho => List.countP_eq_zero.1 hnone _ ho (decide_eq_true rfl)
      obtain ⟨st, hin, hfits⟩ := hturned
      refine ⟨.underWay, ?_, Slot.state_begin .., hnodue, by rw [Slot.cell_begin_self]; rfl⟩
      cases st with
      | rest last => exact .began hin
      | underWay => exact absurd hfits.1 hidle
      | ended o => exact absurd hfits.2.1 (hnodue o)
    · refine turned_other hhalf hturned ?_ (fun _ => Iff.rfl) ?_
      · rw [Slot.state_begin]
        exact iff_of_false (fun hs => hhalf (Half.working_inj hs)) hidle
      · rw [Slot.cell_begin_of_ne _ _ (Ne.symm hhalf)]
        exact .refl _
  | @ends other outcome s todo hold hnew hcells hnone hdues =>
    have hnot : s.state ≠ half.working := fun hs => by
      rw [hs] at hnew
      cases half <;> cases other <;> exact absurd hnew (by decide)
    by_cases hhalf : other = half
    · subst hhalf
      obtain ⟨st, hin, hfits⟩ := hturned
      -- what ends was under way
      cases st with
      | rest last => exact absurd hold hfits.1
      | ended o => exact absurd hold hfits.1
      | underWay =>
        refine ⟨.ended outcome, .ended hin, hnot, ?_, (hcells other).isCompleted.trans hfits.2.2⟩
        rw [Scene.dues, hdues]
        exact List.mem_singleton_self _
    · refine turned_other hhalf hturned (iff_of_false hnot fun hs => hhalf ?_) (fun o => ?_) (hcells half)
      · exact Half.working_inj (hold.symm.trans hs)
      · rw [hdues, hnone, List.mem_singleton]
        exact iff_of_false (fun ho => hhalf (congrArg Prod.fst ho).symm) List.not_mem_nil
  | @completes other outcome waker s todo hdone hdues =>
    obtain ⟨c, -, hshows, rfl⟩ := Slot.completeHalf_ok hdone
    -- nothing else is to be completed
    have hlast : todo.filterMap Beat.due? = [] := by
      have hfew := hsteady.few
      rw [hdues] at hfew
      exact List.eq_nil_of_length_eq_zero (Nat.le_zero.1 (Nat.le_of_succ_le_succ hfew))
    rw [hlast] at hdues
    by_cases hhalf : other = half
    · subst hhalf
      obtain ⟨st, hin, hfits⟩ := hturned
      cases st with
      | rest last => exact absurd (by rw [hdues]; exact List.mem_singleton_self _) (hfits.2.1 outcome)
      | underWay => exact absurd (by rw [hdues]; exact List.mem_singleton_self _) (hfits.2.1 outcome)
      | ended o =>
        have ho := hfits.2.1
        rw [hdues, List.mem_singleton] at ho
        cases ho
        refine ⟨.rest (some outcome), .completed hin, by rw [Slot.state_setCell]; exact hfits.1, fun o ho => ?_,
          fun o ho => ?_⟩
        · rw [Scene.dues, hlast] at ho
          cases ho
        · cases ho
          rw [Slot.cell_setCell_self]
          exact hshows
    · refine turned_other hhalf hturned (by rw [Slot.state_setCell]) (fun o => ?_) ?_
      · rw [hlast, hdues, List.mem_singleton]
        exact iff_of_false List.not_mem_nil fun ho => hhalf (congrArg Prod.fst ho).symm
      · rw [Slot.cell_setCell_of_ne _ _ (Ne.symm hhalf)]
        exact .refl _

end Passage

/-! ## However the loop and the calls are interleaved -/

theorem Scene.mem_dues {d : Scene} {half : Half} {o : Outcome} : (half, o) ∈ d.dues ↔ .complete half o ∈ d.todo := by
  refine List.mem_filterMap.trans ⟨fun ⟨b, hb, hdue⟩ => ?_, fun hmem => ⟨_, hmem, rfl⟩⟩
  cases b <;> cases hdue
  exact hb

namespace Scene.Steady

variable {half : Half} {d : Scene}

/-- Where an operation may begin, a cell that awaits a completion is one that the loop is to complete. -/
theorem awaiting_ne_zero (h : d.Steady half) {other : Half} (hstart : d.slot.state ∈ Slot.startsFrom other) :
    awaiting half d.log ≠ 0 ↔ ∃ o, .complete half o ∈ d.todo := by
  rw [h.awaiting_idle hstart, ← Nat.pos_iff_ne_zero, List.countP_pos_iff]
  constructor
  · rintro ⟨⟨other, o⟩, ho, hhalf⟩
    obtain rfl : other = half := of_decide_eq_true hhalf
    exact ⟨o, mem_dues.1 ho⟩
  · rintro ⟨o, ho⟩
    exact ⟨_, mem_dues.2 ho, decide_eq_true rfl⟩

/-- A receive begins only on a cell that awaits nothing. -/
theorem receive (h : d.Steady .receive) (hstart : d.slot.state ∈ Slot.startsFrom .receive) :
    awaiting .receive d.log = 0 := by
  refine Decidable.not_not.1 fun hne => ?_
  obtain ⟨o, ho⟩ := (h.awaiting_ne_zero hstart).1 hne
  exact h.barred o (mem_dues.2 ho) (List.mem_cons_of_mem _ hstart)

/-- A send begins on a cell that awaits something only between the end of a send and the completion of its cell. -/
theorem send (h : d.Steady .send) (hstart : d.slot.state ∈ Slot.startsFrom .send) :
    awaiting .send d.log ≠ 0 ↔ d.slot.state = .sent ∧ ∃ o, .complete .send o ∈ d.todo := by
  refine (h.awaiting_ne_zero hstart).trans ⟨fun hdue => ⟨?_, hdue⟩, And.right⟩
  obtain ⟨o, ho⟩ := hdue
  have hfree := h.barred o (mem_dues.2 ho)
  simp only [Half.bars, Slot.startsFrom, List.mem_cons, List.not_mem_nil, or_false, not_or] at hfree hstart
  exact (hstart.resolve_left hfree.1).resolve_left hfree.2

end Scene.Steady

namespace Passage

variable {half : Half} {d d' : Scene}

theorem timely (h : Passage d d') (htimely : Timely half d'.log) : Timely half d.log := by
  cases h with
  | drifts | accepts => exact htimely
  | begins | ends | completes => exact htimely.2

/-- A receive never begins too early. -/
theorem timely_receive (h : Passage d d') (hsteady : d.Steady .receive) (htimely : Timely .receive d.log) :
    Timely .receive d'.log := by
  cases h with
  | drifts | accepts => exact htimely
  | ends | completes => exact ⟨(fun hbegin => by cases hbegin), htimely⟩
  | begins other length hstart =>
    refine ⟨fun hbegin => ?_, htimely⟩
    obtain rfl : other = .receive := of_decide_eq_true hbegin
    exact hsteady.receive hstart

end Passage

namespace Scene.Reaches

variable {s : Slot} {d : Scene}

theorem alone (h : Reaches s d) : d.Alone := by
  induction h with
  | refl => exact fun b hb => by cases hb
  | tail _ hstep ih => exact hstep.alone ih

theorem steady (hfree : s.state = .disconnected) (h : Reaches s d) (half : Half) : d.Steady half := by
  induction h with
  | refl =>
    refine ⟨?_, Nat.zero_le _, fun o ho => by cases ho⟩
    rw [hfree, if_neg half.working_ne_disconnected.symm]
    rfl
  | tail hsteps hstep ih => exact (hstep.passage (alone hsteps)).steady ih

theorem timely_receive (hfree : s.state = .disconnected) (h : Reaches s d) : Timely .receive d.log := by
  induction h with
  | refl => trivial
  | tail hsteps hstep ih => exact (hstep.passage (alone hsteps)).timely_receive (steady hfree hsteps _) ih

theorem turned (hfree : s.state = .disconnected) (h : Reaches s d) {half : Half} (htimely : Timely half d.log) :
    d.Turned half := by
  induction h with
  | refl =>
    have hidle : s.state ≠ half.working := fun hs => half.working_ne_disconnected (hs.symm.trans hfree)
    exact ⟨.rest none, .nil, hidle, fun _ => List.not_mem_nil, nofun⟩
  | tail hsteps hstep ih =>
    have hpassage := hstep.passage (alone hsteps)
    exact hpassage.turned (steady hfree hsteps half) htimely (ih (hpassage.timely htimely))

end Scene.Reaches

/-- What holds of a slot, however the loop and the calls are interleaved. -/
structure Scene.Orderly (d : Scene) : Prop where
  /-- A receive begins only on a cell that awaits no completion. -/
  receive : d.slot.startReceive.1 = .ok () → awaiting .receive d.log = 0
  /-- A send begins on a cell that awaits a completion exactly where the loop has ended a send and is to complete its
  cell. -/
  send : ∀ length, (d.slot.startSend length).1 = .ok () →
    (awaiting .send d.log ≠ 0 ↔ d.slot.state = .sent ∧ ∃ o, .complete .send o ∈ d.todo)
  timely : Timely .receive d.log
  /-- Operations of a half that began when its cell awaited nothing took turns. -/
  turned : ∀ half, Timely half d.log → d.Turned half
  /-- One that begins after the outcome of the last one was there begins in time. -/
  awaited : ∀ half, Timely half d.log → (Connection.cell d.slot half).isCompleted = true → awaiting half d.log = 0
  /-- No cell is completed twice. -/
  faultless : ∀ half o rest, Timely half d.log → d.todo = .complete half o :: rest →
    ∀ fault, d.slot.completeHalf half o ≠ .error fault

/-- A receive never resets a cell that is still to be completed, and its cell is completed once, with its own outcome.
The same goes for sends, as long as none overtakes the completion of the one before it. -/
theorem Scene.Reaches.orderly {s : Slot} {d : Scene} (hfree : s.state = .disconnected) (h : Reaches s d) :
    d.Orderly := by
  have hsteady := steady hfree h
  refine ⟨fun hok => ?_, fun length hok => ?_, timely_receive hfree h, fun half => turned hfree h, ?_, ?_⟩
  · rw [Slot.startReceive_eq] at hok
    split at hok
    case isFalse => cases hok
    rename_i hstart
    exact (hsteady .receive).receive hstart
  · rw [Slot.startSend_eq] at hok
    split at hok
    · cases hok
    · split at hok
      case isFalse => cases hok
      rename_i hstart
      exact (hsteady .send).send hstart
  · intro half htimely hcompleted
    obtain ⟨st, -, hfits⟩ := turned hfree h htimely
    cases st with
    | rest last =>
      rw [(hsteady half).awaiting_eq, if_neg hfits.1, Nat.zero_add]
      refine List.countP_eq_zero.2 fun (other, o) ho hhalf => ?_
      obtain rfl : other = half := of_decide_eq_true hhalf
      exact hfits.2.1 o ho
    | underWay => exact absurd (hfits.2.2.symm.trans hcompleted) Bool.false_ne_true
    | ended o => exact absurd (hfits.2.2.symm.trans hcompleted) Bool.false_ne_true
  · intro half o rest htimely htodo fault hfault
    have hdue : (half, o) ∈ d.dues := mem_dues.2 (by rw [htodo]; exact List.mem_cons_self ..)
    obtain ⟨hphase, -⟩ := Slot.completeHalf_error hfault
    have hcompleted : (Connection.cell d.slot half).isCompleted = true := decide_eq_true hphase
    obtain ⟨st, -, hfits⟩ := turned hfree h htimely
    cases st with
    | rest last => exact hfits.2.1 o hdue
    | underWay => exact hfits.2.1 o hdue
    | ended o => exact Bool.false_ne_true (hfits.2.2.symm.trans hcompleted)

namespace Scene

/-- A free slot over 64 bytes. -/
def free : Scene := ⟨{ index := 0, receiveHalf := ⟨0, 0, 32⟩, sendHalf := ⟨0, 32, 32⟩ }, [], []⟩

/-- A socket is bound to the slot and taken over. -/
def opening : List Cue := [.call (.bind 7 none), .begins .accept, .goesOn true, .goesOn true]

/-- A receive of three bytes, and a send of them that begins before the loop is done with the receive. -/
def echoing : List Cue :=
  [.call .receive, .begins (.finish .receive 3), .goesOn true, .call (.send 3), .goesOn true, .goesOn true,
    .begins (.finish .send 3), .goesOn true, .goesOn true, .goesOn true]

/-- A send that the loop has ended, and whose cell is not completed yet. -/
def sent : List Cue := [.call (.send 1), .begins (.finish .send 1), .goesOn true, .goesOn true]

/-- The next send, which begins before the loop goes on. -/
def overtaking : List Cue := [.call (.send 2), .goesOn true]

/-- The end of that send, up to the completion of its cell. -/
def sentAgain : List Cue := [.begins (.finish .send 2), .goesOn true, .goesOn true]

end Scene

/-- Bytes are received and sent back. -/
theorem Scene.Reaches.orderly_echoing : Scene.free.slot.state = .disconnected ∧
    ∃ d, Scene.Reaches Scene.free.slot d ∧ d.todo.isEmpty = true ∧ d.log.length = 6 ∧ Timely .send d.log ∧
      d.Orderly := by
  have hplayed : (Scene.free.play? (Scene.opening ++ Scene.echoing)).any (fun d =>
      d.todo.isEmpty && (decide (d.log.length = 6) && decide (Timely .send d.log))) = true := by decide +kernel
  simp only [Option.any_eq_true, Bool.and_eq_true, decide_eq_true_eq] at hplayed
  obtain ⟨d, hplay, hidle, hlog, htimely⟩ := hplayed
  have hsteps : Scene.Reaches Scene.free.slot d := Scene.reaches_of_play? hplay
  exact ⟨rfl, d, hsteps, hidle, hlog, htimely, Scene.Reaches.orderly rfl hsteps⟩

/-- A send may reset a cell that is still to be completed. It is told the outcome of the send before it while it is
under way, and when it ends its cell is completed for the second time. -/
theorem not_timely_overtaken : ∃ d d₁ d₂ : Scene, Scene.Reaches Scene.free.slot d ∧
    awaiting .send d.log = 1 ∧ (d.slot.startSend 2).1 = .ok () ∧
    Relation.ReflTransGen Scene.Step d d₁ ∧ d₁.slot.state = .sending ∧ d₁.slot.sendCell.outcome? = some (.ok 1) ∧
    Relation.ReflTransGen Scene.Step d₁ d₂ ∧ d₂.todo = [.complete .send (.ok 2)] ∧
    d₂.slot.completeHalf .send (.ok 2) = .error .completedTwice := by
  have hsent : ∃ d, Scene.free.play? (Scene.opening ++ Scene.sent) = some d ∧ awaiting .send d.log = 1 ∧
      (d.slot.startSend 2).1 = .ok () ∧ ∃ d₁, d.play? Scene.overtaking = some d₁ ∧ d₁.slot.state = .sending ∧
      d₁.slot.sendCell.outcome? = some (.ok 1) ∧ ∃ d₂, d₁.play? Scene.sentAgain = some d₂ ∧
      d₂.todo = [.complete .send (.ok 2)] ∧ d₂.slot.completeHalf .send (.ok 2) = .error .completedTwice :=
    ⟨_, rfl, rfl, rfl, _, rfl, rfl, rfl, _, rfl, rfl, rfl⟩
  obtain ⟨d, hplay, hawaits, hstarts, d₁, hplay₁, hstate, houtcome, d₂, hplay₂, htodo, hfault⟩ := hsent
  exact ⟨d, d₁, d₂, Scene.reaches_of_play? hplay, hawaits, hstarts, Scene.reaches_of_play? hplay₁, hstate, houtcome,
    Scene.reaches_of_play? hplay₂, htodo, hfault⟩

end SlotServer
