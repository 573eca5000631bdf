import SlotServer.Proofs.Deeds
import SlotServer.Proofs.Changes
import SlotServer.Proofs.Scenes

/-!
# Programs as rows of beats

What the dispatch loop does for a slot, it does in beats: where nothing comes in between, each of its programs is a row
of beats that it may begin with. What a handle does is calls.

- `Plays`: a program is a row of beats at its slot;
- `Handles`: a program is nothing, or one row that the loop may begin with (`Handles.route`, `Handles.issueHalf`,
  `Handles.drainSlot`, `Handles.failCommand`, `Handles.forceSlot`);
- `Comes`: what a slot may become, and that the loop (`Handles.comes`, `Comes.execute`), handles (`Comes.deed`) and
  acceptors (`Comes.startAccept`) make nothing else of it.
-/

namespace SlotServer

variable {α β γ : Type}

/-- From the slot `s`, the loop has done the row of beats with nothing in between. -/
def Played (i : Nat) (s : Slot) (row : List Beat) (v : View) : Prop :=
  ∃ s', v.slot? = some s' ∧ s'.index = i ∧
    ∀ rest log, ∃ log', Relation.ReflTransGen Scene.GoesOn ⟨s, row ++ rest, log⟩ ⟨s', rest, log'⟩

/-- The program works on one slot, where it does a row of beats. -/
def Plays (i : Nat) (x : Run α β) (row : List Beat) : Prop :=
  ∀ (v : View) (s : Slot), v.slot? = some s → s.index = i → Leads .any i x v fun _ v' => Played i s row v'

section Played

variable {i : Nat} {s : Slot} {v : View}

theorem Played.nil (hs : v.slot? = some s) (hindex : s.index = i) : Played i s [] v :=
  ⟨s, hs, hindex, fun _ log => ⟨log, .refl⟩⟩

/-- A beat, what it leaves to be done, and what was to be done after it. -/
theorem Played.cons {b : Beat} {taken : Bool} {next : Beat.Next} {row : List Beat} (hrun : b.run taken s = .ok next)
    (h : Played i next.slot (next.more ++ row) v) : Played i s (b :: row) v := by
  obtain ⟨s', hs', hindex, hrest⟩ := h
  refine ⟨s', hs', hindex, fun rest log => ?_⟩
  obtain ⟨log', hsteps⟩ := hrest rest (next.notes ++ log)
  rw [List.append_assoc] at hsteps
  exact ⟨log', .head (.beat rfl hrun) hsteps⟩

/-- A beat, and what it leaves to be done. -/
theorem Played.beat {b : Beat} {taken : Bool} {next : Beat.Next} (hrun : b.run taken s = .ok next)
    (h : Played i next.slot next.more v) : Played i s [b] v := .cons hrun (by rw [List.append_nil]; exact h)

namespace Plays

variable {x : Run α β} {k : β → Run α γ} {row row' : List Beat}

/-- A program that leaves every view as it is. -/
theorem still (hx : Still x) : Plays i x [] := fun _ _ hs hindex => .still hx fun _ => .nil hs hindex

theorem pure (b : β) : Plays i (Pure.pure b : Run α β) [] := still (.pure b)

/-- A program after a row of beats. -/
theorem after (hx : Plays i x row') (h : Played i s row v) :
    Leads .any i x v fun _ v' => Played i s (row ++ row') v' := by
  obtain ⟨s₁, hs₁, hindex₁, hrow⟩ := h
  refine (hx v s₁ hs₁ hindex₁).mono fun _ v₂ ⟨s₂, hs₂, hindex₂, hrow'⟩ => ?_
  refine ⟨s₂, hs₂, hindex₂, fun rest log => ?_⟩
  obtain ⟨log₁, hsteps⟩ := hrow (row' ++ rest) log
  obtain ⟨log₂, hsteps'⟩ := hrow' rest log₁
  rw [List.append_assoc]
  exact ⟨log₂, hsteps.trans hsteps'⟩

theorem bind (hx : Plays i x row) (hk : ∀ b, Plays i (k b) row') : Plays i (x >>= k) (row ++ row') :=
  fun v s hs hindex => Leads.bind ((hx v s hs hindex).mono fun b _ h => (hk b).after h)

/-- A step of the slot, what hangs on its answer, and the beat that does it. -/
theorem step {f : Slot.Step β} {k : Except Error β → Run α γ} {b : Beat} {more : List Beat} {notes : List Note}
    (hrun : ∀ s, b.run true s = .ok (Beat.ifMoved more notes (f s))) (hindex : ∀ s, (f s).2.index = s.index)
    (herror : ∀ e, Plays i (k (.error e)) []) (hok : ∀ c, Plays i (k (.ok c)) more) :
    Plays i (Run.stepSlot i f >>= k) [b] := by
  intro v s hs hi
  refine Leads.bind (Leads.stepSlot_some hs ?_)
  cases hstep : f s with
  | mk answer s₁ =>
    have hi₁ : s₁.index = i := by
      rw [← hi, ← hindex s, hstep]
    have hnext : b.run true s = .ok (Beat.ifMoved more notes (answer, s₁)) := by rw [hrun, hstep]
    cases answer with
    | error e => exact (herror e _ s₁ rfl hi₁).mono fun _ _ h => .beat hnext h
    | ok c => exact (hok c _ s₁ rfl hi₁).mono fun _ _ h => .beat hnext h

theorem closeNow (fd : Int) : Plays i (Run.closeNow (some i) fd : Run α Unit) [] := by
  refine fun v s hs hindex => Leads.closeNow (.nil ?_ hindex)
  unfold View.cut
  split <;> exact hs

theorem release : Plays i (Run.release i : Run α Unit) [.release] := by
  intro v s hs hindex
  have hdone : s.leases ≠ 0 → ∀ {v' : View}, v'.slot? = some { s with leases := s.leases - 1 } →
      Played i s [.release] v' := fun hleases v' hs' => by
    have hrun : Beat.run true .release s = .ok { slot := { s with leases := s.leases - 1 } } := by
      rw [Beat.run, Slot.releaseLease, if_neg hleases]
    exact .beat hrun (.nil hs' hindex)
  refine Leads.release hs (fun _ => trivial) (fun hleases _ => hdone hleases rfl) (fun hone => ?_) fun hone => .inr ?_
  all_goals
    refine hdone (by rw [hone]; decide) ?_
    rw [hone]
    rfl

theorem closeSlot : Plays i (Run.closeSlot i : Run α Unit) [.unbind] := by
  refine step (fun _ => rfl) (fun s => (Slot.alike_finishDisconnect s).index) (fun _ => pure _) fun fd => ?_
  exact bind (closeNow fd) fun _ => bind (still .bump) fun _ => release

/-- A close may be made at once. -/
theorem forgo {x : Run α β} (hx : Plays i x (.unbind :: row)) : Plays i x (.close :: row) := by
  intro v s hs hindex
  have hclosed : Beat.run false .close s = .ok { more := [.unbind], slot := s } := rfl
  exact (hx v s hs hindex).mono fun _ _ h => .cons hclosed h

theorem settleForce (hindex : s.index = i) : Plays i (Run.settleForce i s : Run α Bool) [.release] := by
  have hrelease : Plays i (Run.release s.index : Run α Unit) [.release] := by
    rw [hindex]
    exact release
  intro v t ht htindex
  refine Leads.settleForce (fun _ => hrelease (v.cut i s.fd) t ?_ htindex) fun _ => hrelease v t ht htindex
  unfold View.cut
  split <;> exact ht

theorem complete (half : Half) (outcome : Outcome) :
    Plays i (Run.completeCell ⟨i, half⟩ (Slot.completeHalf half outcome) : Run α Unit) [.complete half outcome] := by
  refine fun v s hs hindex => Leads.completeCell rfl hs (fun _ _ => trivial) fun waker s' hdone => ?_
  have hrun : Beat.run true (.complete half outcome) s = .ok { notes := [.completed half outcome], slot := s' } := by
    rw [Beat.run, hdone]
    rfl
  refine .beat hrun (.nil ?_ ((Slot.alike_completeHalf hdone).index.trans hindex))
  cases waker <;> rfl

theorem violation (e : Error) : Plays i (Run.violation i e : Run α Unit) [] :=
  still (.bind .say fun _ => .bump)

/-- The error number of a negative result. -/
theorem errnoOf {result : Int32} {k : Int32 → Run α γ} (hk : Plays i (k (-result)) row) :
    Plays i (Run.errnoOf result >>= k) row :=
  fun v s hs hindex => Leads.bind (Leads.errnoOf (hk v s hs hindex) (.inr trivial))

section Queueing

variable (hi : (Context.ofSlot i).slot = i)

include hi

/-- The close of a slot is queued, or made at once. -/
theorem issueClose : Plays i (Run.issueClose i : Run α Unit) [.close] := by
  intro v s hs hindex
  refine Leads.bind (Leads.slot?_some hs (Leads.bind ?_))
  refine Leads.queue (by rw [hindex]; exact hi) (fun _ _ => ?_) fun e => ?_
  · have hqueued : Beat.run true .close s = .ok { slot := s } := rfl
    exact Leads.pure (.beat hqueued (.nil hs hindex))
  · rw [hindex]
    exact Leads.bind (Leads.say (closeSlot.forgo (v.log _) s hs hindex))

theorem disconnect : Plays i (Run.disconnect i : Run α Unit) [.disconnect] :=
  step (fun _ => rfl) (fun _ => (Slot.alike_advance .rfl _ _).index) (fun _ => pure _) fun _ => issueClose hi

theorem abandon : Plays i (Run.abandon i : Run α Unit) [.abandon] :=
  step (fun _ => rfl) (fun _ => (Slot.alike_advance .rfl _ _).index) (fun _ => pure _) fun _ => issueClose hi

/-- After an operation that failed: the close, and then the cell. -/
theorem failed (half : Half) (outcome : Outcome) : Plays i (do
    Run.issueClose i
    Run.completeCell ⟨i, half⟩ (Slot.completeHalf half outcome) : Run α Unit) [.close, .complete half outcome] :=
  bind (issueClose hi) fun _ => complete half outcome

/-- After an operation that ended: see whether the connection has a handle, and then complete the cell. -/
theorem delivered (half : Half) (outcome : Outcome) : Plays i (do
    if !((← Run.slot? i).any (·.attached)) then Run.disconnect i
    Run.completeCell ⟨i, half⟩ (Slot.completeHalf half outcome) : Run α Unit) [.check, .complete half outcome] := by
  intro v s hs hindex
  refine Leads.bind (Leads.slot?_some hs ?_)
  by_cases hattached : s.attached = true
  · have hrun : Beat.run true .check s = .ok { slot := s } := by rw [Beat.run, if_pos hattached]
    rw [if_neg (by simpa using hattached)]
    exact (complete half outcome v s hs hindex).mono fun _ _ h => .cons hrun h
  · have hrun : Beat.run true .check s = .ok { more := [.disconnect], slot := s } := by rw [Beat.run, if_neg hattached]
    rw [if_pos (by simpa using hattached)]
    exact (bind (disconnect hi) (fun _ => complete half outcome) v s hs hindex).mono fun _ _ h => .cons hrun h

end Queueing

end Plays

/-- The program works on one slot, where it does nothing, or a row of beats that the loop may begin with. -/
def Handles (i : Nat) (x : Run α β) : Prop :=
  ∀ (v : View) (s : Slot), v.slot? = some s → s.index = i → Leads .any i x v fun _ v' =>
    Played i s [] v' ∨ ∃ b : Beat, b.opens = true ∧ Played i s [b] v'

namespace Handles

variable {x : Run α β} {k : β → Run α γ}

theorem of_row {b : Beat} (hb : b.opens = true) (hx : Plays i x [b]) : Handles i x :=
  fun v s hs hindex => (hx v s hs hindex).mono fun _ _ h => .inr ⟨b, hb, h⟩

/-- A close has ended. -/
theorem onClose (result : Int32) : Handles i (Run.onClose i result : Run α Unit) := by
  have hsettle : Plays i (Run.settleClose i : Run α Unit) [.unbind] := by
    refine Plays.step (fun _ => rfl) (fun s => (Slot.alike_finishDisconnect s).index) (fun e => Plays.violation e)
      fun _ => ?_
    exact Plays.bind (.still .bump) fun _ => Plays.bind (.still .say) fun _ => .release
  rw [Run.onClose_eq]
  refine of_row (b := .unbind) rfl ?_
  split
  · exact Plays.errnoOf (Plays.bind (.still .say) fun _ => hsettle)
  · exact hsettle

/-- A command that nobody will carry out is failed. -/
theorem failCommand {c : Command} (hc : c.slot = i) : Handles i (Run.failCommand c : Run α Unit) := by
  have hhalf : ∀ half : Half, Handles i (Run.failHalf half i : Run α Unit) := fun half =>
    of_row (b := .abort half (.error .connectionClosed)) rfl
      (.step (fun _ => rfl) (fun s => (Slot.alike_abortHalf half s).index) (fun _ => .pure _) fun _ =>
        .bind Plays.closeSlot.forgo fun _ => .complete half _)
  intro v s hs hindex
  subst hc
  cases c with
  | accept i =>
    refine Leads.bind (Leads.say (of_row (b := .abandon) rfl ?_ v s hs hindex))
    exact Plays.step (fun _ => rfl) (fun _ => (Slot.alike_advance .rfl _ _).index) (fun _ => .pure _) fun _ =>
      Plays.closeSlot.forgo
  | receive i =>
    rw [show Command.receive i = Half.command i .receive from rfl, Run.failCommand_half]
    exact Leads.bind (Leads.say (hhalf .receive v s hs hindex))
  | send i =>
    rw [show Command.send i = Half.command i .send from rfl, Run.failCommand_half]
    exact Leads.bind (Leads.say (hhalf .send v s hs hindex))
  | disconnect i => exact Leads.bind (Leads.say (of_row (b := .unbind) rfl .closeSlot v s hs hindex))

/-- A slot is forced free at the loop's end. -/
theorem forceSlot : Handles i (Run.forceSlot i : Run α Bool) := by
  intro v s hs hindex
  have hrun : s.state ≠ .disconnected → Beat.run true .force s = .ok {
      more := (s.state.half?.map (Beat.complete · (.error .connectionClosed))).toList ++ [.release]
      notes := (s.state.half?.map (.ended · (.error .connectionClosed))).toList
      slot := s.unbound } := fun hlive => by rw [Beat.run, Slot.force_live hlive]
  have hput : (v.put s.unbound).slot? = some s.unbound := rfl
  refine Leads.forceSlot hs (fun _ => .inl (.nil hs hindex)) (fun half hstate => ?_) fun hlive hquiet => ?_
  · have hforce := hrun (hstate ▸ half.working_ne_disconnected)
    rw [SlotState.half?_eq_some.2 hstate] at hforce
    refine (Plays.complete half _ _ _ hput hindex).mono fun _ v₁ h₁ => ?_
    exact ((Plays.settleForce hindex).after h₁).mono fun _ _ h => .inr ⟨.force, rfl, .beat hforce h⟩
  · have hforce := hrun hlive
    have hnone : s.state.half? = none := Option.eq_none_iff_forall_not_mem.2 fun half hhalf =>
      Bool.false_ne_true ((hquiet half).symm.trans (Half.works_iff.2 (SlotState.half?_eq_some.1 hhalf)))
    rw [hnone] at hforce
    exact (Plays.settleForce hindex _ _ hput hindex).mono fun _ _ h => .inr ⟨.force, rfl, .beat hforce h⟩

variable (hi : (Context.ofSlot i).slot = i)

include hi

/-- A receive has ended. -/
theorem onReceive (result : Int32) : Handles i (Run.onReceive i result : Run α Unit) := by
  unfold Run.onReceive
  by_cases hend : result ≤ 0
  · have habort : ∀ s : Slot, (s.abortHalf .receive).2.index = s.index := fun s => (Slot.alike_abortHalf _ s).index
    rw [if_pos hend]
    by_cases hbad : result < 0
    · refine of_row (b := .abort .receive (.error (.io (-result)))) rfl ?_
      refine Plays.step (fun _ => rfl) habort (fun e => Plays.violation e) fun _ => ?_
      dsimp only
      rw [if_pos hbad]
      exact Plays.errnoOf (Plays.bind (.still .say) fun _ => Plays.bind (.still .bump) fun _ => .failed hi _ _)
    · refine of_row (b := .abort .receive (.ok 0)) rfl ?_
      refine Plays.step (fun _ => rfl) habort (fun e => Plays.violation e) fun _ => ?_
      dsimp only
      rw [if_neg hbad]
      exact Plays.bind (.still .bump) fun _ => .failed hi _ _
  · rw [if_neg hend]
    refine of_row (b := .finish .receive result.toInt.toNat) rfl ?_
    refine Plays.step (fun _ => rfl) (fun s => (Slot.alike_finishReceive _ s).index) (fun e => Plays.violation e)
      fun _ => ?_
    exact Plays.bind (.still .bump) fun _ => Plays.bind (.still .bump) fun _ => .delivered hi _ _

/-- A send has ended. -/
theorem onSend (result : Int32) : Handles i (Run.onSend i result : Run α Unit) := by
  unfold Run.onSend
  by_cases hbad : result < 0
  · rw [if_pos hbad]
    refine of_row (b := .abort .send (.error (.io (-result)))) rfl ?_
    refine Plays.step (fun _ => rfl) (fun s => (Slot.alike_abortHalf .send s).index) (fun e => Plays.violation e)
      fun _ => ?_
    exact Plays.errnoOf (Plays.bind (.still .say) fun _ => Plays.bind (.still .bump) fun _ => .failed hi _ _)
  · rw [if_neg hbad]
    refine of_row (b := .finish .send result.toInt.toNat) rfl ?_
    refine Plays.step (fun _ => rfl) (fun _ => (Slot.alike_advance .rfl _ _).index) (fun e => Plays.violation e)
      fun _ => ?_
    exact Plays.bind (.still .bump) fun _ => Plays.bind (.still .bump) fun _ => .delivered hi _ _

/-- A completion is taken to its slot. -/
theorem route {c : Completion} (hc : c.ctx.slot = i) : Handles i (Run.route c : Run α Unit) := by
  subst hc
  intro v s hs hindex
  refine Leads.bind (Leads.note (fun _ => rfl) (Leads.bind (Leads.slot?_some (s := s) hs ?_)))
  dsimp only
  split
  · exact onReceive hi c.result (v.log (.answered c)) s hs hindex
  · exact onSend hi c.result (v.log (.answered c)) s hs hindex
  · exact onClose c.result (v.log (.answered c)) s hs hindex
  · exact Leads.bind (Leads.say (Leads.bump (.inl (.nil hs hindex))))

/-- The operation of a half is queued, or fails. -/
theorem issueHalf (half : Half) : Handles i (Run.issueHalf half i : Run α Unit) := by
  intro v s hs hindex
  refine Leads.bind (Leads.slot?_some hs (Leads.bind (Leads.placeOf ?_ (.inr ⟨trivial, trivial⟩))))
  refine Leads.bind (Leads.queue (by rw [Slot.ctx_opAt]; exact hi) (fun _ _ => ?_) fun e => ?_)
  · exact Leads.pure (.inl (.nil hs hindex))
  · refine Leads.bind (Leads.bump (of_row (b := .abort half (.error e)) rfl ?_ (v.log _) s hs hindex))
    exact Plays.step (fun _ => rfl) (fun s => (Slot.alike_abortHalf half s).index) (fun _ => .pure _)
      fun _ => .failed hi _ _

/-- A slot is stopped for the drain. -/
theorem drainSlot : Handles i (Run.drainSlot i : Run α Unit) := by
  intro v s hs hindex
  refine Leads.bind (Leads.slot?_some hs ?_)
  have hdisconnect : Leads .any i (Run.disconnect i : Run α Unit) v fun _ v' =>
      Played i s [] v' ∨ ∃ b : Beat, b.opens = true ∧ Played i s [b] v' :=
    of_row (b := .disconnect) rfl (.disconnect hi) v s hs hindex
  have hhangUp : ∀ f : Kernel → Kernel, (∀ k, (f k).ready = k.ready) →
      Leads .any i (do Run.record (.hungUp i s.fd); Run.modifyKernel f : Run α Unit) v fun _ v' =>
        Played i s [] v' ∨ ∃ b : Beat, b.opens = true ∧ Played i s [b] v' := fun f hf =>
    Leads.bind (Leads.note (fun _ => rfl) (Leads.modifyKernel hf (.inl (.nil hs hindex))))
  dsimp only
  split
  · exact hdisconnect
  · exact hdisconnect
  · exact hdisconnect
  · exact hhangUp _ fun _ => rfl
  · exact hhangUp _ fun _ => rfl
  · exact Leads.pure (.inl (.nil hs hindex))

end Handles

end Played

/-! ## What programs bring a slot to -/

/-- The slot `s`, where the loop has such beats to do, may become the slot `s'`, where it has them still. -/
def Scene.MayBecome (s : Slot) (todo : List Beat) (s' : Slot) : Prop :=
  ∀ log, ∃ log', Relation.ReflTransGen Scene.Step ⟨s, todo, log⟩ ⟨s', todo, log'⟩

theorem Scene.MayBecome.refl (s : Slot) (todo : List Beat) : MayBecome s todo s := fun log => ⟨log, .refl⟩

theorem Scene.MayBecome.trans {s s' s'' : Slot} {todo : List Beat} (h : MayBecome s todo s')
    (h' : MayBecome s' todo s'') : MayBecome s todo s'' := fun log => by
  obtain ⟨log', hsteps⟩ := h log
  obtain ⟨log'', hsteps'⟩ := h' log'
  exact ⟨log'', hsteps.trans hsteps'⟩

theorem Scene.MayBecome.call {s s' t : Slot} {todo : List Beat} (h : MayBecome s todo s') {c : Call} {notes : List Note}
    (hrun : c.run s' = .ok (notes, t)) : MayBecome s todo t :=
  h.trans fun log => ⟨notes ++ log, .single (.calls hrun)⟩

/-- The view shows what the slot `s` may become. -/
def Comes (i : Nat) (s : Slot) (todo : List Beat) (v : View) : Prop :=
  ∃ s', v.slot? = some s' ∧ s'.index = i ∧ Scene.MayBecome s todo s'

section Comes

variable {R : Rely} {i : Nat} {s : Slot} {todo : List Beat} {v : View}

theorem Played.comes {t : Slot} (h : Played i t [] v) (hmay : Scene.MayBecome s [] t) : Comes i s [] v := by
  obtain ⟨t', ht', hindex, hrow⟩ := h
  refine ⟨t', ht', hindex, hmay.trans fun log => ?_⟩
  obtain ⟨log', hgo⟩ := hrow [] log
  exact ⟨log', Relation.ReflTransGen.mono (fun _ _ => Scene.Step.goesOn) _ _ hgo⟩

/-- A row of beats that the loop begins with. -/
theorem Played.comes_beat {t : Slot} {b : Beat} (h : Played i t [b] v) (hb : b.opens = true)
    (hmay : Scene.MayBecome s [] t) : Comes i s [] v := by
  obtain ⟨t', ht', hindex, hrow⟩ := h
  refine ⟨t', ht', hindex, hmay.trans fun log => ?_⟩
  obtain ⟨log', hgo⟩ := hrow [] log
  exact ⟨log', .head (.begins rfl hb) (Relation.ReflTransGen.mono (fun _ _ => Scene.Step.goesOn) _ _ hgo)⟩

/-- What the loop does to a slot is among what may happen there. -/
theorem Handles.comes {x : Run α β} (hx : Handles i x) (h : Comes i s [] v) :
    Leads .any i x v fun _ v' => Comes i s [] v' := by
  obtain ⟨t, ht, hindex, hmay⟩ := h
  refine (hx v t ht hindex).mono fun _ v' hdone => ?_
  obtain hplayed | ⟨b, hb, hplayed⟩ := hdone
  · exact hplayed.comes hmay
  · exact hplayed.comes_beat hb hmay

namespace Comes

theorem release (h : Comes i s todo v) : Leads .any i (Run.release i : Run α Unit) v fun _ v' => Comes i s todo v' := by
  obtain ⟨t, ht, hindex, hmay⟩ := h
  have hdone : t.leases ≠ 0 → ∀ {v' : View}, v'.slot? = some { t with leases := t.leases - 1 } → Comes i s todo v' :=
    fun hleases v' ht' => by
      have hrun : Scene.Call.run .release t = .ok ([], { t with leases := t.leases - 1 }) := by
        rw [Scene.Call.run, Slot.releaseLease, if_neg hleases]
      exact ⟨_, ht', hindex, hmay.call hrun⟩
  refine Leads.release ht (fun _ => trivial) (fun hleases _ => hdone hleases rfl) (fun hone => ?_) fun hone => .inr ?_
  all_goals
    refine hdone (by rw [hone]; decide) ?_
    rw [hone]
    rfl

/-- An acceptor binds a socket to a slot. After the loop's end it is let go again at once. -/
theorem startAccept (h : Comes i s [] v) (hquiet : v.exited = true → v.commands = [] ∧
    ∀ j v', R.others j v' → v'.commands = []) (hR : ∀ fault, R.faults fault) (fd : Int)
    (peer : Option Net.SocketAddress) :
    Leads R i (Run.startAccept i fd peer : Run α (Except Error Unit)) v fun _ v' => Comes i s [] v' := by
  obtain ⟨t, ht, hindex, hmay⟩ := id h
  refine Leads.bind (Leads.slot?_some ht (Leads.bind (Leads.stepSlot_some ht ?_)))
  by_cases hstate : t.state = .disconnected
  case neg =>
    rw [Slot.startAccept_error hstate, View.put_self ht]
    have hpushed : ∀ v' : View, v'.slot? = v.slot? → Comes i s [] v' := fun _ hsame => ⟨t, hsame.trans ht, hindex, hmay⟩
    exact Leads.bind (Leads.bind (Leads.pushFree (Leads.pure (Leads.pure (hpushed _ rfl)))
      (.inr (Leads.pure (Leads.pure (hpushed _ rfl))))))
  rw [Slot.startAccept_ok hstate]
  have hbound : Comes i s [] ((v.put (t.withSocket fd peer)).log (.bound i fd)) := by
    have hrun : Scene.Call.run (.bind fd peer) t = .ok ([], t.withSocket fd peer) := by
      rw [Scene.Call.run, Slot.startAccept_ok hstate]
    exact ⟨_, rfl, hindex, hmay.call hrun⟩
  refine Leads.bind (Leads.note (fun _ => rfl) (Leads.bind ?_))
  rcases (Bool.eq_false_or_eq_true v.exited).symm with hexited | hexited
  · exact Leads.submit rfl hexited (.inr (hR _)) (Leads.pure hbound)
  · obtain ⟨hcommands, hothers⟩ := hquiet hexited
    have hfailed : Handles i (Run.failCommand (.accept i) : Run α Unit) := .failCommand rfl
    exact Leads.submit_exited rfl hexited hothers hcommands
      (((hfailed.comes hbound).of_any hR).mono fun _ _ hdone => Leads.pure hdone)

/-- What a handle does to a slot is among what may happen there. -/
theorem deed (hlive : ∀ t, v.slot? = some t → t.state ≠ .disconnected → v.exited = false) (h : Comes i s todo v)
    (d : Deed) : Leads .any i (d.run i : Run α Unit) v fun _ v' => Comes i s todo v' := by
  obtain ⟨t, ht, hindex, hmay⟩ := id h
  have hstarts : ∀ half, t.state ∈ Slot.startsFrom half → v.exited = false := fun half hstart =>
    hlive t ht (SlotState.ne_disconnected_of_isIdle (Slot.isIdle_of_startsFrom hstart))
  have hbeyond : Rely.any.faults .addOverflow ∧ Rely.any.faults .beyondRegion := ⟨trivial, trivial⟩
  cases d with
  | receive =>
    refine Leads.bind (Leads.receive ht (fun hstart => ⟨hstarts _ hstart, .inr trivial, Leads.pure ?_⟩) fun _ =>
      Leads.pure h)
    have hrun : Scene.Call.run .receive t = .ok ([.began .receive], t.begin 0 .receive) := by
      rw [Scene.Call.run, Slot.startReceive_eq, if_pos hstart]
      rfl
    exact ⟨_, rfl, hindex, hmay.call hrun⟩
  | send length =>
    refine Leads.bind (Leads.send ht (fun hlength hstart => ⟨hstarts _ hstart, .inr trivial, Leads.pure ?_⟩)
      fun _ _ => Leads.pure h)
    have hrun : Scene.Call.run (.send length) t = .ok ([.began .send], t.begin length .send) := by
      rw [Scene.Call.run, Slot.startSend_eq, if_neg (Nat.not_lt.2 hlength), if_pos hstart]
      rfl
    exact ⟨_, rfl, hindex, hmay.call hrun⟩
  | poll half waker =>
    have hpolled : ∀ {v' : View}, v'.slot? = some (Connection.setCell t ((Connection.cell t half).poll waker).2 half) →
        Comes i s todo v' := fun ht' =>
      ⟨_, ht', by cases half <;> exact hindex, hmay.call (c := .poll half waker) rfl⟩
    refine Leads.bind (Leads.bind (Leads.slot?_some ht ?_))
    dsimp only
    refine Leads.bind (Leads.setSlot (by rw [ht]; rfl) ?_)
    split
    · exact Leads.bind (Leads.note (fun _ => rfl) (Leads.pure (Leads.pure (hpolled rfl))))
    · exact Leads.pure (Leads.pure (hpolled rfl))
  | readReceived => exact Leads.bind (Leads.received ht (fun _ => Leads.pure h) (.inr hbeyond))
  | readSend => exact Leads.bind (Leads.sendBuffer ht (fun _ => Leads.pure h) (.inr hbeyond))
  | fill data => exact Leads.bind (Leads.fill ht (fun _ => Leads.pure h) (.inr hbeyond))
  | drop =>
    refine Leads.bind (Leads.letGo (Leads.bind (Leads.slot?_some (s := t) ht ?_)))
    refine Leads.bind (Leads.modifySlot ?_)
    rw [show ({ v with handles := v.handles - 1 } : View).slot? = some t from ht]
    refine Leads.bind (Leads.stepSlot_some (s := t.detach) rfl ?_)
    have hdetached := hmay.call (c := .detach) rfl
    -- an idle connection is closed, and the end of an operation sees to the others
    by_cases hmem : t.detach.state ∈ [SlotState.accepted, .received, .sent]
    · have hrun : Scene.Call.run .disconnect t.detach = .ok ([], { t.detach with state := .disconnecting }) := by
        rw [Scene.Call.run, Slot.startDisconnect, Slot.advance_of_mem hmem]
      have hexited : v.exited = false := hlive t ht (SlotState.ne_disconnected_of_isIdle (SlotState.isIdle_of_mem hmem))
      rw [Slot.startDisconnect, Slot.advance_of_mem hmem]
      exact Leads.bind (Leads.submit rfl hexited (.inr trivial)
        (release ⟨_, rfl, hindex, hdetached.call hrun⟩))
    · rw [Slot.startDisconnect, Slot.advance_of_not_mem hmem]
      exact release ⟨_, rfl, hindex, hdetached⟩

/-- The connection is given to its handler, whose calls may come at once. -/
theorem takeOver {serve : Run.Serve α} (hserve : Modest serve) (hexited : v.exited = false) (h : Comes i s [] v)
    (peer : Option Net.SocketAddress) :
    Leads .any i (Run.takeOver serve i peer : Run α Unit) v fun _ v' => Comes i s [] v' := by
  obtain ⟨t, ht, hindex, hmay⟩ := id h
  by_cases hstate : t.state ∈ [SlotState.accepting]
  case neg =>
    refine Leads.bind (Leads.advance_error ht hstate ?_)
    exact Leads.bind (Leads.say (Leads.bump h))
  refine Leads.bind (Leads.advance_ok ht hstate ?_)
  refine Leads.bind (Leads.bump (Leads.bind (Leads.say (Leads.bind (Leads.bind (Leads.modifySlot ?_))))))
  refine Leads.takeHold (Leads.bind (Leads.note (fun _ => rfl) (Leads.bind ?_)))
  have hrun : Beat.run true .accept t = .ok { more := [.attach], slot := { t with state := .accepted } } := by
    rw [Beat.run, Slot.finishAccept, Slot.advance_of_mem hstate]
    rfl
  have hattach : Beat.run true .attach ({ t with state := .accepted } : Slot) =
      .ok { slot := ({ t with state := .accepted } : Slot).attach } := rfl
  have hcomes : Comes i s [] (View.log { v with
      slot? := some ({ t with state := .accepted } : Slot).attach, handles := v.handles + 1 } (.served i)) :=
    Played.comes_beat (.beat hrun (.beat hattach (.nil rfl hindex))) rfl hmay
  -- the handler may call at once, in the midst of the loop's turn, but the loop has nothing else to do for the slot
  have hkeeps : ∀ (d : Deed) (v' : View), Comes i s [] v' ∧ v'.exited = false → 0 < v'.handles →
      Leads .any i (d.run i : Run α Unit) v' fun _ v'' => Comes i s [] v'' ∧ v''.exited = false := by
    rintro d v' ⟨hcomes', hexited'⟩ -
    exact (deed (fun _ _ _ => hexited') hcomes' d).fixed.mono fun _ _ hdone => ⟨hdone.1, hdone.2.1.trans hexited'⟩
  refine Leads.serve hserve hkeeps ⟨hcomes, hexited⟩ (Nat.succ_pos _) fun answer v' hdone => ?_
  cases answer with
  | ok _ => exact Leads.pure hdone.1
  | error e => exact Leads.bind (Leads.say (Leads.bump hdone.1))

variable (hi : (Context.ofSlot i).slot = i)

include hi

theorem onAccept {serve : Run.Serve α} (hserve : Modest serve) (hexited : v.exited = false) (h : Comes i s [] v) :
    Leads .any i (Run.onAccept serve i : Run α Unit) v fun _ v' => Comes i s [] v' := by
  have habandon : ∀ {v' : View}, Comes i s [] v' → Leads .any i (do
      Run.abandon i
      return () : Run α Unit) v' fun _ v'' => Comes i s [] v'' := fun h' =>
    Leads.bind (((Handles.of_row (b := .abandon) rfl (.abandon hi)).comes h').mono fun _ _ hdone => Leads.pure hdone)
  obtain ⟨t, ht, -⟩ := id h
  refine Leads.bind (Leads.slot?_some ht (Leads.bind (Leads.worker fun w _ _ => ?_)))
  dsimp only
  split
  · exact habandon h
  split
  · refine Leads.bind (Leads.setNoDelay fun answer => ?_)
    cases answer with
    | error e => exact Leads.bind (Leads.say (Leads.bind (Leads.bump (habandon h))))
    | ok _ => exact takeOver hserve hexited (v := v.log (.hastened i t.fd)) h t.peer
  · exact takeOver hserve hexited h t.peer

/-- Whatever command the loop carries out, what it does to the slot is among what may happen there. -/
theorem execute {serve : Run.Serve α} (hserve : Modest serve) (hexited : v.exited = false) (h : Comes i s [] v)
    {c : Command} (hc : c.slot = i) :
    Leads .any i (Run.execute serve c : Run α Unit) v fun _ v' => Comes i s [] v' := by
  subst hc
  cases c with
  | accept i => exact onAccept hi hserve hexited h
  | receive i => exact (Handles.issueHalf hi .receive).comes h
  | send i => exact (Handles.issueHalf hi .send).comes h
  | disconnect i => exact (Handles.of_row (b := .close) rfl (.issueClose hi)).comes h

end Comes

end Comes

end SlotServer
