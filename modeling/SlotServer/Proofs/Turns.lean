import SlotServer.Proofs.Acts
import SlotServer.Proofs.LateCalls
import SlotServer.Proofs.Leases

/-!
# What an act does to a slot

Everything that an act may do to one slot is said here once. What the acts keep is read off this, and no act is opened
again.

- `Spot`: what an act may change of what a slot shows;
- `Duty`, `Act.counts`, `duties`: what the acts that are to be done yet will do for a slot, counted by kind;
- `Turn`: every way in which an act may leave a slot, with what is to be done next and what is marked;
- `Mishap`: every fault an act may end with;
- `Act.turns`: an act takes a turn at every slot, or meets with a mishap.
-/

namespace SlotServer

variable {α : Type}

/-- What an act may change of what a slot shows. -/
structure Spot where
  slot? : Option Slot
  commands : List Command
  handles : Nat
  places : Nat
  exited : Bool
  /-- The descriptors of the slot that were closed at once, the latest first. -/
  cuts : List Int

/-- What an act may change of a view. -/
def View.spot (v : View) : Spot :=
  ⟨v.slot?, v.commands, v.handles, v.places, v.exited, v.history.filterMap Event.closes?⟩

/-- What an act may change of what a slot shows. -/
def Machine.spot (m : Machine α) (i : Nat) : Spot := (m.view [] i).spot

/-- The spot with another slot in its place. -/
def Spot.put (p : Spot) (s : Slot) : Spot := { p with slot? := some s }

/-- The descriptors that were closed, with one more. Where there is no descriptor, there is nothing to close. -/
def Spot.cut (p : Spot) (fd : Int) : List Int := if 0 ≤ fd then fd :: p.cuts else p.cuts

/-! ## What is to be done yet -/

/-- The kinds of what is to be done for a slot. -/
inductive Duty
  /-- The command of its socket is under way. -/
  | accept
  /-- The command of its close is under way. -/
  | disconnect
  | close
  | complete (half : Half)
  | force
  /-- The inbox is looked after. -/
  | sweep
  /-- The loop comes to its end. -/
  | exit
  | bind
  | release
  deriving DecidableEq

/-- One of a duty, where it is for the slot. -/
def Duty.once (duty : Duty) (j i : Nat) : Duty → Nat := fun other => if other = duty ∧ j = i then 1 else 0

@[simp] theorem Duty.once_apply (duty : Duty) (j i : Nat) (other : Duty) :
    Duty.once duty j i other = if other = duty ∧ j = i then 1 else 0 := rfl

/-- How often a command that is under way will do something for a slot. -/
def Command.counts (i : Nat) : Command → Duty → Nat
  | .accept j => Duty.once .accept j i
  | .disconnect j => Duty.once .disconnect j i
  | .receive _ | .send _ => fun _ => 0

/-- How often an act will do something for a slot, whether at once or by what it leaves to be done. -/
def Act.counts (i : Nat) : Act → Duty → Nat
  | .push c | .stall c | .fail c => c.counts i
  | .close j => Duty.once .close j i
  | .bind j _ _ => Duty.once .bind j i
  | .release j => Duty.once .release j i
  | .complete j half => Duty.once (.complete half) j i
  | .force left _ => fun duty => if duty = .force then left.count i else 0
  | .retract => Duty.once .force i i
  | .exit => fun duty => if duty = .force ∨ duty = .exit then 1 else 0
  | .look | .pop => Duty.once .sweep i i
  | .assign .. | .receive _ | .send .. | .poll .. | .leave _ | .disconnect _ | .ring => fun _ => 0

section Counts

variable (i j : Nat)

@[simp] theorem Command.counts_accept : (Command.accept j).counts i = Duty.once .accept j i := rfl

@[simp] theorem Command.counts_disconnect : (Command.disconnect j).counts i = Duty.once .disconnect j i := rfl

@[simp] theorem Command.counts_half (half : Half) : (half.command j).counts i = fun _ => 0 := by
  cases half <;> rfl

theorem Command.counts_of_ne {c : Command} (h : c.slot ≠ i) : c.counts i = fun _ => 0 := by
  funext duty
  cases c <;> first | rfl | exact if_neg fun hc => h hc.2

namespace Act

@[simp] theorem counts_assign (fd : Int) (peer : Option Net.SocketAddress) :
    (assign fd peer).counts i = fun _ => 0 := rfl

@[simp] theorem counts_bind (fd : Int) (peer : Option Net.SocketAddress) :
    (bind j fd peer).counts i = Duty.once .bind j i := rfl

@[simp] theorem counts_start (length : Nat) (half : Half) : (start j length half).counts i = fun _ => 0 := by
  cases half <;> rfl

@[simp] theorem counts_poll (cell : CellName) (waker : Waker) : (poll cell waker).counts i = fun _ => 0 := rfl

@[simp] theorem counts_leave : (leave j).counts i = fun _ => 0 := rfl

@[simp] theorem counts_disconnect : (disconnect j).counts i = fun _ => 0 := rfl

@[simp] theorem counts_release : (release j).counts i = Duty.once .release j i := rfl

@[simp] theorem counts_push (c : Command) : (push c).counts i = c.counts i := rfl

@[simp] theorem counts_stall (c : Command) : (stall c).counts i = c.counts i := rfl

@[simp] theorem counts_ring : ring.counts i = fun _ => 0 := rfl

@[simp] theorem counts_look : look.counts i = Duty.once .sweep i i := rfl

@[simp] theorem counts_pop : pop.counts i = Duty.once .sweep i i := rfl

@[simp] theorem counts_fail (c : Command) : (fail c).counts i = c.counts i := rfl

@[simp] theorem counts_close : (close j).counts i = Duty.once .close j i := rfl

@[simp] theorem counts_complete (half : Half) : (complete j half).counts i = Duty.once (.complete half) j i := rfl

@[simp] theorem counts_exit : exit.counts i = fun duty => if duty = .force ∨ duty = .exit then 1 else 0 := rfl

@[simp] theorem counts_retract : retract.counts i = Duty.once .force i i := rfl

@[simp] theorem counts_force (left : List Nat) (forced : Nat) :
    (force left forced).counts i = fun duty => if duty = .force then left.count i else 0 := rfl

end Act

end Counts

/-- How often acts will do something for a slot. -/
def duties (i : Nat) : List Act → Duty → Nat
  | [], _ => 0
  | a :: acts, duty => a.counts i duty + duties i acts duty

@[simp] theorem duties_nil (i : Nat) (duty : Duty) : duties i [] duty = 0 := rfl

@[simp] theorem duties_cons (i : Nat) (a : Act) (acts : List Act) (duty : Duty) :
    duties i (a :: acts) duty = a.counts i duty + duties i acts duty := rfl

@[simp] theorem duties_append (i : Nat) (acts acts' : List Act) (duty : Duty) :
    duties i (acts ++ acts') duty = duties i acts duty + duties i acts' duty := by
  induction acts with
  | nil => exact (Nat.zero_add _).symm
  | cons a acts ih => rw [List.cons_append, duties_cons, duties_cons, ih, Nat.add_assoc]

/-- The slot that a mark is about. -/
def Mark.slot : Mark → Nat
  | .pushed c | .popped c => c.slot
  | .began cell | .completed cell => cell.slot
  | .bound i _ | .closed i _ | .spared i _ | .freed i => i

/-- An act that does nothing for a slot but look after the inbox. -/
structure Aloof (i : Nat) (a : Act) (more : List Act) (marks : List Mark) : Prop where
  counts : ∀ duty, duty ≠ .sweep → duties i more duty = a.counts i duty
  sweep : a.counts i .sweep ≤ duties i more .sweep
  marks : ∀ e ∈ marks, e.slot ≠ i

/-! ## Turns -/

/-- The acts of one slot that, where there is no such slot, have no effect and leave nothing to be done. -/
inductive Act.Of (i : Nat) : Act → Prop
  | bind (fd : Int) (peer : Option Net.SocketAddress) : Of i (.bind i fd peer)
  | start (half : Half) (length : Nat) : Of i (.start i length half)
  | leave : Of i (.leave i)
  | disconnect : Of i (.disconnect i)
  | release : Of i (.release i)
  | failAccept : Of i (.fail (.accept i))
  | failHalf (half : Half) : Of i (.fail (half.command i))
  | close : Of i (.close i)
  | complete (half : Half) : Of i (.complete i half)

/-- What an act may do to the slot that it is about, what is to be done next, and what is marked. -/
inductive Deal (i : Nat) : Act → Spot → List Act → List Mark → Spot → Prop
  /-- There is no such slot. -/
  | absent {a : Act} {p : Spot} {handles : Nat} (hnone : p.slot? = none) (ha : a.Of i) (hfew : handles ≤ p.handles) :
    Deal i a p [] [] { p with handles }
  | taken {fd : Int} {peer : Option Net.SocketAddress} {p : Spot} (hplaces : 0 < p.places) :
    Deal i (.assign fd peer) p [.bind i fd peer] [] { p with places := p.places - 1 }
  | bound {fd : Int} {peer : Option Net.SocketAddress} {p : Spot} {s : Slot} (hs : p.slot? = some s)
    (hstate : s.state = .disconnected) :
    Deal i (.bind i fd peer) p [.push (.accept i)] [.bound i fd] (p.put (s.withSocket fd peer))
  | unbound {fd : Int} {peer : Option Net.SocketAddress} {p : Spot} {s : Slot} {places : Nat} (hs : p.slot? = some s)
    (hstate : s.state ≠ .disconnected) (hplaces : places ≤ p.places + 1) :
    Deal i (.bind i fd peer) p [] [] { p with places }
  | began {half : Half} {length : Nat} {p : Spot} {s : Slot} (hs : p.slot? = some s)
    (hstart : s.state ∈ Slot.startsFrom half) :
    Deal i (.start i length half) p [.push (half.command i)] [.began ⟨i, half⟩] (p.put (s.begin length half))
  | polled {half : Half} {waker : Waker} {p : Spot} {s : Slot} {c : Cell} (hs : p.slot? = some s)
    (hphase : c.phase = .completed ↔ (Connection.cell s half).phase = .completed) :
    Deal i (.poll ⟨i, half⟩ waker) p [] [] (p.put (Connection.setCell s c half))
  | left {p : Spot} {s : Slot} (hs : p.slot? = some s) (hhandles : 0 < p.handles) :
    Deal i (.leave i) p [.disconnect i, .release i] [] { p.put s.detach with handles := p.handles - 1 }
  | disconnecting {p : Spot} {s : Slot} (hs : p.slot? = some s) (hidle : s.state.isIdle = true) :
    Deal i (.disconnect i) p [.push (.disconnect i)] [] (p.put { s with state := .disconnecting })
  | released {p : Spot} {s : Slot} {places : Nat} (hs : p.slot? = some s) (hleases : s.leases ≠ 0)
    (hplaces : places ≤ p.places + if s.leases = 1 then 1 else 0) :
    Deal i (.release i) p [] [] { p.put { s with leases := s.leases - 1 } with places }
  | pushed {c : Command} {p : Spot} (hc : c.slot = i) :
    Deal i (.push c) p [.ring, .look] [.pushed c] { p with commands := p.commands ++ [c] }
  | popped {c : Command} {rest : List Command} {p : Spot} (hc : c.slot = i) (hcommands : p.commands = c :: rest) :
    Deal i .pop p [.fail c, .pop] [.popped c] { p with commands := rest }
  | failedAccept {p : Spot} {s : Slot} (hs : p.slot? = some s) (hstate : s.state = .accepting) :
    Deal i (.fail (.accept i)) p [.close i] [] (p.put { s with state := .disconnecting })
  | spentAccept {p : Spot} {s : Slot} (hs : p.slot? = some s) (hstate : s.state ≠ .accepting) :
    Deal i (.fail (.accept i)) p [] [] p
  | failedHalf {half : Half} {p : Spot} {s : Slot} {n : Nat} (hs : p.slot? = some s) (hstate : s.state = half.working) :
    Deal i (.fail (half.command i)) p [.close i, .complete i half] []
      (p.put { s with state := .disconnecting, receivedLength := n })
  | spentHalf {half : Half} {p : Spot} {s : Slot} {n : Nat} (hs : p.slot? = some s) :
    Deal i (.fail (half.command i)) p [] [] (p.put { s with receivedLength := n })
  | failedDisconnect {p : Spot} : Deal i (.fail (.disconnect i)) p [.close i] [] p
  | closed {p : Spot} {s : Slot} {places : Nat} (hs : p.slot? = some s) (hstate : s.state = .disconnecting)
    (hleases : s.leases ≠ 0) (hplaces : places ≤ p.places + if s.leases = 1 then 1 else 0) :
    Deal i (.close i) p [] [.freed i, .closed i s.fd]
      { p.put { s.unbound with leases := s.leases - 1 } with places, cuts := p.cut s.fd }
  | unclosed {p : Spot} {s : Slot} (hs : p.slot? = some s) (hstate : s.state ≠ .disconnecting) :
    Deal i (.close i) p [] [] p
  | completed {half : Half} {p : Spot} {s : Slot} {c : Cell} (hs : p.slot? = some s) (hphase : c.phase = .completed) :
    Deal i (.complete i half) p [] [.completed ⟨i, half⟩] (p.put (Connection.setCell s c half))
  | forcedHalf {half : Half} {left : List Nat} {forced forced' : Nat} {p : Spot} {s : Slot} {c : Cell} {places : Nat}
    (hs : p.slot? = some s) (hstate : s.state = half.working) (hphase : c.phase = .completed) (hleases : s.leases ≠ 0)
    (hplaces : places ≤ p.places + if s.leases = 1 then 1 else 0) :
    Deal i (.force (i :: left) forced) p [.force left forced'] [.freed i, .closed i s.fd, .completed ⟨i, half⟩]
      { p.put { Connection.setCell s.unbound c half with leases := s.leases - 1 } with places, cuts := p.cut s.fd }
  | forced {left : List Nat} {forced forced' : Nat} {p : Spot} {s : Slot} {places : Nat} (hs : p.slot? = some s)
    (hlive : s.state ≠ .disconnected) (hquiet : ∀ half, s.state.works half = false) (hleases : s.leases ≠ 0)
    (hplaces : places ≤ p.places + if s.leases = 1 then 1 else 0) :
    Deal i (.force (i :: left) forced) p [.force left forced']
      [.freed i, if s.state = .disconnecting then .spared i s.fd else .closed i s.fd]
      { p.put { s.unbound with leases := s.leases - 1 } with
        places, cuts := if s.state = .disconnecting then p.cuts else p.cut s.fd }
  | unforced {left : List Nat} {forced forced' : Nat} {p : Spot}
    (hfree : ∀ s, p.slot? = some s → s.state = .disconnected) :
    Deal i (.force (i :: left) forced) p [.force left forced'] [] p

/-- What an act may do to a slot, whether or not it is about it. -/
inductive Turn (i : Nat) : Act → Spot → List Act → List Mark → Spot → Prop
  | aloof {a : Act} {more : List Act} {marks : List Mark} {p : Spot} (h : Aloof i a more marks) :
    Turn i a p more marks p
  | deal {a : Act} {more : List Act} {marks : List Mark} {p p' : Spot} (h : Deal i a p more marks p') :
    Turn i a p more marks p'
  | looked {p : Spot} (hexited : p.exited = false) : Turn i .look p [] [] p
  | emptied {p : Spot} (hnone : p.commands = []) : Turn i .pop p [] [] p
  | exited {p : Spot} : Turn i .exit p [.pop, .retract] [] { p with exited := true }
  | retracted {p : Spot} {n : Nat} (hslot : p.slot?.isSome = decide (i < n)) :
    Turn i .retract p [.force (List.range n) 0] [] p

/-- The faults that an act may end with. -/
inductive Mishap (i : Nat) : Act → Spot → Fault → Prop
  /-- The cell was completed already. -/
  | completed {half : Half} {p : Spot} {s : Slot} (hs : p.slot? = some s)
    (hphase : (Connection.cell s half).phase = .completed) : Mishap i (.complete i half) p .completedTwice
  | forcedHalf {half : Half} {left : List Nat} {forced : Nat} {p : Spot} {s : Slot} (hs : p.slot? = some s)
    (hstate : s.state = half.working) (hphase : (Connection.cell s half).phase = .completed) :
    Mishap i (.force (i :: left) forced) p .completedTwice
  /-- Nobody held the lease. -/
  | released {p : Spot} {s : Slot} (hs : p.slot? = some s) (hleases : s.leases = 0) :
    Mishap i (.release i) p s.leaseFault
  | closed {p : Spot} {s : Slot} (hs : p.slot? = some s) (hstate : s.state = .disconnecting) (hleases : s.leases = 0) :
    Mishap i (.close i) p s.leaseFault
  | forced {left : List Nat} {forced : Nat} {p : Spot} {s : Slot} (hs : p.slot? = some s)
    (hlive : s.state ≠ .disconnected) (hleases : s.leases = 0) :
    Mishap i (.force (i :: left) forced) p s.leaseFault

/-! ## Acts of one slot -/

namespace Aloof

variable {i j : Nat}

/-- An act that counts for nothing, and leaves nothing. -/
theorem of_zero {a : Act} (h : ∀ duty, a.counts i duty = 0) : Aloof i a [] [] :=
  ⟨fun duty _ => (h duty).symm, by rw [h]; exact Nat.zero_le _, nofun⟩

end Aloof

/-- An act that is about a slot does nothing for any other. -/
theorem Deal.aloof {i j : Nat} {a : Act} {p p' : Spot} {more : List Act} {marks : List Mark}
    (h : Deal i a p more marks p') (hj : j ≠ i) : Aloof j a more marks := by
  have hne : i ≠ j := hj.symm
  have hother : ∀ c : Command, c.slot = i → c.counts j = fun _ => 0 := fun c hc =>
    Command.counts_of_ne j (by rw [hc]; exact hne)
  cases h with
  | absent hnone ha =>
    refine Aloof.of_zero fun duty => ?_
    cases ha <;> simp [hne]
  | pushed hc =>
    exact ⟨fun duty hd => by simp [hother _ hc, hd], by simp [hother _ hc], by simp [Mark.slot, hc, hne]⟩
  | popped hc => exact ⟨fun duty hd => by simp [hother _ hc], by simp [hother _ hc], by simp [Mark.slot, hc, hne]⟩
  | forced =>
    refine ⟨fun duty hd => by simp [hne], by simp, ?_⟩
    split <;> simp [Mark.slot, hne]
  | _ => exact ⟨fun duty hd => by simp [hne], by simp [hne], by simp [Mark.slot, hne]⟩

/-- The act works on slot `i`: it deals with the slot, or does nothing to any slot. -/
abbrev Act.WorksOn (α : Type) (i : Nat) (a : Act) (v : View) : Prop :=
  Leads ⟨fun _ _ => True, Mishap i a v.spot⟩ i (a.run : Run α (List Act × List Mark)) v fun next v' =>
    Deal i a v.spot next.1 next.2 v'.spot ∨ v'.spot = v.spot ∧ ∀ j, Aloof j a next.1 next.2

/-- A lease is given back, and perhaps the slot gets a place among the free ones. -/
theorem Leads.release_spot {R : Rely} {i : Nat} {v : View} {s : Slot} {Q : Unit → View → Prop} (hs : v.slot? = some s)
    (hnone : s.leases = 0 → R.faults s.leaseFault)
    (h : s.leases ≠ 0 → ∀ places, places ≤ (v.places + if s.leases = 1 then 1 else 0) →
      Q () { v.put { s with leases := s.leases - 1 } with places }) : Leads R i (Run.release i : Run α Unit) v Q := by
  have hlast : s.leases = 1 → ∀ places, places ≤ v.places + 1 → Q () { v.put { s with leases := 0 } with places } := by
    intro h1 places hplaces
    have hafter : s.leases - 1 = 0 := by rw [h1]; rfl
    have hq := h (by rw [h1]; decide) places (by rw [if_pos h1]; exact hplaces)
    rw [hafter] at hq
    exact hq
  exact Leads.release hs hnone (fun h0 _ => h h0 v.places (Nat.le_add_right _ _)) (fun h1 => hlast h1 _ (Nat.le_refl _))
    fun h1 => .inr (hlast h1 v.places (Nat.le_add_right _ _))

theorem View.cut_eq (v : View) (i : Nat) (fd : Int) :
    ∃ history, v.cut i fd = { v with history } ∧ history.filterMap Event.closes? = v.spot.cut fd := by
  by_cases hfd : 0 ≤ fd
  · exact ⟨_, if_pos hfd, (if_pos hfd).symm⟩
  · exact ⟨v.history, if_neg hfd, (if_neg hfd).symm⟩

theorem View.wake_eq (v : View) (cell : CellName) (waker : Option Waker) :
    ∃ history, v.wake cell waker = { v with history } ∧
      history.filterMap Event.closes? = v.history.filterMap Event.closes? := by
  cases waker with
  | none => exact ⟨v.history, rfl, rfl⟩
  | some w => exact ⟨_, rfl, rfl⟩

namespace Act

variable {i : Nat} {v : View}

theorem worksOn_bind (fd : Int) (peer : Option Net.SocketAddress) : WorksOn α i (.bind i fd peer) v := by
  -- what is done where the socket could not be bound changes nothing more
  have hrefuse : ∀ v' : View, Deal i (.bind i fd peer) v.spot [] [] v'.spot →
      Leads ⟨fun _ _ => True, Mishap i (.bind i fd peer) v.spot⟩ i (do
        Run.closeNow none fd
        Run.bump .errors 1
        return ([], []) : Run α (List Act × List Mark)) v' fun next v' =>
          Deal i (.bind i fd peer) v.spot next.1 next.2 v'.spot ∨
            v'.spot = v.spot ∧ ∀ j, Aloof j (.bind i fd peer) next.1 next.2 := fun v' h =>
    Leads.bind (Leads.still (Regime.still_closeNow fd) fun _ => Leads.bind (Leads.bump (Leads.pure (.inl h))))
  refine Leads.bind (Leads.bind (Leads.slot? ?_))
  cases hs : v.slot? with
  | none => exact Leads.pure (hrefuse v (.absent hs (.bind fd peer) (Nat.le_refl _)))
  | some s =>
    refine Leads.bind (Leads.stepSlot_some hs ?_)
    by_cases hstate : s.state = .disconnected
    · rw [Slot.startAccept_ok hstate]
      exact Leads.bind (Leads.note (fun _ => rfl) (Leads.pure (Leads.pure (.inl (.bound hs hstate)))))
    · rw [Slot.startAccept_error hstate, View.put_self hs]
      refine Leads.bind (Leads.bind (Leads.pushFree (Leads.pure (Leads.pure ?_)) (.inr (Leads.pure (Leads.pure ?_)))))
      · exact hrefuse _ (.unbound hs hstate (Nat.le_refl _))
      · exact hrefuse _ (.unbound hs hstate (Nat.le_succ _))

theorem worksOn_start (half : Half) (length : Nat) : WorksOn α i (.start i length half) v := by
  have hrefused : ∀ v' : View, v' = v → v'.spot = v.spot ∧ ∀ j, Aloof j (.start i length half) [] [] := fun v' h =>
    ⟨by rw [h], fun j => Aloof.of_zero (by simp)⟩
  cases half with
  | receive =>
    refine Leads.bind (Leads.stepSlot (fun _ => Leads.pure (.inr (hrefused v rfl))) fun s hs => ?_)
    rw [Slot.startReceive_eq]
    by_cases hstart : s.state ∈ Slot.startsFrom .receive
    · rw [if_pos hstart]
      have hbegan : Deal i (.start i length .receive) v.spot _ _ (v.spot.put (s.begin length .receive)) :=
        .began hs hstart
      exact Leads.bind (Leads.note (fun _ => rfl) (Leads.pure (.inl hbegan)))
    · rw [if_neg hstart, View.put_self hs]
      exact Leads.pure (.inr (hrefused v rfl))
  | send =>
    refine Leads.bind (Leads.stepSlot (fun _ => Leads.pure (.inr (hrefused v rfl))) fun s hs => ?_)
    rw [Slot.startSend_eq]
    by_cases hlong : s.sendHalf.length < length
    · rw [if_pos hlong, View.put_self hs]
      exact Leads.pure (.inr (hrefused v rfl))
    rw [if_neg hlong]
    by_cases hstart : s.state ∈ Slot.startsFrom .send
    · rw [if_pos hstart]
      have hbegan : Deal i (.start i length .send) v.spot _ _ (v.spot.put (s.begin length .send)) := .began hs hstart
      exact Leads.bind (Leads.record_aside (fun _ => rfl) (Leads.bind (Leads.note (fun _ => rfl)
        (Leads.pure (.inl hbegan)))))
    · rw [if_neg hstart, View.put_self hs]
      exact Leads.pure (.inr (hrefused v rfl))

theorem worksOn_poll (half : Half) (waker : Waker) : WorksOn α i (.poll ⟨i, half⟩ waker) v := by
  refine Leads.bind (Leads.bind (Leads.bind (Leads.slot? ?_)))
  cases hs : v.slot? with
  | none => exact Leads.pure (Leads.pure (Leads.pure (.inr ⟨rfl, fun j => Aloof.of_zero (by simp)⟩)))
  | some s =>
    dsimp only
    have hphase := Cell.phase_poll (Connection.cell s half) waker
    generalize (Connection.cell s half).poll waker = polled at hphase ⊢
    obtain ⟨answer, c⟩ := polled
    refine Leads.bind (Leads.setSlot (by rw [hs]; rfl) ?_)
    cases answer with
    | pending =>
      exact Leads.bind (Leads.note (fun _ => rfl) (Leads.pure (Leads.pure (Leads.pure (.inl (.polled hs hphase))))))
    | ready o => exact Leads.bind (Leads.pure (Leads.pure (Leads.pure (Leads.pure (.inl (.polled hs hphase))))))

theorem worksOn_leave : WorksOn α i (.leave i) v := by
  have hgo : 0 < v.handles → Leads ⟨fun _ _ => True, Mishap i (.leave i) v.spot⟩ i
      (letGo i : Run α (List Act × List Mark)) v fun next v' =>
        Deal i (.leave i) v.spot next.1 next.2 v'.spot ∨ v'.spot = v.spot ∧ ∀ j, Aloof j (.leave i) next.1 next.2 := by
    intro hhandles
    refine Leads.bind (Leads.letGo (Leads.bind (Leads.slot? ?_)))
    cases hs : v.slot? with
    | none =>
      refine Leads.pure (.inl ?_)
      rw [← hs]
      exact .absent hs .leave (Nat.sub_le ..)
    | some s => exact Leads.bind (Leads.modifySlot (Leads.pure (.inl (Deal.left hs hhandles))))
  intro m pending hothers hv
  have hguard : (leave i).run m = (if i ∈ m.held then letGo i else pure ([], []) : Run α (List Act × List Mark)) m :=
    rfl
  rw [hguard]
  by_cases hheld : i ∈ m.held
  · rw [if_pos hheld]
    exact hgo (by rw [← hv]; exact List.count_pos_iff.2 hheld) m pending hothers hv
  · rw [if_neg hheld]
    exact ⟨.inr ⟨congrArg View.spot hv, fun j => Aloof.of_zero (by simp)⟩, fun _ _ => rfl⟩

theorem worksOn_disconnect : WorksOn α i (.disconnect i) v := by
  cases hs : v.slot? with
  | none =>
    refine Leads.bind (Leads.stepSlot (fun _ => Leads.pure (.inl ?_)) fun s hs' => ?_)
    · exact .absent hs .disconnect (Nat.le_refl _)
    rw [hs] at hs'
    cases hs'
  | some s =>
    refine Leads.bind ?_
    by_cases hidle : s.state ∈ [.accepted, .received, .sent]
    · exact Leads.advance_ok hs hidle (Leads.pure (.inl (.disconnecting hs (SlotState.isIdle_of_mem hidle))))
    · exact Leads.advance_error hs hidle (Leads.pure (.inr ⟨rfl, fun j => Aloof.of_zero (by simp)⟩))

theorem worksOn_release : WorksOn α i (.release i) v := by
  cases hs : v.slot? with
  | none => exact Leads.bind (Leads.bind (Leads.slot? (by rw [hs]; exact Leads.pure (Leads.pure (.inl
      (.absent hs .release (Nat.le_refl _)))))))
  | some s =>
    refine Leads.bind (Leads.release_spot hs (fun h => .released hs h) fun h places hplaces => Leads.pure (.inl ?_))
    exact .released hs h hplaces

theorem worksOn_close : WorksOn α i (.close i) v := by
  refine Leads.bind (Leads.slot? ?_)
  cases hs : v.slot? with
  | none =>
    refine Leads.bind (Leads.bind (Leads.stepSlot (fun _ => Leads.pure (Leads.pure ?_)) fun s hs' => ?_))
    · exact .inl (.absent hs .close (Nat.le_refl _))
    · rw [hs] at hs'
      cases hs'
  | some s =>
    refine Leads.bind (Leads.closeSlot hs (fun hstate => ?_) fun hstate => Leads.pure (.inl ?_))
    · obtain ⟨history, hcut, hcuts⟩ := (v.put s.unbound).cut_eq i s.fd
      rw [hcut]
      refine Leads.release_spot rfl (fun h => .closed (s := s) hs hstate h) fun h places hplaces =>
        Leads.pure (.inl ?_)
      show Deal i _ v.spot [] (s.closeMarks i)
        { v.spot.put { s.unbound with leases := s.leases - 1 } with places, cuts := history.filterMap Event.closes? }
      rw [Slot.closeMarks, if_pos hstate, hcuts]
      exact .closed hs hstate h hplaces
    · show Deal i _ _ [] (s.closeMarks i) _
      rw [Slot.closeMarks, if_neg hstate]
      exact .unclosed hs hstate

theorem worksOn_complete (half : Half) : WorksOn α i (.complete i half) v := by
  refine Leads.bind (Leads.slot? ?_)
  cases hs : v.slot? with
  | none =>
    refine Leads.bind (Leads.bind (Leads.slot? ?_))
    rw [hs]
    exact Leads.pure (Leads.pure (.inl (.absent hs (.complete half) (Nat.le_refl _))))
  | some s =>
    refine Leads.bind (Leads.completeCell rfl hs (fun fault hfault => ?_) fun waker s' hdone => ?_)
    · obtain ⟨hphase, rfl⟩ := Slot.completeHalf_error hfault
      exact .completed hs hphase
    · obtain ⟨c, hphase, -, rfl⟩ := Slot.completeHalf_ok hdone
      obtain ⟨history, hwake, hcuts⟩ := (v.put (Connection.setCell s c half)).wake_eq ⟨i, half⟩ waker
      rw [hwake]
      refine Leads.pure (.inl ?_)
      show Deal i _ v.spot [] _
        { v.spot.put (Connection.setCell s c half) with cuts := history.filterMap Event.closes? }
      rw [hcuts]
      exact .completed hs hphase

theorem worksOn_fail (c : Command) (hc : c.slot = i) : WorksOn α i (.fail c) v := by
  subst hc
  refine Leads.bind (Leads.say ?_)
  have hhalf : ∀ (half : Half) (i : Nat), Leads ⟨fun _ _ => True, Mishap i (.fail (half.command i)) v.spot⟩ i
      (failHalf half i : Run α (List Act × List Mark)) v fun next v' =>
        Deal i (.fail (half.command i)) v.spot next.1 next.2 v'.spot ∨
          v'.spot = v.spot ∧ ∀ j, Aloof j (.fail (half.command i)) next.1 next.2 := by
    intro half i
    cases hs : v.slot? with
    | none =>
      refine Leads.bind (Leads.stepSlot (fun _ => Leads.pure (.inl ?_)) fun s hs' => ?_)
      · exact .absent hs (.failHalf half) (Nat.le_refl _)
      rw [hs] at hs'
      cases hs'
    | some s =>
      refine Leads.bind (Leads.stepSlot_some hs ?_)
      by_cases hstate : s.state = half.working
      · obtain ⟨n, habort⟩ := Slot.abortHalf_working hstate
        rw [habort]
        exact Leads.pure (.inl (.failedHalf hs hstate))
      · obtain ⟨n, habort⟩ := Slot.abortHalf_not_working hstate
        rw [habort]
        exact Leads.pure (.inl (.spentHalf hs))
  match c with
  | .receive i => exact hhalf .receive i
  | .send i => exact hhalf .send i
  | .disconnect i => exact Leads.pure (.inl .failedDisconnect)
  | .accept i =>
    show Leads _ i _ v _
    cases hs : v.slot? with
    | none =>
      refine Leads.bind (Leads.stepSlot (fun _ => Leads.pure (.inl ?_)) fun s hs' => ?_)
      · exact .absent hs .failAccept (Nat.le_refl _)
      rw [hs] at hs'
      cases hs'
    | some s =>
      refine Leads.bind ?_
      by_cases hstate : s.state = .accepting
      · exact Leads.advance_ok hs (List.mem_singleton.2 hstate) (Leads.pure (.inl (.failedAccept hs hstate)))
      · exact Leads.advance_error hs (fun hmem => hstate (List.mem_singleton.1 hmem))
          (Leads.pure (.inl (.spentAccept hs hstate)))

theorem worksOn_push (c : Command) (hc : c.slot = i) : WorksOn α i (.push c) v := by
  refine Leads.bind (Leads.enqueue hc (Leads.pure (.inl (.pushed hc))) (.inr (Leads.pure (.inr ⟨rfl, fun j => ?_⟩))))
  exact ⟨fun duty _ => by simp, by simp, nofun⟩

theorem worksOn_stall (c : Command) : WorksOn α i (.stall c) v := by
  refine Leads.bind (Leads.worker fun w _ _ => ?_)
  split <;> exact Leads.pure (.inr ⟨rfl, fun j => ⟨fun duty _ => by simp, by simp, nofun⟩⟩)

/-- What is left to do for a slot that was forced free: the socket is closed, unless the kernel has its close, and the
lease is given back. -/
theorem settleForce_spot {R : Rely} {s s' : Slot} {w : View} {Q : Bool → View → Prop} (hs : w.slot? = some s')
    (hleases : s'.leases = s.leases) (hindex : s.index = i) (hnone : s.leases = 0 → R.faults s'.leaseFault)
    (h : s.leases ≠ 0 → ∀ history places, places ≤ (w.places + if s.leases = 1 then 1 else 0) →
      history.filterMap Event.closes? = (if s.state = .disconnecting then w.spot.cuts else w.spot.cut s.fd) →
      Q true { w.put { s' with leases := s.leases - 1 } with history, places }) :
    Leads R i (Run.settleForce i s : Run α Bool) w Q := by
  have hrelease : ∀ history,
      history.filterMap Event.closes? = (if s.state = .disconnecting then w.spot.cuts else w.spot.cut s.fd) →
      Leads R i (Run.release s.index : Run α Unit) { w with history } fun _ => Q true := by
    intro history hcuts
    rw [hindex]
    refine Leads.release_spot hs (fun h0 => hnone (hleases ▸ h0)) fun h0 places hplaces => ?_
    rw [hleases] at h0 hplaces ⊢
    exact h h0 history places hplaces hcuts
  refine Leads.settleForce (fun hstate => ?_) fun hstate => hrelease w.history (if_pos hstate).symm
  obtain ⟨history, hcut, hcuts⟩ := w.cut_eq i s.fd
  rw [hcut]
  exact hrelease history (hcuts.trans (if_neg hstate).symm)

theorem worksOn_force {left : List Nat} {forced : Nat} (hindex : ∀ s, v.slot? = some s → s.state ≠ .disconnected →
    s.index = i) : WorksOn α i (.force (i :: left) forced) v := by
  refine Leads.bind (Leads.slot? ?_)
  cases hs : v.slot? with
  | none =>
    refine Leads.bind (Leads.bind (Leads.slot? ?_))
    rw [hs]
    refine Leads.pure (Leads.pure (.inl (.unforced fun s hs' => ?_)))
    rw [show v.slot? = some s from hs'] at hs
    cases hs
  | some s =>
    refine Leads.bind (Leads.forceSlot hs (fun hfree => Leads.pure (.inl ?_)) (fun half hstate => ?_)
      fun hlive hquiet => ?_)
    · show Deal i _ _ _ (s.forceMarks i) _
      rw [Slot.forceMarks, hfree]
      refine .unforced fun s' hs' => ?_
      obtain rfl : s = s' := Option.some.inj (hs.symm.trans hs')
      exact hfree
    · have hlive : s.state ≠ .disconnected := by rw [hstate]; exact half.working_ne_disconnected
      -- the slot is free by now, but its cells are still as they were
      refine Leads.completeCell rfl rfl (fun fault hfault => ?_) fun waker s' hdone => ?_
      · obtain ⟨hphase, rfl⟩ := Slot.completeHalf_error hfault
        have hsame : Connection.cell s.unbound half = Connection.cell s half := by cases half <;> rfl
        exact .forcedHalf hs hstate (hsame ▸ hphase)
      · obtain ⟨c, hphase, -, rfl⟩ := Slot.completeHalf_ok hdone
        obtain ⟨woken, hwake, hwoken⟩ :=
          ((v.put s.unbound).put (Connection.setCell s.unbound c half)).wake_eq ⟨i, half⟩ waker
        rw [hwake]
        refine settleForce_spot rfl (by cases half <;> rfl) (hindex s hs hlive) (fun h0 => ?_)
          fun h0 history places hplaces hcuts => Leads.pure (.inl ?_)
        · have hfault : (Connection.setCell s.unbound c half).leaseFault = s.leaseFault := by cases half <;> rfl
          rw [hfault]
          exact .forced hs hlive h0
        · show Deal i _ _ _ (s.forceMarks i) _
          have hmarks : s.forceMarks i = [.freed i, .closed i s.fd, .completed ⟨i, half⟩] := by
            rw [Slot.forceMarks, hstate]
            cases half <;> rfl
          have hopen : s.state ≠ .disconnecting := by
            rw [hstate]
            cases half <;> exact nofun
          have hafter : history.filterMap Event.closes? = v.spot.cut s.fd := by
            rw [hcuts, if_neg hopen, Spot.cut, Spot.cut]
            show (if 0 ≤ s.fd then s.fd :: woken.filterMap Event.closes? else woken.filterMap Event.closes?) = _
            rw [hwoken]
            rfl
          rw [hmarks]
          show Deal i _ v.spot _ _ { v.spot.put { Connection.setCell s.unbound c half with leases := s.leases - 1 } with
            places, cuts := history.filterMap Event.closes? }
          rw [hafter]
          exact .forcedHalf hs hstate hphase h0 hplaces
    · refine settleForce_spot rfl rfl (hindex s hs hlive) (fun h0 => .forced (s := s) hs hlive h0)
        fun h0 history places hplaces hcuts => Leads.pure (.inl ?_)
      show Deal i _ v.spot _ (s.forceMarks i)
        { v.spot.put { s.unbound with leases := s.leases - 1 } with places, cuts := history.filterMap Event.closes? }
      have hmarks : s.forceMarks i =
          [.freed i, if s.state = .disconnecting then .spared i s.fd else .closed i s.fd] := by
        rw [Slot.forceMarks]
        have hreceive := hquiet .receive
        have hsend := hquiet .send
        cases hstate : s.state <;> rw [hstate] at hlive hreceive hsend <;>
          first | rfl | exact absurd rfl hlive | exact absurd hreceive (by decide) | exact absurd hsend (by decide)
      rw [hmarks, hcuts]
      exact .forced hs hlive hquiet h0 hplaces

end Act

/-! ## Acts of a machine -/

/-- An act takes a turn at every slot, or meets with a mishap. -/
theorem Act.turns (a : Act) (m : Machine α) (hindex : ∀ (i : Nat) (s : Slot), m.worker.slots[i]? = some s →
    s.state ≠ .disconnected → s.index = i) :
    Holds (fun fault => ∃ i, Mishap i a (m.spot i) fault) (a.run : Run α (List Act × List Mark)) m fun next m' =>
      ∀ i, Turn i a (m.spot i) next.1 next.2 (m'.spot i) := by
  -- an act that works on one slot leaves the views of the others alone
  have hworks : ∀ i, a.WorksOn α i (m.view [] i) →
      Holds (fun fault => ∃ i, Mishap i a (m.spot i) fault) (a.run : Run α (List Act × List Mark)) m fun next m' =>
        ∀ i, Turn i a (m.spot i) next.1 next.2 (m'.spot i) := by
    intro i h
    have hlead := h m [] (fun _ _ => trivial) rfl
    unfold Holds
    cases hrun : (a.run : Run α (List Act × List Mark)) m with
    | error fault m' =>
      rw [hrun] at hlead
      exact ⟨i, hlead⟩
    | ok next m' =>
      rw [hrun] at hlead
      obtain ⟨hdeal, hframe⟩ := hlead
      intro j
      by_cases hj : j = i
      · subst hj
        rcases hdeal with hdeal | ⟨hsame, haloof⟩
        · exact .deal hdeal
        · show Turn j a _ _ _ (m'.view [] j).spot
          rw [hsame]
          exact .aloof (haloof j)
      · show Turn j a _ _ _ (m'.view [] j).spot
        rw [hframe j hj]
        rcases hdeal with hdeal | ⟨-, haloof⟩
        · exact .aloof (hdeal.aloof hj)
        · exact .aloof (haloof j)
  have hsame : ∀ {m' : Machine α}, (∀ pending j, m'.view pending j = m.view pending j) → ∀ i, m'.spot i = m.spot i :=
    fun hview i => congrArg View.spot (hview [] i)
  match a with
  | .bind i fd peer => exact hworks i (worksOn_bind fd peer)
  | .receive i => exact hworks i (worksOn_start .receive 0)
  | .send i length => exact hworks i (worksOn_start .send length)
  | .poll ⟨i, half⟩ waker => exact hworks i (worksOn_poll half waker)
  | .leave i => exact hworks i worksOn_leave
  | .disconnect i => exact hworks i worksOn_disconnect
  | .release i => exact hworks i worksOn_release
  | .push c => exact hworks c.slot (worksOn_push c rfl)
  | .stall c => exact hworks c.slot (worksOn_stall c)
  | .fail c => exact hworks c.slot (worksOn_fail c rfl)
  | .close i => exact hworks i worksOn_close
  | .complete i half => exact hworks i (worksOn_complete half)
  | .force (i :: left) forced => exact hworks i (worksOn_force fun s hs => hindex i s hs)
  | .force [] forced =>
    refine Holds.bind (Holds.worker (Holds.bind (Holds.still .say fun _ m₁ hview => Holds.pure fun i => ?_)))
    rw [hsame hview]
    exact .aloof ⟨fun duty _ => by simp, by simp, nofun⟩
  | .assign fd peer =>
    refine Holds.bind (Holds.acquire ?_ fun i free hfree => ?_)
    · refine Holds.bind (Holds.still .bump fun _ m₁ hview₁ => ?_)
      refine Holds.bind (Holds.still (Regime.still_closeNow fd) fun _ m₂ hview₂ => Holds.pure fun i => ?_)
      have hview : ∀ pending j, m₂.view pending j = m.view pending j := fun pending j =>
        (hview₂ pending j).trans (hview₁ pending j)
      rw [hsame hview]
      exact .aloof (Aloof.of_zero (by simp))
    · obtain ⟨hplaces, hself, hframe⟩ := Machine.view_taken [] hfree
      refine Holds.pure fun j => ?_
      by_cases hj : j = i
      · subst hj
        show Turn j _ _ _ _ (Machine.view _ [] j).spot
        rw [hself]
        exact .deal (.taken hplaces)
      · show Turn j _ _ _ _ (Machine.view _ [] j).spot
        rw [hframe j hj]
        exact .aloof ((Deal.taken (p := m.spot i) hplaces).aloof hj)
  | .ring =>
    have hquiet : ∀ {m' : Machine α}, (∀ pending j, m'.view pending j = m.view pending j) →
        ∀ i, Turn i .ring (m.spot i) [] [] (m'.spot i) := fun hview i => by
      rw [hsame hview]
      exact .aloof (Aloof.of_zero (by simp))
    refine Holds.bind (Holds.still .ring fun answer m₁ hview₁ => ?_)
    cases answer with
    | ok _ => exact Holds.pure (hquiet hview₁)
    | error e =>
      refine Holds.bind (Holds.still .say fun _ m₂ hview₂ => Holds.pure (hquiet fun pending j => ?_))
      exact (hview₂ pending j).trans (hview₁ pending j)
  | .look =>
    refine Holds.bind (Holds.worker ?_)
    split
    · exact Holds.pure fun i => .aloof ⟨fun duty _ => by simp, by simp, nofun⟩
    · rename_i hexited
      exact Holds.pure fun i => .looked (Bool.not_eq_true _ ▸ hexited)
  | .pop =>
    refine Holds.bind (Holds.pop (fun hnone => Holds.pure fun i => .emptied ?_) fun c inbox hinbox =>
      Holds.pure fun j => ?_)
    · show m.worker.inbox.filter _ = []
      rw [hnone]
      rfl
    · obtain ⟨rest, hcommands, hself, hframe⟩ := Machine.view_popped [] hinbox
      by_cases hj : j = c.slot
      · subst hj
        show Turn c.slot _ _ _ _ (Machine.view _ [] c.slot).spot
        rw [hself]
        exact .deal (.popped rfl hcommands)
      · show Turn j _ _ _ _ (Machine.view _ [] j).spot
        rw [hframe j hj]
        exact .aloof ((Deal.popped (p := m.spot c.slot) rfl hcommands).aloof hj)
  | .exit => exact fun i => .exited
  | .retract =>
    have hretract : ∀ m₁ : Machine α, (∀ pending j, m₁.view pending j = m.view pending j) → ∀ i,
        Turn i .retract (m.spot i) [.force (List.range m₁.worker.slots.length) 0] []
          (({ m₁ with trace := .released :: m₁.trace } : Machine α).spot i) := fun m₁ hview i => by
      have hspot : ({ m₁ with trace := .released :: m₁.trace } : Machine α).spot i = m.spot i := hsame hview i
      rw [hspot]
      refine .retracted ?_
      rw [show (m.spot i).slot? = m₁.worker.slots[i]? from congrArg Spot.slot? (hsame hview i).symm]
      by_cases hi : i < m₁.worker.slots.length
      · rw [List.getElem?_eq_getElem hi, decide_eq_true hi]
        rfl
      · rw [List.getElem?_eq_none (Nat.le_of_not_lt hi), decide_eq_false hi]
        rfl
    refine Holds.bind (Holds.bind (Holds.still Ebb.still_deregister fun answer m₁ hview₁ => ?_))
    cases answer with
    | ok _ => exact Holds.of_eq rfl (Holds.bind (Holds.worker (Holds.pure (hretract m₁ hview₁))))
    | error e =>
      refine Holds.bind (Holds.still .say fun _ m₂ hview₂ => ?_)
      have hview : ∀ pending j, m₂.view pending j = m.view pending j := fun pending j =>
        (hview₂ pending j).trans (hview₁ pending j)
      exact Holds.of_eq rfl (Holds.bind (Holds.worker (Holds.pure (hretract m₂ hview))))

end SlotServer
