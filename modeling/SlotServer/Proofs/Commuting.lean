import Mathlib.Data.List.Perm.Basic
import SlotServer.Proofs.Effects

/-!
# Completions of different slots commute

Slots share the counters, the queue of free slots, the kernel and the record. What a completion does with these depends
on its own slot alone, and adds to what others did: so it does not matter in which order the completions of different
slots come, as long as those of one slot keep theirs.

- `Machine.Able`: the slots keep their leases right, and the kernel lets every operation through. A completion has an
  effect at such a machine (`Able.route`) and leaves such a machine (`Able.routed`);
- `Machine.Agrees`: two machines are the same but for the order in which things were added;
- `Meets`: two lists of completions lead to machines that agree. Two neighbours may be swapped (`Meets.swap`), and one
  may be brought to the front past those of other slots (`Meets.front`);
- `WildTurn.route_matches`: only the order within each slot matters.
-/

namespace SlotServer

variable {α : Type}

/-! ## Machines at which completions have effects -/

/-- The slots keep their leases right, and the kernel lets every operation through. -/
structure Machine.Able (m : Machine α) : Prop where
  afloat : m.All Afloat []
  willing : m.kernel.Willing

/-- A completion is taken to its slot, whether it was ready before or not. -/
theorem Machine.All.route {m : Machine α} {c : Completion} (h : m.All Afloat []) (hc : c.result ≠ Int32.minValue) :
    ∃ m', Run.route c m = .ok () m' ∧ m'.All Afloat [] := by
  have hself : Afloat c.ctx.slot { m.view [] c.ctx.slot with answers := c :: (m.view [] c.ctx.slot).answers } :=
    (h c.ctx.slot).imp
      (fun ⟨s, htallied⟩ => ⟨s, { htallied with
        answers := fun d hd => (List.mem_cons.1 hd).elim (fun hd => hd ▸ hc) (htallied.answers d) }⟩)
      fun hmissing => { hmissing with }
  have hholds : Holds (fun _ => False) (Run.route c : Run α Unit) m fun _ m' => m'.All Afloat [] := by
    refine Holds.lead (R := ⟨Afloat, fun _ => False⟩) [] (hself.route rfl rfl) (fun j _ => h j)
      fun _ m' hi hframe j => ?_
    by_cases hj : j = c.ctx.slot
    · rw [hj]
      exact hi
    · rw [hframe j hj]
      exact h j
  obtain ⟨⟨⟩, m', hrun, hafter⟩ := hholds.comes
  exact ⟨m', hrun, hafter⟩

namespace Machine.Able

variable {m m' : Machine α} {c : Completion}

theorem fine (h : m.Able) (i : Nat) : m.Fine i m.worker.slots[i]? m.worker.id where
  slot := rfl
  id := rfl
  willing := h.willing
  room _ := h.afloat.room_of_afloat

/-- A completion has an effect, which it has at every machine with the same slot. -/
theorem route (h : m.Able) (hc : c.result ≠ Int32.minValue) : ∃ e : Effect, (m.gain c.ctx.slot e).Able ∧
    ∀ m' : Machine α, m'.Fine c.ctx.slot m.worker.slots[c.ctx.slot]? m.worker.id →
      Run.route c m' = .ok () (m'.gain c.ctx.slot e) := by
  obtain ⟨m', hrun, hafter⟩ := h.afloat.route hc
  rcases Local.route c m.worker.slots[c.ctx.slot]? m.worker.id with ⟨fault, hfault⟩ | ⟨b, e, -, heffect⟩
  · obtain ⟨m'', hfaulty⟩ := hfault m (h.fine c.ctx.slot)
    rw [hrun] at hfaulty
    cases hfaulty
  · have hself := heffect m (h.fine c.ctx.slot)
    rw [hrun] at hself
    cases hself
    exact ⟨e, ⟨hafter, h.willing.pushAll e.pushed⟩, heffect⟩

theorem routed (h : m.Able) (hc : c.result ≠ Int32.minValue) (hrun : Run.route c m = .ok () m') : m'.Able := by
  obtain ⟨e, hable, heffect⟩ := h.route hc
  rw [heffect m (h.fine c.ctx.slot)] at hrun
  cases hrun
  exact hable

end Machine.Able

/-! ## Machines that agree -/

theorem Counters.bump_comm (c : Counters) (which which' : Counter) (n n' : UInt64) :
    (c.bump which n).bump which' n' = (c.bump which' n').bump which n := by
  cases which <;> cases which' <;> simp only [bump, UInt64.add_assoc, UInt64.add_comm n]

theorem Counters.count_comm (c : Counters) (counted counted' : List (Counter × UInt64)) :
    (c.count counted).count counted' = (c.count counted').count counted := by
  have hcomm : RightCommutative fun (c : Counters) (one : Counter × UInt64) => c.bump one.1 one.2 :=
    ⟨fun c one other => c.bump_comm one.1 other.1 one.2 other.2⟩
  unfold count
  rw [← List.foldl_append, ← List.foldl_append]
  exact List.perm_append_comm.foldl_eq c

namespace Machine

/-- The machines are the same but for the order in which slots were freed and things were recorded. -/
structure Agrees (m m' : Machine α) : Prop where
  slots : m.worker.slots = m'.worker.slots
  id : m.worker.id = m'.worker.id
  inbox : m.worker.inbox = m'.worker.inbox
  counters : m.worker.counters = m'.worker.counters
  free : m.worker.free.Perm m'.worker.free
  trace : m.trace.Perm m'.trace

namespace Agrees

variable {m m' m'' : Machine α}

theorem refl (m : Machine α) : m.Agrees m := ⟨rfl, rfl, rfl, rfl, .refl _, .refl _⟩

theorem symm (h : m.Agrees m') : m'.Agrees m :=
  ⟨h.slots.symm, h.id.symm, h.inbox.symm, h.counters.symm, h.free.symm, h.trace.symm⟩

theorem trans (h : m.Agrees m') (h' : m'.Agrees m'') : m.Agrees m'' where
  slots := h.slots.trans h'.slots
  id := h.id.trans h'.id
  inbox := h.inbox.trans h'.inbox
  counters := h.counters.trans h'.counters
  free := h.free.trans h'.free
  trace := h.trace.trans h'.trace

/-- Machines that agree have the same effect. -/
theorem gain (h : m.Agrees m') (i : Nat) (e : Effect) : (m.gain i e).Agrees (m'.gain i e) where
  slots := by
    unfold Machine.gain
    dsimp only
    rw [h.slots]
  id := h.id
  inbox := h.inbox
  counters := congrArg (Counters.count · e.counted) h.counters
  free := by
    unfold Machine.gain
    dsimp only
    split
    · exact h.free.append_right [i]
    · exact h.free
  trace := h.trace.append_left e.events

/-- The effects at two slots may be had in either order. -/
theorem swap {i j : Nat} (hij : i ≠ j) (m : Machine α) (e e' : Effect) :
    ((m.gain i e).gain j e').Agrees ((m.gain j e').gain i e) where
  slots := by
    unfold Machine.gain
    cases e.slot with
    | none => rfl
    | some s =>
      cases e'.slot with
      | none => rfl
      | some s' => exact List.set_comm s s' hij
  id := rfl
  inbox := rfl
  counters := m.worker.counters.count_comm e.counted e'.counted
  free := by
    unfold Machine.gain
    cases e.frees with
    | false => exact .refl _
    | true =>
      cases e'.frees with
      | false => exact .refl _
      | true =>
        show ((m.worker.free ++ [i]) ++ [j]).Perm ((m.worker.free ++ [j]) ++ [i])
        rw [List.append_assoc, List.append_assoc]
        exact List.perm_append_comm.append_left m.worker.free
  trace := List.perm_append_comm_assoc e'.events e.events m.trace

/-- A machine with the slot of another one. -/
theorem fine (h : m.Agrees m') (hable : m'.Able) (i : Nat) : m'.Fine i m.worker.slots[i]? m.worker.id := by
  rw [h.slots, h.id]
  exact hable.fine i

end Agrees

end Machine

/-! ## Lists of completions -/

/-- From two machines, two lists of completions lead to machines that agree. -/
def Meets (m : Machine α) (l : List Completion) (m' : Machine α) (l' : List Completion) : Prop :=
  ∃ m₁ m₂, l.forM Run.route m = .ok () m₁ ∧ l'.forM Run.route m' = .ok () m₂ ∧ m₁.Agrees m₂

namespace Meets

variable {m m' m'' : Machine α} {l l' l'' : List Completion} {c c' : Completion}

theorem symm (h : Meets m l m' l') : Meets m' l' m l := by
  obtain ⟨m₁, m₂, hrun, hrun', hagrees⟩ := h
  exact ⟨m₂, m₁, hrun', hrun, hagrees.symm⟩

theorem trans (h : Meets m l m' l') (h' : Meets m' l' m'' l'') : Meets m l m'' l'' := by
  obtain ⟨m₁, m₂, hrun, hrun', hagrees⟩ := h
  obtain ⟨m₃, m₄, hrun₃, hrun₄, hagrees'⟩ := h'
  obtain rfl : m₂ = m₃ := by
    rw [hrun'] at hrun₃
    cases hrun₃
    rfl
  exact ⟨m₁, m₄, hrun, hrun₄, hagrees.trans hagrees'⟩

/-- Each list has one more completion at its front. -/
theorem cons {m₁ m₂ : Machine α} (hrun : Run.route c m = .ok () m₁) (hrun' : Run.route c' m' = .ok () m₂)
    (h : Meets m₁ l m₂ l') : Meets m (c :: l) m' (c' :: l') := by
  obtain ⟨m₃, m₄, hrest, hrest', hagrees⟩ := h
  exact ⟨m₃, m₄, (Run.bind_run hrun).trans hrest, (Run.bind_run hrun').trans hrest', hagrees⟩

/-- From machines that agree, one list leads to machines that agree. -/
theorem of_agrees (h : m.Agrees m') (hable : m.Able) (hable' : m'.Able) (hneg : ∀ c ∈ l, c.result ≠ Int32.minValue) :
    Meets m l m' l := by
  induction l generalizing m m' with
  | nil => exact ⟨m, m', rfl, rfl, h⟩
  | cons c l ih =>
    have hc := hneg c (List.mem_cons_self ..)
    obtain ⟨e, hafter, heffect⟩ := hable.route hc
    have hrun := heffect m (hable.fine c.ctx.slot)
    have hrun' := heffect m' (h.fine hable' c.ctx.slot)
    refine cons hrun hrun' (ih (h.gain c.ctx.slot e) hafter (hable'.routed hc hrun') fun d hd => ?_)
    exact hneg d (List.mem_cons_of_mem c hd)

/-- Two neighbours of different slots are swapped. -/
theorem swap (hable : m.Able) (hslot : c.ctx.slot ≠ c'.ctx.slot)
    (hneg : ∀ d ∈ c :: c' :: l, d.result ≠ Int32.minValue) : Meets m (c :: c' :: l) m (c' :: c :: l) := by
  have hc := hneg c (List.mem_cons_self ..)
  have hc' := hneg c' (List.mem_cons_of_mem c (List.mem_cons_self ..))
  obtain ⟨e, hafter, heffect⟩ := hable.route hc
  obtain ⟨e', hafter', heffect'⟩ := hable.route hc'
  have hrun := heffect m (hable.fine c.ctx.slot)
  have hrun' := heffect' m (hable.fine c'.ctx.slot)
  -- neither effect touches the slot of the other
  have hsecond := heffect' (m.gain c.ctx.slot e) <| by
    rw [← m.slot_gain_of_ne e hslot.symm]
    exact hafter.fine c'.ctx.slot
  have hsecond' := heffect (m.gain c'.ctx.slot e') <| by
    rw [← m.slot_gain_of_ne e' hslot]
    exact hafter'.fine c.ctx.slot
  refine cons hrun hrun' (cons hsecond hsecond' (of_agrees (.swap hslot m e e') ?_ ?_ fun d hd => ?_))
  · exact hafter.routed hc' hsecond
  · exact hafter'.routed hc hsecond'
  · exact hneg d (List.mem_cons_of_mem c (List.mem_cons_of_mem c' hd))

/-- A completion is brought to the front, past those of other slots. -/
theorem front (hable : m.Able) (hslots : ∀ d ∈ l, d.ctx.slot ≠ c.ctx.slot)
    (hneg : ∀ d ∈ l ++ c :: l', d.result ≠ Int32.minValue) : Meets m (l ++ c :: l') m (c :: (l ++ l')) := by
  induction l generalizing m with
  | nil => exact of_agrees (.refl m) hable hable hneg
  | cons d l ih =>
    have hd := hneg d (List.mem_cons_self ..)
    have hslot := hslots d (List.mem_cons_self ..)
    obtain ⟨m₁, hrun, -⟩ := hable.afloat.route hd
    have hrest := ih (hable.routed hd hrun) (fun d' hd' => hslots d' (List.mem_cons_of_mem d hd')) fun d' hd' =>
      hneg d' (List.mem_cons_of_mem d hd')
    refine trans (cons hrun hrun hrest) (swap hable hslot fun d' hd' => hneg d' ?_)
    simp only [List.cons_append, List.mem_cons, List.mem_append] at hd' ⊢
    tauto

end Meets

section Filters

variable {l l' : List Completion} {c d : Completion}

/-- Where the lists agree for each slot, one has the completions of the other. -/
theorem mem_of_filter (hsame : ∀ i, l.filter (·.ctx.slot = i) = l'.filter (·.ctx.slot = i)) (hd : d ∈ l') : d ∈ l := by
  have hmem : d ∈ l'.filter (·.ctx.slot = d.ctx.slot) := List.mem_filter.2 ⟨hd, decide_eq_true rfl⟩
  rw [← hsame] at hmem
  exact (List.mem_filter.1 hmem).1

/-- Where the lists agree for each slot, the first completion of one is in the other the first one of its slot. Without
it they agree as well. -/
theorem front_of_filter (hsame : ∀ i, (c :: l).filter (·.ctx.slot = i) = l'.filter (·.ctx.slot = i)) :
    ∃ before rest, l' = before ++ c :: rest ∧ (∀ d ∈ before, d.ctx.slot ≠ c.ctx.slot) ∧
      ∀ i, l.filter (·.ctx.slot = i) = (before ++ rest).filter (·.ctx.slot = i) := by
  have hfirst := hsame c.ctx.slot
  rw [List.filter_cons, if_pos (decide_eq_true rfl)] at hfirst
  obtain ⟨before, rest, rfl, hbefore, -, -⟩ := List.filter_eq_cons_iff.1 hfirst.symm
  have hothers : ∀ d ∈ before, d.ctx.slot ≠ c.ctx.slot := fun d hd hslot => hbefore d hd (decide_eq_true hslot)
  refine ⟨before, rest, rfl, hothers, fun i => ?_⟩
  have hi := hsame i
  rw [List.filter_append, List.filter_cons, List.filter_cons] at hi
  rw [List.filter_append]
  by_cases hslot : c.ctx.slot = i
  · have hnone : before.filter (·.ctx.slot = i) = [] := List.filter_eq_nil_iff.2 fun d hd hd' =>
      hothers d hd ((of_decide_eq_true hd').trans hslot.symm)
    rw [if_pos (decide_eq_true hslot), if_pos (decide_eq_true hslot), hnone] at hi
    rw [hnone]
    exact List.tail_eq_of_cons_eq hi
  · rw [if_neg (by simpa using hslot), if_neg (by simpa using hslot)] at hi
    exact hi

end Filters

/-- Two lists with the same completions of each slot lead to machines that agree. -/
theorem Meets.of_filter {m : Machine α} {l l' : List Completion} (hable : m.Able)
    (hneg : ∀ c ∈ l, c.result ≠ Int32.minValue)
    (hsame : ∀ i, l.filter (·.ctx.slot = i) = l'.filter (·.ctx.slot = i)) : Meets m l m l' := by
  induction l generalizing m l' with
  | nil =>
    obtain rfl : l' = [] := List.eq_nil_iff_forall_not_mem.2 fun c hc => List.not_mem_nil (mem_of_filter hsame hc)
    exact of_agrees (.refl m) hable hable hneg
  | cons c l ih =>
    have hc := hneg c (List.mem_cons_self ..)
    obtain ⟨before, rest, rfl, hbefore, hrest⟩ := front_of_filter hsame
    obtain ⟨m₁, hrun, -⟩ := hable.afloat.route hc
    have hmeets := ih (hable.routed hc hrun) (fun d hd => hneg d (List.mem_cons_of_mem c hd)) hrest
    have hfront := front hable hbefore fun d hd => hneg d (mem_of_filter hsame hd)
    exact trans (cons hrun hrun hmeets) hfront.symm

/-! ## Runs -/

/-- A machine that a worker over an arbitrary kernel comes to, between what it is made to do or within a turn, up to
where the turn's completions are at their slots. -/
inductive WildTurn (serve : Run.Serve α) : Machine α → Prop
  | between {m : Machine α} (h : WildRun serve m) : WildTurn serve m
  /-- A turn begins. -/
  | opened {m m' : Machine α} (h : WildRun serve m) (hexited : m.worker.exited = false)
    (hrun : Run.openTurn m = .ok () m') : WildTurn serve m'
  /-- The kernel is called. Any completions may become ready, and any operations may fail from now on. -/
  | called {m : Machine α} (h : WildTurn serve m) (kernel : Kernel)
    (hready : ∀ c ∈ kernel.ready, c.result ≠ Int32.minValue) : WildTurn serve { m with kernel }
  /-- Something is recorded that is of no slot. -/
  | noted {m : Machine α} (h : WildTurn serve m) (event : Event) (haside : event.Aside) :
    WildTurn serve { m with trace := event :: m.trace }
  /-- A completion is taken to its slot. -/
  | routed {m m' : Machine α} {c : Completion} (h : WildTurn serve m) (hc : c.result ≠ Int32.minValue)
    (hrun : Run.route c m = .ok () m') : WildTurn serve m'

theorem WildTurn.afloat {serve : Run.Serve α} {m : Machine α} (hserve : Modest serve) (h : WildTurn serve m) :
    m.All Afloat [] := by
  induction h with
  | between h => exact fun i => (h.moored hserve i).afloat
  | opened h hexited hrun =>
    have hopened := ((wild hserve).openTurn (h.moored hserve) hexited).of_ok hrun
    exact fun i => (hopened.1 i).afloat
  | called _ kernel hready ih =>
    exact fun i => (ih i).imp
      (fun ⟨s, htallied⟩ => ⟨s, { htallied with answers := fun c hc => hready c (List.mem_filter.1 hc).1 }⟩)
      fun hmissing => { hmissing with }
  | @noted m _ event haside ih =>
    intro i
    rw [m.view_record, haside i, if_neg Bool.false_ne_true]
    exact ih i
  | routed _ hc hrun ih =>
    obtain ⟨m₁, hrun', hafter⟩ := ih.route hc
    rw [hrun] at hrun'
    cases hrun'
    exact hafter

/-- The operation that was queued. -/
def Event.queued? : Event → Option Op
  | .queued op => some op
  | _ => none

/-- The operations that were queued, the latest first. -/
def Machine.pushed (m : Machine α) : List Op := m.trace.filterMap Event.queued?

/-- The machines are the same but for the order in which slots were freed and operations were queued. -/
structure Machine.Matches (m m' : Machine α) : Prop where
  /-- The slots, with their states, descriptors, lengths, cells, handles and leases. -/
  slots : m.worker.slots = m'.worker.slots
  wakes : ∀ waker, m.wakesOf waker = m'.wakesOf waker
  inbox : m.worker.inbox = m'.worker.inbox
  counters : m.worker.counters = m'.worker.counters
  pushed : m.pushed.Perm m'.pushed
  free : m.worker.free.Perm m'.worker.free

theorem Machine.Agrees.matches {m m' : Machine α} (h : m.Agrees m') : m.Matches m' where
  slots := h.slots
  wakes _ := h.trace.countP_eq _
  inbox := h.inbox
  counters := h.counters
  pushed := h.trace.filterMap Event.queued?
  free := h.free

/-- Two lists of completions that agree for each slot make no difference, as long as the kernel lets every operation
through: the completions of different slots may come in any order. -/
theorem WildTurn.route_matches {serve : Run.Serve α} {m : Machine α} {l l' : List Completion} (hserve : Modest serve)
    (h : WildTurn serve m) (hwilling : m.kernel.Willing) (hneg : ∀ c ∈ l, c.result ≠ Int32.minValue)
    (hsame : ∀ i, l.filter (·.ctx.slot = i) = l'.filter (·.ctx.slot = i)) :
    ∃ m₁ m₂, l.forM Run.route m = .ok () m₁ ∧ l'.forM Run.route m = .ok () m₂ ∧ m₁.Matches m₂ := by
  obtain ⟨m₁, m₂, hrun, hrun', hagrees⟩ := Meets.of_filter ⟨h.afloat hserve, hwilling⟩ hneg hsame
  exact ⟨m₁, m₂, hrun, hrun', hagrees.matches⟩

/-- The machine over a kernel that lets every operation through from now on. -/
abbrev Machine.willing (m : Machine α) : Machine α :=
  { m with kernel := { m.kernel with schedule := fun _ _ => none } }

/-- Two connections wait for bytes. -/
def Machine.receivers? : Option (Machine Application) :=
  (built? { backlog := 2, receiveLength := 1, sendLength := 1, useNagle := true } 1 { service := .keep }).bind
    (·.after? Application.serve
      [.assign 5 none, .assign 6 none, .turn false, .deed 0 .receive, .deed 1 .receive, .turn false])

theorem WildTurn.of_receivers? {m : Machine Application} (h : Machine.receivers? = some m) :
    WildTurn Application.serve m.willing := by
  have hready : Machine.receivers?.all (·.kernel.ready.isEmpty) = true := by decide +kernel
  have hnone : m.kernel.ready = [] := List.isEmpty_iff.1 ((Option.all_eq_true ..).1 hready m h)
  unfold Machine.receivers? at h
  obtain ⟨m₀, hbuilt, hafter⟩ := Option.bind_eq_some_iff.1 h
  have hstart : m₀.Starts := .of_built? hbuilt (by decide +kernel)
  have hrun : WildRun Application.serve m := Reached.after (fun move => move.isWhole = true) (.start hstart)
    (fun hwhole hallowed hrun => .move _ hwhole hallowed hrun) (by decide) hafter
  refine .called (.between hrun) _ fun c hc => ?_
  rw [show m.willing.kernel.ready = m.kernel.ready from rfl, hnone] at hc
  cases hc

/-- A byte for one connection comes before, or after, the other one's peer is done and its socket is closed. -/
theorem WildTurn.route_matches_receivers : ∃ m m₁ m₂ : Machine Application, Machine.receivers? = some m ∧
    [⟨.ofSlot 0, 1, 0⟩, ⟨.ofSlot 1, 0, 0⟩, ⟨.ofSlot 1, 0, 0⟩].forM Run.route m.willing = .ok () m₁ ∧
      [⟨.ofSlot 1, 0, 0⟩, ⟨.ofSlot 1, 0, 0⟩, ⟨.ofSlot 0, 1, 0⟩].forM Run.route m.willing = .ok () m₂ ∧
      m₁.Matches m₂ := by
  have hany : Machine.receivers?.isSome = true := by decide +kernel
  obtain ⟨m, hm⟩ := Option.isSome_iff_exists.1 hany
  have hsame : ∀ i, [(⟨.ofSlot 0, 1, 0⟩ : Completion), ⟨.ofSlot 1, 0, 0⟩, ⟨.ofSlot 1, 0, 0⟩].filter (·.ctx.slot = i) =
      [⟨.ofSlot 1, 0, 0⟩, ⟨.ofSlot 1, 0, 0⟩, ⟨.ofSlot 0, 1, 0⟩].filter (·.ctx.slot = i) := by
    intro i
    by_cases hi : i = 0
    · subst hi
      decide
    · have hother : ¬0 = i := fun h => hi h.symm
      simp [List.filter_cons, hother]
  obtain ⟨m₁, m₂, hruns⟩ := WildTurn.route_matches Application.modest_serve (.of_receivers? hm)
    (fun _ _ _ _ => rfl) (by decide) hsame
  exact ⟨m, m₁, m₂, hm, hruns⟩

end SlotServer
