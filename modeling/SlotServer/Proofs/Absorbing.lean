import SlotServer.Proofs.Batches
import SlotServer.Proofs.BlindCalls
import SlotServer.Proofs.Commuting
import SlotServer.Proofs.Touches

/-!
# Completions with any contexts and any results

Nothing keeps a kernel from handing out completions that answer nothing, or whose results mean nothing. What a worker
does must not hang on those that it has not looked at yet, and it takes each of them in its stride: all but the one
result that cannot be negated.

- `Muted`, `Blind.muted`: what holds of a slot whatever is ready for it. Programs that are blind keep it;
- `Completion.Absorbed`: what a completion comes to, and `Machine.All.route_absorbed`: that it does, unless it has the
  least result and its slot waits for one;
- `Absorbs`: completions are taken to their slots one by one, and each comes to that;
- `Takes`, `Twins.takes`: so it is with all that a turn takes out batch by batch, up to one that cannot be taken.
-/

namespace SlotServer

variable {α β γ : Type} {m m' a a' : Machine α} {c : Completion} {cs : List Completion}

/-! ## Slots without their completions -/

/-- Something holds of a slot whatever completions are ready for it. -/
def Muted (P : Nat → View → Prop) (i : Nat) (v : View) : Prop := P i { v with answers := [] }

/-- The machine without the completions that are ready. -/
abbrev Machine.hushed (m : Machine α) : Machine α := { m with kernel := { m.kernel with ready := [] } }

/-- What holds whatever is ready holds where nothing is. -/
theorem Machine.All.hushed {P : Nat → View → Prop} (h : m.All (Muted P) []) : m.hushed.All P [] := h

theorem Twins.hushed (m : Machine α) : Twins m.kernel.ready m m.hushed :=
  ⟨rfl, rfl, rfl, rfl, rfl, rfl, fun _ _ _ => rfl, rfl, (List.append_nil _).symm⟩

/-- What the record tells of a slot is no chore. -/
theorem Machine.history_eq (m : Machine α) (i : Nat) : m.history i = m.facts.filter (·.concerns i) := by
  unfold history facts
  rw [List.filter_filter]
  refine List.filter_congr fun e _ => ?_
  cases e <;> simp [Event.concerns, Event.isChore]

/-- Twins show the same of a slot but for its completions. -/
theorem Twins.muted {pending : List Completion} (h : Twins pending m m') (i : Nat) :
    { m.view [] i with answers := [] } = { m'.view [] i with answers := [] } := by
  have hhistory : m.history i = m'.history i := by rw [m.history_eq, m'.history_eq, h.facts]
  unfold Machine.view
  dsimp only
  rw [h.worker, h.held, hhistory]

theorem Machine.All.of_twins {P : Nat → View → Prop} {pending : List Completion} (h : m.All (Muted P) [])
    (htwins : Twins pending m m') : m'.All (Muted P) [] := by
  intro i
  unfold Muted
  rw [← htwins.muted]
  exact h i

/-- What a blind program does where nothing is ready, it does whatever is ready. -/
theorem Blind.muted {F : Fault → Prop} {P : Nat → View → Prop} {x : Run α β} (hx : Blind x)
    (hP : ∀ i v, P i v → Muted P i v) (h : Holds F x m.hushed fun _ m' => m'.All P []) :
    Holds F x m fun _ m' => m'.All (Muted P) [] := by
  have hends := hx (.hushed m)
  unfold Holds at h ⊢
  generalize x m = r, x m.hushed = r' at hends h
  cases hends with
  | error => exact h
  | ok htwins _ =>
    intro i
    unfold Muted
    rw [htwins.muted]
    exact hP i _ (h i)

theorem Afloat.muted (i : Nat) (v : View) (h : Afloat i v) : Muted Afloat i v := by
  rcases h with ⟨s, htallied⟩ | hmissing
  · exact .inl ⟨s, { htallied with answers := nofun }⟩
  · exact .inr { hmissing with }

theorem Moored.muted (i : Nat) (v : View) (h : Moored i v) : Muted Moored i v := by
  rcases h with ⟨s, hsettled⟩ | hmissing
  · exact .inl ⟨s, { hsettled with answers := nofun }⟩
  · exact .inr { hmissing with }

/-- Where no result that is ready is the least one, nothing is hidden. -/
theorem Machine.All.unmuted (h : m.All (Muted Afloat) []) (hready : ∀ c ∈ m.kernel.ready, c.result ≠ Int32.minValue) :
    m.All Afloat [] := by
  intro i
  rcases h i with ⟨s, htallied⟩ | hmissing
  · exact .inl ⟨s, { htallied with answers := fun c hc => hready c (List.mem_filter.1 hc).1 }⟩
  · exact .inr { hmissing with }

/-! ## What becomes of a completion -/

/-- What a completion comes to. Where its slot waits for one, this slot is all that is touched, and what it waited for
ends. Where none waits for it, it is counted. -/
structure Completion.Absorbed (c : Completion) (m m' : Machine α) : Prop where
  run : Run.route c m = .ok () m'
  waiting : ∀ s : Slot, m.worker.slots[c.ctx.slot]? = some s → s.state.isPending = true →
    ∃ s' since n, m'.worker.slots[c.ctx.slot]? = some s' ∧ m.Touched c.ctx.slot since n m' ∧
      c.Ends c.ctx.slot s s' since n
  stray : (∀ s : Slot, m.worker.slots[c.ctx.slot]? = some s → s.state.isPending = false) → m' = m.miscounted c

theorem Machine.touched_miscounted (m : Machine α) (c : Completion) :
    ∃ since, m.Touched c.ctx.slot since 0 (m.miscounted c) := by
  have hnoted : m.Touched c.ctx.slot [.answered c] 0 (m.noting c) := .record m (fun _ hj => decide_eq_false hj.symm) rfl
  have hsaid := hnoted.trans (.record (m.noting c) (e := .said .error s!"worker {m.worker.id}: {m.stray c}")
    (fun _ _ => rfl) rfl)
  exact ⟨_, hsaid.trans (.bump _ .violations 1)⟩

/-- In any case no more than the slot is touched. -/
theorem Completion.Absorbed.touched (h : c.Absorbed m m') : ∃ since n, m.Touched c.ctx.slot since n m' := by
  by_cases hstray : ∀ s : Slot, m.worker.slots[c.ctx.slot]? = some s → s.state.isPending = false
  · rw [h.stray hstray]
    obtain ⟨since, htouched⟩ := m.touched_miscounted c
    exact ⟨since, 0, htouched⟩
  · push Not at hstray
    obtain ⟨s, hs, hpending⟩ := hstray
    obtain ⟨s', since, n, -, htouched, -⟩ := h.waiting s hs (by simpa using hpending)
    exact ⟨since, n, htouched⟩

/-- The slots are as within a turn after a completion that was counted. -/
theorem Machine.All.miscounted (h : m.All (Muted Afloat) []) (c : Completion) :
    (m.miscounted c).All (Muted Afloat) [] := by
  intro i
  have hview : (m.miscounted c).view [] i =
      if (Event.answered c).concerns i then (m.view [] i).log (.answered c) else m.view [] i := by
    rw [← Machine.view_record]
    rfl
  unfold Muted
  rw [hview]
  split
  · exact (h i).imp (fun ⟨s, htallied⟩ => ⟨s, htallied.log fun _ => rfl⟩) fun hmissing => { hmissing with }
  · exact h i

/-- The completion has the least result, and its slot waits for one. -/
def Machine.Stumbles (m : Machine α) (c : Completion) : Prop :=
  c.result = Int32.minValue ∧ ∃ s : Slot, m.worker.slots[c.ctx.slot]? = some s ∧ s.state.isPending = true

/-- Any other completion is absorbed. -/
theorem Machine.All.route_absorbed (h : m.All (Muted Afloat) []) (hc : ¬m.Stumbles c) :
    ∃ m', c.Absorbed m m' ∧ m'.All (Muted Afloat) [] := by
  by_cases hstray : ∀ s : Slot, m.worker.slots[c.ctx.slot]? = some s → s.state.isPending = false
  · refine ⟨m.miscounted c, ⟨Run.route_miscounted hstray, fun s hs hpending => ?_, fun _ => rfl⟩, h.miscounted c⟩
    rw [hstray s hs] at hpending
    cases hpending
  · push Not at hstray
    obtain ⟨s, hs, hpending⟩ := hstray
    have hpending : s.state.isPending = true := by simpa using hpending
    have hresult : c.result ≠ Int32.minValue := fun hmin => hc ⟨hmin, s, hs, hpending⟩
    obtain ⟨m₁, hrun₁, hall₁⟩ := Machine.All.route h.hushed hresult
    have hholds : Holds (fun _ => False) (Run.route c : Run α Unit) m.hushed fun _ m' => m'.All Afloat [] :=
      Holds.of_eq hrun₁ hall₁
    obtain ⟨⟨⟩, m', hrun, hall⟩ := ((Blind.route c).muted Afloat.muted hholds).comes
    refine ⟨m', ⟨hrun, fun s' hs' hpending' => ?_, fun hnone => ?_⟩, hall⟩
    · rcases h c.ctx.slot with ⟨t, htallied⟩ | hmissing
      · obtain rfl : t = s' := Option.some.inj (htallied.here.symm.trans hs')
        obtain ⟨s'', since, n, hs'', htouched, hends⟩ :=
          Confined.route rfl htallied.index htallied.slot_ofSlot hpending' m () m' hs' hrun
        rw [List.append_nil, Nat.zero_add] at hends
        exact ⟨s'', since, n, hs'', htouched, hends⟩
      · have hslot : m.worker.slots[c.ctx.slot]? = none := hmissing.slot
        rw [hs'] at hslot
        cases hslot
    · rw [hnone s hs] at hpending
      cases hpending

/-- A completion that was taken to its slot was absorbed. -/
theorem Machine.All.absorbed (h : m.All (Muted Afloat) []) (hrun : Run.route c m = .ok () m') :
    c.Absorbed m m' ∧ m'.All (Muted Afloat) [] := by
  have hc : ¬m.Stumbles c := by
    rintro ⟨hmin, s, hs, hpending⟩
    obtain ⟨m₁, hfault⟩ := Run.route_minValue hs hpending hmin
    rw [hrun] at hfault
    cases hfault
  obtain ⟨m₁, habsorbed, hall⟩ := h.route_absorbed hc
  have hsame := habsorbed.run
  rw [hrun] at hsame
  cases hsame
  exact ⟨habsorbed, hall⟩

/-! ## Rows of completions -/

/-- Completions are taken to their slots one after the other. Each is the first that is ready when it is taken out, and
it is absorbed. -/
inductive Absorbs : Machine α → List Completion → Machine α → Prop
  | nil (m : Machine α) : Absorbs m [] m
  | cons {c : Completion} {ready cs : List Completion} {m m₁ m' : Machine α} (hready : m.kernel.ready = c :: ready)
    (habsorbed : c.Absorbed { m with kernel := { m.kernel with ready } } m₁) (rest : Absorbs m₁ cs m') :
    Absorbs m (c :: cs) m'

namespace Absorbs

theorem routes (h : Absorbs m cs m') : Routes m cs m' := by
  induction h with
  | nil m => exact .nil m
  | cons hready habsorbed _ ih => exact .cons hready habsorbed.run ih

theorem append {m₁ : Machine α} {cs' : List Completion} (h : Absorbs m cs m₁) (h' : Absorbs m₁ cs' m') :
    Absorbs m (cs ++ cs') m' := by
  induction h with
  | nil => exact h'
  | cons hready habsorbed _ ih => exact .cons hready habsorbed (ih h')

end Absorbs

/-- What the record tells of makes nothing ready but the ends of closes, which went well. -/
theorem Kernel.ready_replay (k : Kernel) (h : List Event) :
    ∃ more, (k.replay h).ready = k.ready ++ more ∧ ∀ c ∈ more, c.result = 0 := by
  have hpush : ∀ (op : Op) {k' : Kernel}, (∃ more, k'.ready = k.ready ++ more ∧ ∀ c ∈ more, c.result = 0) →
      ∃ more, (k'.push op).2.ready = k.ready ++ more ∧ ∀ c ∈ more, c.result = 0 := by
    rintro op k' ⟨more, hmore, hzero⟩
    rcases k'.push_ready op with hsame | ⟨-, hone⟩
    · exact ⟨more, hsame.trans hmore, hzero⟩
    · refine ⟨more ++ [⟨op.ctx, 0, 0⟩], by rw [hone, hmore, List.append_assoc], fun c hc => ?_⟩
      rcases List.mem_append.1 hc with hc | hc
      · exact hzero c hc
      · rw [List.mem_singleton.1 hc]
  induction h with
  | nil => exact ⟨[], (List.append_nil _).symm, nofun⟩
  | cons e h ih =>
    cases e with
    | queued op => exact hpush op ih
    | refused op _ => exact hpush op ih
    | _ => exact ih

/-- Those that were taken to their slots and those that are ready yet are those that were ready, and after them the ends
of closes. -/
theorem Absorbs.ready (h : Absorbs m cs m') :
    ∃ more, cs ++ m'.kernel.ready = m.kernel.ready ++ more ∧ ∀ c ∈ more, c.result = 0 := by
  induction h with
  | nil m => exact ⟨[], (List.append_nil _).symm, nofun⟩
  | @cons c ready cs m m₁ m' hready habsorbed _ ih =>
    obtain ⟨since, n, htouched⟩ := habsorbed.touched
    obtain ⟨more, hmore, hzero⟩ := Kernel.ready_replay { m.kernel with ready } since
    obtain ⟨more', hmore', hzero'⟩ := ih
    rw [← htouched.kernel] at hmore
    refine ⟨more ++ more', ?_, fun c hc => (List.mem_append.1 hc).elim (hzero c) (hzero' c)⟩
    rw [List.cons_append, hmore', hmore, hready, List.cons_append, List.append_assoc]

/-- Once all that were ready are at their slots, there are only ends of closes left. -/
theorem Absorbs.left (h : Absorbs m cs m') (hlength : m.kernel.ready.length ≤ cs.length) :
    ∀ c ∈ m'.kernel.ready, c.result ≠ Int32.minValue := by
  obtain ⟨more, hmore, hzero⟩ := h.ready
  obtain ⟨late, hlate⟩ := List.prefix_of_prefix_length_le ⟨more, rfl⟩ ⟨m'.kernel.ready, hmore⟩ hlength
  rw [← hlate, List.append_assoc] at hmore
  have hsuffix := List.append_cancel_left hmore
  intro c hc
  rw [hzero c (hsuffix ▸ List.mem_append_right late hc)]
  exact zero_ne_minValue

/-- What comes of a program that takes completions to their slots, told where they are taken one by one: all of them are
absorbed, at least so many, or one comes that cannot be. -/
inductive Takes (m : Machine α) (least : Nat) : EStateM.Result Fault (Machine α) β → Prop
  | all {cs : List Completion} {b : β} {m' a' : Machine α} (habsorbs : Absorbs m cs m') (htwins : Twins [] m' a')
    (hall : m'.All (Muted Afloat) []) (hleast : least ≤ cs.length) : Takes m least (.ok b a')
  | stumbles {cs ready : List Completion} {c : Completion} {m' a' : Machine α} (habsorbs : Absorbs m cs m')
    (hready : m'.kernel.ready = c :: ready) (hstumbles : m'.Stumbles c) : Takes m least (.error .negOverflow a')

namespace Takes

/-- What was absorbed before counts. -/
theorem of_absorbs {m₁ : Machine α} {least least' : Nat} {r : EStateM.Result Fault (Machine α) β}
    (h : Absorbs m cs m₁) (htakes : Takes m₁ least r) (hleast : least' ≤ cs.length + least) : Takes m least' r := by
  cases htakes with
  | all habsorbs htwins hall hmore =>
    refine .all (h.append habsorbs) htwins hall ?_
    rw [List.length_append]
    omega
  | stumbles habsorbs hready hstumbles => exact .stumbles (h.append habsorbs) hready hstumbles

/-- The answer does not matter. -/
theorem answering {least : Nat} {x : Run α β} {f : β → γ} (h : Takes m least (x a)) :
    Takes m least ((do return f (← x) : Run α γ) a) := by
  generalize hrun : x a = r at h
  cases h with
  | all habsorbs htwins hall hleast =>
    rw [Run.bind_run hrun]
    exact .all habsorbs htwins hall hleast
  | stumbles habsorbs hready hstumbles =>
    rw [Run.bind_error hrun]
    exact .stumbles habsorbs hready hstumbles

end Takes

namespace Twins

/-- Completions that were taken out in one go are absorbed, up to one that cannot be. -/
theorem takes (h : Twins cs m a) (hall : m.All (Muted Afloat) []) :
    Takes m cs.length ((cs.forM Run.route : Run α PUnit) a) := by
  induction cs generalizing m a with
  | nil => exact .all (.nil m) h hall (Nat.le_refl 0)
  | cons c cs ih =>
    by_cases hstumbles : m.Stumbles c
    · obtain ⟨hmin, s, hs, hpending⟩ := hstumbles
      rw [h.worker] at hs
      obtain ⟨a', hrun⟩ := Run.route_minValue hs hpending hmin
      have hfault : ((c :: cs).forM Run.route : Run α PUnit) a = .error .negOverflow a' := Run.bind_error hrun
      rw [hfault]
      exact .stumbles (.nil m) h.ready ⟨hmin, s, by rw [h.worker]; exact hs, hpending⟩
    · have htaken : Twins cs { m with kernel := { m.kernel with ready := cs ++ a.kernel.ready } } a :=
        { h with ready := rfl }
      obtain ⟨m₁, habsorbed, hall₁⟩ := Machine.All.route_absorbed
        (m := { m with kernel := { m.kernel with ready := cs ++ a.kernel.ready } }) hall hstumbles
      have hends := Blind.route c htaken
      rw [habsorbed.run] at hends
      generalize hfirst : Run.route c a = first at hends
      cases hends with
      | ok h₁ =>
        have hrest : ((c :: cs).forM Run.route : Run α PUnit) a = cs.forM Run.route _ := Run.bind_run hfirst
        rw [hrest]
        refine .of_absorbs (.cons h.ready habsorbed (.nil m₁)) (ih h₁ hall₁) ?_
        rw [← List.length_append]
        exact Nat.le_refl _

/-- So are those that are taken out batch by batch. -/
theorem takes_harvestUpTo {n k : Nat} (h : Twins [] m a) (hall : m.All (Muted Afloat) []) (hbatch : 0 < a.worker.batch)
    (hready : k ≤ a.kernel.ready.length) (hk : k ≤ n) : Takes m k (Run.harvestUpTo n a) := by
  -- every batch but the last one is full, so `k` falls with the number of batches that may be taken yet
  induction n generalizing m a k with
  | zero => exact .all (.nil m) h hall hk
  | succ n ih =>
    have hlength : (a.kernel.harvest a.worker.batch).1.length = min a.worker.batch a.kernel.ready.length :=
      List.length_take
    have hbatched := (h.harvest a.worker.batch).takes hall
    generalize hrun : ((a.kernel.harvest a.worker.batch).1.forM Run.route : Run α PUnit) _ = r at hbatched
    have hrest : Run.harvestUpTo (n + 1) a = ((a.kernel.harvest a.worker.batch).1.forM Run.route >>= fun _ =>
        if a.worker.batch ≤ (a.kernel.harvest a.worker.batch).1.length then do
          return (← Run.harvestUpTo n) + (a.kernel.harvest a.worker.batch).1.length
        else return (a.kernel.harvest a.worker.batch).1.length : Run α Nat)
        { a with kernel := (a.kernel.harvest a.worker.batch).2, trace := .polled :: a.trace } := rfl
    rw [hrest]
    cases hbatched with
    | stumbles habsorbs hnext hstumbles =>
      rw [Run.bind_error hrun]
      exact .stumbles habsorbs hnext hstumbles
    | @all cs _ m₁ a₁ habsorbs htwins hall₁ hleast =>
      rw [Run.bind_run hrun]
      have hgrows := Blind.grows (.forM Blind.route _) hrun
      obtain ⟨more, hmore, -⟩ := hgrows.ready
      split
      · have hleft : k - a.worker.batch ≤ a₁.kernel.ready.length := by
          rw [hmore, List.length_append]
          show _ ≤ (a.kernel.ready.drop a.worker.batch).length + _
          rw [List.length_drop]
          omega
        have hothers := ih htwins hall₁ (by rw [hgrows.batch]; exact hbatch) hleft (by omega)
        exact .of_absorbs habsorbs hothers.answering (by omega)
      · exact .all habsorbs htwins hall₁ (by omega)

/-- So are those that a turn takes in. -/
theorem takes_takeIn (h : Twins [] m a) (hall : m.All (Muted Afloat) []) (hbatch : 0 < a.worker.batch) (block : Bool) :
    Takes m m.kernel.ready.length (Run.takeIn block a) := by
  obtain ⟨⟨⟩, a₁, harm, -⟩ := Regime.still_arm a
  obtain ⟨⟨⟩, a₂, hsubmit, -⟩ := Regime.still_submitQueue block a₁
  have hready := (h.arm harm).submitQueue hsubmit
  have hlength : m.kernel.ready.length = a₂.kernel.ready.length := congrArg List.length hready.ready
  have hrest : Run.takeIn block a = Run.harvest a₂ := (Run.bind_run harm).trans (Run.bind_run hsubmit)
  rw [hrest]
  refine hready.takes_harvestUpTo hall ?_ (Nat.le_of_eq hlength) (by omega)
  rw [← hready.worker, h.worker]
  exact hbatch

end Twins

end SlotServer
