import SlotServer.Proofs.Leases
import SlotServer.Proofs.Rows

/-!
# Every run is a scene

A worker over an arbitrary kernel does nothing to a slot but beats and calls, so what holds however these are
interleaved holds of every slot that a run of the worker comes to.

- `Staged`: a slot that a free one may become;
- `staged`: the regime of such slots, beside that of `wild`;
- `WildRun.staged`: every slot of every run is one.
-/

namespace SlotServer

variable {α β : Type} {R : Rely} {i : Nat} {v : View} {s : Slot}

/-- If there is such a slot, it is one that a free slot may become. -/
def Staged (i : Nat) (v : View) : Prop :=
  v.slot?.isSome → (Context.ofSlot i).slot = i ∧ ∃ s : Slot, s.state = .disconnected ∧ Comes i s [] v

namespace Staged

theorem of_slot (h : Staged i v) {v' : View} (hslot : v'.slot? = v.slot?) : Staged i v' := by
  intro hsome
  obtain ⟨hi, s, hfree, t, ht, hmay⟩ := h (hslot ▸ hsome)
  exact ⟨hi, s, hfree, t, hslot.trans ht, hmay⟩

/-- What is known of a program, and that it does to a slot only what may happen there. -/
theorem beside {S T : Rely} {x : Run α β} {Q : β → View → Prop} (hx : Leads R i x v Q) (h : Staged i v)
    (hcomes : (Context.ofSlot i).slot = i → ∀ s, Comes i s [] v → Leads S i x v fun _ v' => Comes i s [] v')
    (hothers : ∀ j v', T.others j v' → R.others j v' ∧ S.others j v')
    (hfaults : ∀ fault, R.faults fault → T.faults fault) :
    Leads T i x v fun b v' => Q b v' ∧ Staged i v' := by
  cases hs : v.slot? with
  | none =>
    have hrely : ∀ j v', T.others j v' → R.others j v' ∧ R.others j v' := fun j v' hv' =>
      ⟨(hothers j v' hv').1, (hothers j v' hv').1⟩
    refine (hx.and hx.present hrely hfaults).mono fun _ v' ⟨hq, _, hpresent⟩ => ⟨hq, fun hsome => ?_⟩
    rw [hpresent, hs] at hsome
    cases hsome
  | some t =>
    obtain ⟨hi, s, hfree, hbefore⟩ := h (by rw [hs]; rfl)
    exact (hx.and (hcomes hi s hbefore) hothers hfaults).mono fun _ _ ⟨hq, hafter⟩ =>
      ⟨hq, fun _ => ⟨hi, s, hfree, hafter⟩⟩

/-- The same of a program that does nothing, or one row of beats. -/
theorem handled {T : Rely} {x : Run α β} {Q : β → View → Prop} (hx : Leads R i x v Q) (h : Staged i v)
    (hhandles : (Context.ofSlot i).slot = i → Handles i x) (hothers : ∀ j v', T.others j v' → R.others j v')
    (hfaults : ∀ fault, R.faults fault → T.faults fault) : Leads T i x v fun b v' => Q b v' ∧ Staged i v' :=
  beside hx h (fun hi _ hcomes => (hhandles hi).comes hcomes) (fun j v' hv' => ⟨hothers j v' hv', trivial⟩) hfaults

end Staged

/-! ## All slots -/

section Turns

variable {serve : Run.Serve α} {m : Machine α}

/-- Every command that is carried out leaves every slot staged. -/
theorem executeUpTo_staged (hserve : Modest serve) {n : Nat} (h : m.All (fun i v => Afloat i v ∧ Staged i v) [])
    (hexited : m.worker.exited = false) :
    Holds (fun _ => False) (Run.executeUpTo serve n : Run α Nat) m fun _ m' =>
      m'.All (fun i v => Afloat i v ∧ Staged i v) [] := by
  induction n generalizing m with
  | zero => exact Holds.pure h
  | succ n ih =>
    refine Holds.bind (Holds.pop (fun _ => Holds.pure h) fun c inbox hinbox => Holds.bind ?_)
    obtain ⟨rest, hcommands, hslot, hframe⟩ := Machine.view_popped [] hinbox
    obtain ⟨rfl, s, htallied⟩ := (h c.slot).1.popped hcommands
    have hexecuted := (htallied.execute (R := ⟨Afloat, fun _ => False⟩) hserve rfl rfl hexited).fixed
    have hboth : Leads ⟨fun j v' => Afloat j v' ∧ Staged j v', fun _ => False⟩ c.slot (Run.execute serve c : Run α Unit)
        { m.view [] c.slot with commands := [] } _ :=
      Staged.beside hexecuted ((h c.slot).2.of_slot rfl)
        (fun hi _ hcomes => hcomes.execute hi hserve hexited rfl) (fun _ _ hv' => ⟨hv'.1, trivial⟩) fun _ => id
    refine Holds.lead [] (hslot ▸ hboth) (fun j hj => by rw [hframe j hj]; exact h j)
      fun _ m' ⟨⟨⟨hafloat', _⟩, hsame, _⟩, hstaged'⟩ hframe' => ?_
    refine Holds.bind ((ih (fun j => ?_) (hsame.trans hexited)).mono fun _ _ h' => Holds.pure h')
    by_cases hj : j = c.slot
    · rw [hj]
      exact ⟨.inl hafloat', hstaged'⟩
    · rw [hframe' j hj, hframe j hj]
      exact h j

end Turns

/-- Slots over an arbitrary kernel, and that they are staged. -/
def staged {serve : Run.Serve α} (hserve : Modest serve) : Regime serve where
  rest i v := Moored i v ∧ Staged i v
  busy i v := Afloat i v ∧ Staged i v
  ebb i v := Afloat i v ∧ Staged i v
  faults _ := False
  startAccept {i v fd peer} h hplaces hfd := by
    have hothers : ∀ j v', Moored j v' ∧ v'.exited = v.exited → v.exited = true → v'.commands = [] :=
      fun _ _ hother hexited => hother.1.commands_nil (hother.2.trans hexited)
    let S : Rely := ⟨fun j v' => v.exited = true → v'.commands = [], fun _ => True⟩
    have hcomes : ∀ s, Comes i s [] { v with places := v.places - 1 } →
        Leads S i (Run.startAccept i fd peer : Run α (Except Error Unit)) { v with places := v.places - 1 }
          fun _ v' => Comes i s [] v' := fun s hcomes =>
      have hquiet : v.exited = true → v.commands = [] ∧ ∀ j v', S.others j v' → v'.commands = [] := fun hexited =>
        ⟨h.1.commands_nil hexited, fun _ _ hv' => hv' hexited⟩
      hcomes.startAccept hquiet (fun _ => trivial) fd peer
    exact Staged.beside ((wild hserve).startAccept h.1 hplaces hfd) (h.2.of_slot rfl) (fun _ => hcomes)
      (fun j v' hv' => ⟨⟨hv'.1.1, hv'.2⟩, hothers j v' ⟨hv'.1.1, hv'.2⟩⟩) fun _ => id
  deed {i v} d h hheld := by
    refine Staged.beside (S := .any) ((wild hserve).deed d h.1 hheld) h.2 (fun _ s hcomes => ?_)
      (fun _ _ hv' => ⟨⟨hv'.1.1, hv'.2⟩, trivial⟩) fun _ => id
    rcases h.1 with ⟨s', hsettled⟩ | hmissing
    · refine hcomes.deed (fun t ht hlive => hsettled.exited_of_live ?_) d
      obtain rfl : t = s' := Option.some.inj (ht.symm.trans hsettled.here)
      exact hlive
    · exact absurd hmissing.handles (Nat.ne_of_gt hheld)
  drainSlot h hexited := Staged.handled ((wild hserve).drainSlot h.1 hexited) h.2 Handles.drainSlot
    (fun _ _ hv' => ⟨hv'.1.1, hv'.2⟩) fun _ => id
  work h hexited := ⟨(wild hserve).work h.1 hexited, h.2⟩
  route h hexited hc hslot := Staged.handled ((wild hserve).route h.1 hexited hc hslot) (h.2.of_slot rfl)
    (fun hi => .route hi hslot) (fun _ _ hv' => hv'.1) fun _ => id
  drainInbox {m} h hexited := by
    have hmoored := (wild hserve).drainInbox (m := m) (fun i => (h i).1) hexited
    have hstaged : Holds (fun _ => False) (Run.drainInbox serve : Run α Nat) m fun _ m' =>
        m'.All (fun i v => Afloat i v ∧ Staged i v) [] :=
      Holds.bind (Holds.worker (executeUpTo_staged hserve h hexited))
    exact (hmoored.and hstaged).mono fun _ _ hdone i => ⟨hdone.1 i, (hdone.2 i).2⟩
  exit h hexited := ⟨(wild hserve).exit h.1 hexited, h.2.of_slot rfl⟩
  failCommand h hexited hc hslot := by
    have hfailed := Staged.handled ((wild hserve).failCommand h.1 hexited hc hslot) (h.2.of_slot rfl)
      (T := ⟨fun i v => Afloat i v ∧ Staged i v, fun _ => False⟩) (fun _ => .failCommand hslot) (fun _ _ hv' => hv'.1)
      fun _ => id
    exact hfailed.mono fun _ _ ⟨⟨hafloat, hsame⟩, hstaged⟩ => ⟨⟨hafloat, hstaged⟩, hsame⟩
  forceSlot h hexited hcommands hsome := by
    refine Staged.handled ((wild hserve).forceSlot h.1 hexited hcommands hsome) (h.2.of_slot rfl) (fun _ => .forceSlot)
      (fun j v' hv' => ?_) fun _ => id
    exact hv'.imp And.left fun ⟨w, hw, hlog⟩ => ⟨w, hw.1, hlog⟩
  absent h hexited hcommands hnone := ⟨(wild hserve).absent h.1 hexited hcommands hnone, h.2.of_slot rfl⟩

/-! ## Runs -/

namespace Staged

variable {serve : Run.Serve α} {m m' : Machine α}

/-- A worker that was just built has free slots. -/
theorem of_starts (h : m.Starts) : m.All Staged [] := by
  intro i hsome
  obtain ⟨s, hs⟩ := Option.isSome_iff_exists.1 hsome
  have hsettled := (Moored.of_starts h).settled hs
  have hstate : s.state = .disconnected := by
    rw [(h.new.slots i s hs).1]
  exact ⟨hsettled.slot_ofSlot, s, hstate, s, hs, hsettled.index, .refl s []⟩

theorem step (hserve : Modest serve) (h : m.All (fun i v => Moored i v ∧ Staged i v) []) (hstep : WildStep serve m m') :
    m'.All (fun i v => Moored i v ∧ Staged i v) [] := by
  cases hstep with
  | move move hwhole hallowed hrun => exact ((staged hserve).move h hwhole hallowed).of_ok hrun
  | around kernel app hready =>
    have haround : ({ m with kernel, app } : Machine α).All Moored [] := Moored.around (fun i => (h i).1) hready
    exact fun i => ⟨haround i, (h i).2.of_slot rfl⟩

end Staged

/-- Whatever a worker is made to do over an arbitrary kernel, beats and calls bring a slot from a free one to what it
becomes. -/
theorem WildRun.staged {serve : Run.Serve α} {m : Machine α} (hserve : Modest serve) (h : WildRun serve m)
    (hs : m.worker.slots[i]? = some s) : ∃ (s₀ : Slot) (log : List Note), s₀.state = .disconnected ∧
      Scene.Reaches s₀ ⟨s, [], log⟩ := by
  have hall : m.All (fun i v => Moored i v ∧ Staged i v) [] :=
    Reached.keeps h (fun _ hstart i => ⟨Moored.of_starts hstart i, Staged.of_starts hstart i⟩) fun _ _ =>
      Staged.step hserve
  have hsome : (m.view [] i).slot?.isSome := by
    rw [show (m.view [] i).slot? = some s from hs]
    rfl
  obtain ⟨-, s₀, hfree, t, ht, -, hmay⟩ := (hall i).2 hsome
  obtain rfl : s = t := Option.some.inj (hs.symm.trans ht)
  obtain ⟨log, hsteps⟩ := hmay []
  exact ⟨s₀, log, hfree, hsteps⟩

end SlotServer
