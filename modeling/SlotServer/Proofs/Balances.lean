import Mathlib.Data.List.Nodup
import SlotServer.Proofs.Courses

/-!
# What turns keep of a slot

Each of these is about one slot and about all that is to be done for it yet, by whichever party, and each is kept by
every turn.

- `Attended`: commands are taken out of the inbox in the order in which they were put in, and as long as one is left
  after the loop's end, some party looks after the inbox;
- `Placed`: a context names the slot truly as long as there is something to name;
- `Clearing`: a slot that was forced free and got another socket is given up by whoever bound it;
- `Resolving`: an operation that is under way has its cell open, and one that was failed has one party that will
  complete it;
- `Tied`: descriptors are bound and let go in turns, and so are the leases of sockets.
-/

namespace SlotServer

namespace SlotState

/-- The connection is open for its handle. -/
def isLive : SlotState → Bool
  | .accepted | .receiving | .received | .sending | .sent => true
  | .disconnected | .accepting | .disconnecting => false

theorem isLive_of_isIdle {state : SlotState} (h : state.isIdle = true) : state.isLive = true := by
  cases state <;> cases h <;> rfl

theorem isLive_of_works {state : SlotState} {half : Half} (h : state.works half = true) : state.isLive = true := by
  cases state <;> cases half <;> cases h <;> rfl

@[simp] theorem leases_disconnected : disconnected.leases = 0 := rfl

end SlotState

theorem Half.isLive_working (half : Half) : half.working.isLive = true := by
  cases half <;> rfl

namespace Spot

/-- The state of the slot. One that is not there is free. -/
def state (p : Spot) : SlotState := p.slot?.elim .disconnected (·.state)

/-- The descriptor of the slot, unless it is free. -/
def fd? (p : Spot) : Option Int := if p.state = .disconnected then none else p.slot?.map (·.fd)

/-- The slot's cell for a half is not completed. -/
def isOpen (p : Spot) (half : Half) : Bool := p.slot?.any fun s => (Connection.cell s half).phase ≠ .completed

variable {p : Spot} {s : Slot}

@[simp] theorem slot?_put : (p.put s).slot? = some s := rfl

@[simp] theorem commands_put : (p.put s).commands = p.commands := rfl

@[simp] theorem handles_put : (p.put s).handles = p.handles := rfl

@[simp] theorem places_put : (p.put s).places = p.places := rfl

theorem state_def (p : Spot) : p.state = p.slot?.elim .disconnected (·.state) := rfl

theorem state_none (hs : p.slot? = none) : p.state = .disconnected := by
  rw [state_def, hs]
  rfl

theorem state_eq (hs : p.slot? = some s) : p.state = s.state := by
  rw [state_def, hs]
  rfl

theorem fd?_eq (hs : p.slot? = some s) : p.fd? = if s.state = .disconnected then none else some s.fd := by
  rw [fd?, state_eq hs, hs]
  rfl

theorem isOpen_def (p : Spot) (half : Half) :
    p.isOpen half = p.slot?.any fun s => decide ((Connection.cell s half).phase ≠ .completed) := rfl

theorem isOpen_eq (hs : p.slot? = some s) (half : Half) :
    p.isOpen half = decide ((Connection.cell s half).phase ≠ .completed) := by
  rw [isOpen_def, hs]
  rfl

/-- A slot whose cell is as it was. -/
theorem isOpen_congr {p' : Spot} {s' : Slot} {half : Half} (hs : p.slot? = some s) (hs' : p'.slot? = some s')
    (hcell : Connection.cell s' half = Connection.cell s half) : p'.isOpen half = p.isOpen half := by
  rw [isOpen_eq hs, isOpen_eq hs', hcell]

end Spot

section Turns

variable {i : Nat} {p p' : Spot} {duty duty' rest : Duty → Nat} {log marks : List Mark} {a : Act} {more : List Act}

/-! ## The inbox -/

/-- The commands of a slot are taken out in the order in which they were put in, and they are looked after. -/
structure Attended (i : Nat) (before : List Command) (p : Spot) (duty : Duty → Nat) (log : List Mark) : Prop where
  order : poppedOf i log ++ p.commands = before ++ pushedOf i log
  swept : p.exited = true → p.commands ≠ [] → 0 < duty .sweep
  ending : p.exited = false → 0 < duty .exit

/-- A command that is under way accepts or closes, and does nothing else for a slot. -/
@[simp] theorem Command.counts_other {c : Command} {d : Duty} (haccept : d ≠ .accept) (hclose : d ≠ .disconnect) :
    c.counts i d = 0 := by
  cases c with
  | accept j => exact if_neg fun h => haccept h.1
  | disconnect j => exact if_neg fun h => hclose h.1
  | receive | send => rfl

/-- Only the command of a slot's socket counts for it. -/
theorem Command.counts_accept_eq {c : Command} : c.counts i .accept = if c = .accept i then 1 else 0 := by
  cases c <;> simp [Command.counts]

/-- Only the command of a slot's close counts for it. -/
theorem Command.counts_disconnect_eq {c : Command} :
    c.counts i .disconnect = if c = .disconnect i then 1 else 0 := by
  cases c <;> simp [Command.counts]

/-- The acts of one slot neither look after the inbox nor end the loop. -/
theorem Act.Of.counts (h : a.Of i) : a.counts i .sweep = 0 ∧ a.counts i .exit = 0 ∧ a.counts i .force = 0 := by
  cases h <;> simp

/-- A slot that is forced free lets go of its socket, one way or the other. -/
theorem kind_forced (q : Prop) [Decidable q] (fd : Int) :
    (if q then Mark.spared i fd else .closed i fd).kind = .socket := by
  split <;> rfl

namespace Attended

variable {before : List Command}

/-- Nothing of the inbox changed. -/
theorem congr (h : Attended i before p duty log) (hcommands : p'.commands = p.commands) (hexited : p'.exited = p.exited)
    (hmarks : ∀ e ∈ marks, e.slot ≠ i ∨ e.kind ≠ .inbox) (hsweep : duty .sweep ≤ duty' .sweep)
    (hexit : duty' .exit = duty .exit) : Attended i before p' duty' (marks ++ log) where
  order := by
    rw [pushedOf_append hmarks, poppedOf_append hmarks, hcommands]
    exact h.order
  swept he hc := Nat.lt_of_lt_of_le (h.swept (hexited ▸ he) (hcommands ▸ hc)) hsweep
  ending he := hexit ▸ h.ending (hexited ▸ he)

theorem turn (h : Attended i before p (fun duty => a.counts i duty + rest duty) log)
    (hturn : Turn i a p more marks p') :
    Attended i before p' (fun duty => duties i more duty + rest duty) (marks ++ log) := by
  cases hturn with
  | aloof haloof =>
    refine h.congr rfl rfl (fun e he => .inl (haloof.marks e he)) ?_ ?_
    · exact Nat.add_le_add_right haloof.sweep _
    · exact congrArg (· + rest .exit) (haloof.counts .exit nofun)
  | looked hexited => exact ⟨h.order, fun he => absurd (hexited.symm.trans he) Bool.false_ne_true, h.ending⟩
  | emptied hnone => exact ⟨h.order, fun _ hc => absurd hnone hc, h.ending⟩
  | exited => exact ⟨h.order, fun _ _ => Nat.pos_of_ne_zero (by simp), nofun⟩
  | retracted => exact h.congr rfl rfl nofun (Nat.le_refl _) rfl
  | deal hdeal =>
    cases hdeal with
    | absent hnone ha => exact h.congr rfl rfl nofun (by simp [ha.counts]) (by simp [ha.counts])
    | @pushed c p hc =>
      refine ⟨?_, fun _ _ => ?_, fun he => ?_⟩
      · show poppedOf i log ++ (p.commands ++ [c]) = _
        rw [← List.append_assoc, h.order]
        simp [pushedOf_pushed hc]
      · exact Nat.pos_of_ne_zero (by simp)
      · simpa using h.ending he
    | @popped c others p hc hcommands =>
      refine ⟨?_, fun _ _ => ?_, fun he => ?_⟩
      · have horder := h.order
        rw [hcommands] at horder
        have hpushed : pushedOf i ([.popped c] ++ log) = pushedOf i log := rfl
        rw [hpushed, ← horder]
        simp [poppedOf_popped hc]
      · exact Nat.pos_of_ne_zero (by simp)
      · simpa using h.ending he
    | forced => exact h.congr rfl rfl (by simp [kind_forced]; simp [Mark.kind]) (by simp) (by simp)
    | _ => exact h.congr rfl rfl (by simp [Mark.kind]) (by simp) (by simp)

end Attended

/-! ## Places -/

/-- A context names the slot truly as long as there is something to name. -/
structure Placed (i : Nat) (p : Spot) (duty : Duty → Nat) : Prop where
  index : ∀ s, p.slot? = some s → s.index = low32 i
  small : p.slot?.isSome = true →
    p.state ≠ .disconnected ∨ 0 < p.places ∨ 0 < p.handles ∨ 0 < duty .bind ∨ 0 < duty .release → i < 0x100000000

/-- No turn gives a slot another number. -/
theorem Turn.index (hturn : Turn i a p more marks p') : p'.slot?.map (·.index) = p.slot?.map (·.index) := by
  cases hturn with
  | deal hdeal =>
    cases hdeal with
    | polled hs | completed hs | forcedHalf hs =>
      rw [hs]
      cases ‹Half› <;> rfl
    | began hs => simp [hs]
    | _ => simp [*] <;> rfl
  | _ => rfl

namespace Placed

theorem turn (h : Placed i p (fun duty => a.counts i duty + rest duty)) (hturn : Turn i a p more marks p') :
    Placed i p' (fun duty => duties i more duty + rest duty) := by
  have hsame := hturn.index
  refine ⟨fun s hs => ?_, fun hhere hsome => h.small ?_ ?_⟩
  · rw [hs] at hsame
    obtain ⟨s₁, hs₁, hindex⟩ := Option.map_eq_some_iff.1 hsame.symm
    exact hindex.symm.trans (h.index s₁ hs₁)
  · rw [← Option.isSome_map (f := (·.index)), ← hsame, Option.isSome_map]
    exact hhere
  cases hturn with
  | aloof haloof => rwa [haloof.counts .bind nofun, haloof.counts .release nofun] at hsome
  | looked | emptied | exited | retracted => simpa [Spot.state_def] using hsome
  | deal hdeal =>
    cases hdeal with
    | began hs hstart =>
      refine .inl ?_
      rw [Spot.state_eq hs]
      exact SlotState.ne_disconnected_of_isIdle (Slot.isIdle_of_startsFrom hstart)
    | disconnecting hs hidle => exact .inl (Spot.state_eq hs ▸ SlotState.ne_disconnected_of_isIdle hidle)
    | failedHalf hs hstate | forcedHalf hs hstate =>
      refine .inl ?_
      rw [Spot.state_eq hs, hstate]
      exact Half.working_ne_disconnected _
    | _ =>
      simp [Spot.state_def, *] at hsome ⊢
      try omega

end Placed

/-! ## What is forced free -/

/-- A slot that was forced free and got another socket is given up by whoever bound it. -/
structure Clearing (i : Nat) (p : Spot) (duty : Duty → Nat) : Prop where
  load : duty .force ≤ 1
  forced : duty .force = 0 → p.state.isLive = false
  accepting : duty .force = 0 → p.state = .accepting → .accept i ∈ p.commands ∨ 0 < duty .accept
  closing : duty .force = 0 → p.state = .disconnecting → 0 < duty .close

namespace Clearing

/-- The state is the same, and what is to be done for it. -/
theorem congr (h : Clearing i p duty) (hstate : p'.state = p.state) (hforce : duty' .force = duty .force)
    (haccept : p.state = .accepting → .accept i ∈ p.commands ∨ 0 < duty .accept →
      .accept i ∈ p'.commands ∨ 0 < duty' .accept)
    (hclose : p.state = .disconnecting → 0 < duty .close → 0 < duty' .close) : Clearing i p' duty' where
  load := hforce ▸ h.load
  forced hf := hstate ▸ h.forced (hforce ▸ hf)
  accepting hf hs := haccept (hstate ▸ hs) (h.accepting (hforce ▸ hf) (hstate ▸ hs))
  closing hf hs := hclose (hstate ▸ hs) (h.closing (hforce ▸ hf) (hstate ▸ hs))

/-- The slot is free, or has yet to be forced free. -/
theorem of_free (hload : duty .force ≤ 1) (hfree : duty .force = 0 → p.state = .disconnected) : Clearing i p duty where
  load := hload
  forced hf := by rw [hfree hf]; rfl
  accepting hf hs := by rw [hfree hf] at hs; cases hs
  closing hf hs := by rw [hfree hf] at hs; cases hs

/-- The slot has yet to be forced free. -/
theorem of_yet (hload : duty .force ≤ 1) (hyet : duty .force ≠ 0) : Clearing i p duty where
  load := hload
  forced hf := absurd hf hyet
  accepting hf := absurd hf hyet
  closing hf := absurd hf hyet

theorem yet (h : Clearing i p duty) (hlive : p.state.isLive = true) : duty .force ≠ 0 := fun hf => by
  rw [h.forced hf] at hlive
  cases hlive

theorem turn (h : Clearing i p (fun duty => a.counts i duty + rest duty)) (hturn : Turn i a p more marks p') :
    Clearing i p' (fun duty => duties i more duty + rest duty) := by
  have hload := h.load
  cases hturn with
  | aloof haloof => exact h.congr rfl (by simp [haloof.counts]) (by simp [haloof.counts]) (by simp [haloof.counts])
  | looked | emptied | exited =>
    exact h.congr rfl (by simp) (by simp) (by simp)
  | @retracted p n hslot =>
    by_cases hi : i < n
    · have hone : (List.range n).count i = 1 := List.count_eq_one_of_mem List.nodup_range (List.mem_range.2 hi)
      exact h.congr rfl (by simp [hone]) (by simp) (by simp)
    · have hnone : (List.range n).count i = 0 := List.count_eq_zero.2 fun hmem => hi (List.mem_range.1 hmem)
      rw [decide_eq_false hi, Option.isSome_eq_false_iff, Option.isNone_iff_eq_none] at hslot
      refine of_free ?_ fun _ => Spot.state_none hslot
      simp [hnone] at hload ⊢
      omega
  | deal hdeal =>
    cases hdeal with
    | absent hnone ha hfew =>
      refine of_free ?_ fun _ => Spot.state_none hnone
      simp at hload ⊢
      omega
    | bound hs hstate =>
      exact ⟨by simpa using hload, fun _ => rfl,
        fun _ _ => .inr (Nat.add_pos_left (by simp) _), fun _ hclosing => nomatch hclosing⟩
    | began hs hstart =>
      have hyet := h.yet (by rw [Spot.state_eq hs]; exact SlotState.isLive_of_isIdle (Slot.isIdle_of_startsFrom hstart))
      exact of_yet (by simpa using hload) (by simpa using hyet)
    | disconnecting hs hidle =>
      have hyet := h.yet (by rw [Spot.state_eq hs]; exact SlotState.isLive_of_isIdle hidle)
      exact of_yet (by simpa using hload) (by simpa using hyet)
    | failedHalf hs hstate =>
      have hyet := h.yet (by rw [Spot.state_eq hs, hstate]; exact Half.isLive_working _)
      exact of_yet (by simpa using hload) (by simpa using hyet)
    | failedAccept hs hstate =>
      exact ⟨by simpa using hload, fun _ => rfl, fun _ haccepting => (nomatch haccepting),
        fun _ _ => Nat.add_pos_left (by simp) _⟩
    | spentAccept hs hstate =>
      refine h.congr rfl (by simp) (fun haccepting => ?_) (by simp)
      exact absurd (Spot.state_eq hs ▸ haccepting) hstate
    | failedDisconnect =>
      exact h.congr rfl (by simp) (by simp) fun _ _ =>
        Nat.add_pos_left (by simp) _
    | unclosed hs hstate =>
      refine h.congr rfl (by simp) (by simp) fun hclosing => ?_
      exact absurd (Spot.state_eq hs ▸ hclosing) hstate
    | closed hs hstate => exact of_free (by simpa using hload) fun _ => rfl
    | forced =>
      refine of_free ?_ fun _ => rfl
      simp at hload ⊢
      omega
    | @forcedHalf half =>
      refine of_free ?_ fun _ => by cases half <;> rfl
      simp at hload ⊢
      omega
    | unforced hfree =>
      refine of_free ?_ fun _ => ?_
      · simp at hload ⊢
        omega
      cases hs : p.slot? with
      | none => exact Spot.state_none hs
      | some s => rw [Spot.state_eq hs, hfree s hs]
    | @pushed c p hc =>
      refine h.congr rfl (by simp) (fun _ haccept => ?_) (by simp)
      have hcounts : (Act.push c).counts i .accept = if c = .accept i then 1 else 0 := Command.counts_accept_eq
      by_cases hsame : c = .accept i
      · exact .inl (List.mem_append_right _ (List.mem_singleton.2 hsame.symm))
      · simp only [hcounts, if_neg hsame] at haccept
        exact haccept.imp_left (List.mem_append_left _)
    | @popped c others p hc hcommands =>
      refine h.congr rfl (by simp) (fun _ haccept => ?_) (by simp)
      simp [hcommands] at haccept ⊢
      rcases haccept with (hsame | hmem) | hrest
      · rw [Command.counts_accept_eq, if_pos hsame.symm]
        omega
      · exact .inl hmem
      · omega
    | left hs => exact h.congr (Spot.state_eq hs).symm (by simp) (by simp) (by simp)
    | _ =>
      exact h.congr (by simp [Spot.state_def, *]) (by simp) (by simp [*]) (by simp [*])

end Clearing

/-! ## Operations -/

/-- An operation of the half is under way, or was failed and has its cell to be completed yet. -/
def Spot.Owes (p : Spot) (duty : Duty → Nat) (half : Half) : Prop :=
  p.state.works half = true ∨ 0 < duty (.complete half)

theorem Spot.owes_def (p : Spot) (duty : Duty → Nat) (half : Half) :
    p.Owes duty half ↔ p.state.works half = true ∨ 0 < duty (.complete half) := .rfl

instance (half : Half) : Decidable (p.Owes duty half) := inferInstanceAs (Decidable (_ ∨ _))

/-- An operation that has not ended has its cell open, and one party that will complete it. All others that began have
their cells completed. -/
structure Resolving (i : Nat) (init : Half → Option Unit) (p : Spot) (duty : Duty → Nat) (log : List Mark) : Prop where
  alone : p.state.isLive = true → ∀ half, duty (.complete half) = 0
  once : ∀ half, duty (.complete half) ≤ 1
  cells : ∀ half, p.Owes duty half → p.isOpen half = true
  resolved : ∀ half, init half ≠ none ∨ .began ⟨i, half⟩ ∈ log → ¬ p.Owes duty half → p.isOpen half = false
  operations : ∀ half,
    (operation ⟨i, half⟩).after (init half) log = some (if p.Owes duty half then some () else none)

section Operations

variable {half other : Half} {init : Option Unit}

theorem operation_began (h : (operation ⟨i, half⟩).after init log = some none) :
    (operation ⟨i, half⟩).after init (.began ⟨i, half⟩ :: log) = some (some ()) :=
  Course.after_opens (by simp [operation]) h

theorem operation_completed (h : (operation ⟨i, half⟩).after init log = some (some ())) :
    (operation ⟨i, half⟩).after init (.completed ⟨i, half⟩ :: log) = some none :=
  Course.after_closes rfl (by simp [operation]) h

theorem operation_began_of_ne (hne : other ≠ half) :
    (operation ⟨i, other⟩).after init (.began ⟨i, half⟩ :: log) = (operation ⟨i, other⟩).after init log :=
  Course.after_other (by simp [operation, hne.symm]) rfl

theorem operation_completed_of_ne (hne : other ≠ half) :
    (operation ⟨i, other⟩).after init (.completed ⟨i, half⟩ :: log) = (operation ⟨i, other⟩).after init log :=
  Course.after_other rfl (by simp [operation, hne.symm])

end Operations

namespace Resolving

variable {init : Half → Option Unit}

/-- The same operations are to end yet. -/
theorem congr (h : Resolving i init p duty log) (howes : ∀ half, p'.Owes duty' half ↔ p.Owes duty half)
    (halone : p'.state.isLive = true → ∀ half, duty' (.complete half) = 0)
    (honce : ∀ half, duty' (.complete half) ≤ 1) (hopen : ∀ half, p'.isOpen half = p.isOpen half)
    (hmarks : ∀ e ∈ marks, e.slot ≠ i ∨ e.kind ≠ .operation) : Resolving i init p' duty' (marks ++ log) where
  alone := halone
  once := honce
  cells half ho := (hopen half).trans (h.cells half ((howes half).1 ho))
  resolved half hbegan ho := by
    refine (hopen half).trans (h.resolved half (hbegan.imp_right fun hmem => ?_) fun ho' => ho ((howes half).2 ho'))
    exact (List.mem_append.1 hmem).resolve_left fun hmem => (hmarks _ hmem).elim (fun hne => hne rfl) fun hne => hne rfl
  operations half := by
    rw [operation_append hmarks, h.operations]
    simp only [howes]

/-- What is under way is the same, and what was failed. -/
theorem same (h : Resolving i init p duty log) (hworks : p'.state.works = p.state.works)
    (hlive : p'.state.isLive = true → p.state.isLive = true)
    (hduty : ∀ half, duty' (.complete half) = duty (.complete half)) (hopen : ∀ half, p'.isOpen half = p.isOpen half)
    (hmarks : ∀ e ∈ marks, e.slot ≠ i ∨ e.kind ≠ .operation) : Resolving i init p' duty' (marks ++ log) :=
  h.congr (fun half => by rw [Spot.Owes, Spot.owes_def, hworks, hduty])
    (fun hs half => by rw [hduty]; exact h.alone (hlive hs) half) (fun half => by rw [hduty]; exact h.once half)
    hopen hmarks

/-- An operation that is under way is all that is owed. -/
theorem owes_working (h : Resolving i init p duty log) (half : Half) (hworks : p.state.works half = true)
    (other : Half) : duty (.complete other) = 0 ∧ (p.Owes duty other ↔ other = half) := by
  have hzero := h.alone (SlotState.isLive_of_works hworks) other
  refine ⟨hzero, ?_⟩
  rw [Spot.owes_def, hzero, Half.works_iff.1 hworks, Half.works_working]
  simp

/-- Nothing is owed of an idle connection. -/
theorem owes_idle (h : Resolving i init p duty log) (hidle : p.state.isIdle = true) (other : Half) :
    duty (.complete other) = 0 ∧ ¬ p.Owes duty other := by
  have hzero := h.alone (SlotState.isLive_of_isIdle hidle) other
  refine ⟨hzero, ?_⟩
  rw [Spot.owes_def, hzero, SlotState.works_of_isIdle hidle]
  simp

/-- Once a cell is completed nothing is owed of it any more. Of the other one, everything is as it was. -/
theorem complete (h : Resolving i init p duty log) (marks : List Mark) {half : Half} (howed : p.Owes duty half)
    (howes : ∀ other, p'.Owes duty' other ↔ other ≠ half ∧ p.Owes duty other)
    (halone : p'.state.isLive = true → ∀ other, duty' (.complete other) = 0)
    (honce : ∀ other, duty' (.complete other) ≤ 1) (hopen : ∀ other, other ≠ half → p'.isOpen other = p.isOpen other)
    (hdone : p'.isOpen half = false) (hmarks : ∀ e ∈ marks, e.slot ≠ i ∨ e.kind ≠ .operation) :
    Resolving i init p' duty' (marks ++ .completed ⟨i, half⟩ :: log) where
  alone := halone
  once := honce
  cells other ho := by
    obtain ⟨hne, ho⟩ := (howes other).1 ho
    exact (hopen other hne).trans (h.cells other ho)
  resolved other hbegan ho := by
    by_cases hsame : other = half
    · rw [hsame]
      exact hdone
    rw [hopen other hsame]
    refine h.resolved other (hbegan.imp_right fun hmem => ?_) fun ho' => ho ((howes other).2 ⟨hsame, ho'⟩)
    have hmem := (List.mem_append.1 hmem).resolve_left fun hmem =>
      (hmarks _ hmem).elim (fun hne => hne rfl) fun hne => hne rfl
    exact (List.mem_cons.1 hmem).resolve_left nofun
  operations other := by
    rw [operation_append hmarks]
    by_cases hsame : other = half
    · subst hsame
      rw [if_neg fun ho => ((howes other).1 ho).1 rfl]
      exact operation_completed ((h.operations other).trans (by rw [if_pos howed]))
    · simp only [howes, hsame, ne_eq, not_false_eq_true, true_and]
      exact (operation_completed_of_ne hsame).trans (h.operations other)

theorem turn (h : Resolving i init p (fun duty => a.counts i duty + rest duty) log) (hturn : Turn i a p more marks p') :
    Resolving i init p' (fun duty => duties i more duty + rest duty) (marks ++ log) := by
  cases hturn with
  | aloof haloof =>
    exact h.same rfl id (fun half => by simp [haloof.counts]) (fun _ => rfl) fun e he => .inl (haloof.marks e he)
  | looked | emptied | exited | retracted =>
    exact h.same rfl id (fun half => by simp) (fun _ => rfl) (List.forall_mem_nil _)
  | deal hdeal =>
    cases hdeal with
    | absent hnone ha hfew =>
      have hzero : ∀ half, ¬ p.Owes _ half := fun half ho => by
        have hopen := h.cells half ho
        rw [Spot.isOpen_def, hnone] at hopen
        cases hopen
      have hcomplete : ∀ half, rest (.complete half) = 0 := fun half => Nat.eq_zero_of_not_pos fun hpos =>
        hzero half (.inr (Nat.lt_of_lt_of_le hpos (Nat.le_add_left ..)))
      refine h.congr (fun half => iff_of_false (fun ho => hzero half (ho.imp_right fun hpos => ?_)) (hzero half))
        (fun _ half => ?_) (fun half => ?_) (fun _ => rfl) (List.forall_mem_nil _)
      · exact Nat.lt_of_lt_of_le hpos (by simp)
      · simpa using hcomplete half
      · simp [hcomplete half]
    | @began half length p s hs hstart =>
      have hidle := Slot.isIdle_of_startsFrom hstart
      have hbefore := h.owes_idle (by rw [Spot.state_eq hs]; exact hidle)
      have hnone : ∀ other, rest (.complete other) = 0 := fun other => by simpa using (hbefore other).1
      have howes : ∀ other, (p.put (s.begin length half)).Owes
          (fun duty => duties i [.push (half.command i)] duty + rest duty) other ↔ other = half := fun other => by
        simp [Spot.owes_def, Spot.state_def, hnone, Half.works_working]
      have hfree : ∀ other, (operation ⟨i, other⟩).after (init other) log = some none := fun other =>
        (h.operations other).trans (by rw [if_neg (hbefore other).2])
      refine ⟨fun _ other => by simp [hnone], fun other => by simp [hnone], fun other ho => ?_,
        fun other hbegan ho => ?_, fun other => ?_⟩
      · obtain rfl := (howes other).1 ho
        simp [Spot.isOpen_def, Slot.cell_begin_self]
      · have hne : other ≠ half := fun hsame => ho ((howes other).2 hsame)
        have hresolved := h.resolved other (hbegan.imp_right fun hmem => ?_) (hbefore other).2
        · exact (Spot.isOpen_congr hs rfl (Slot.cell_begin_of_ne s length hne)).trans hresolved
        · refine (List.mem_cons.1 hmem).resolve_left fun hsame => hne ?_
          cases hsame
          rfl
      · simp only [howes]
        by_cases hsame : other = half
        · subst hsame
          rw [if_pos rfl]
          exact operation_began (hfree other)
        · rw [if_neg hsame]
          exact (operation_began_of_ne hsame).trans (hfree other)
    | @failedHalf half p s n hs hstate =>
      -- what was under way is from now on to be completed
      have hbefore := h.owes_working half (by rw [Spot.state_eq hs, hstate]; exact half.works_self)
      have hnone : ∀ other, rest (.complete other) = 0 := fun other => by simpa using (hbefore other).1
      have hone : ∀ other, duties i [.close i, .complete i half] (.complete other) + rest (.complete other) =
          if other = half then 1 else 0 := fun other => by simp [hnone]
      refine h.congr (fun other => ?_) (fun hlive => by cases hlive) (fun other => ?_) (fun other => ?_)
        (List.forall_mem_nil _)
      · rw [(hbefore other).2, Spot.owes_def, hone]
        by_cases hsame : other = half <;> simp [Spot.state_def, SlotState.works, hsame]
      · rw [hone]
        split <;> omega
      · exact Spot.isOpen_congr hs rfl (by cases other <;> rfl)
    | @completed half p s c hs hphase =>
      -- while a completion is to be made the slot is not live, so that it is all that is owed
      have howed : p.Owes (fun duty => (Act.complete i half).counts i duty + rest duty) half :=
        .inr (Nat.add_pos_left (by simp) _)
      have hother : ∀ other, other ≠ half → (Act.complete i half).counts i (.complete other) = 0 := fun other hne => by
        simp [hne]
      have hrest : rest (.complete half) = 0 := by
        have honce := h.once half
        simp at honce
        omega
      have hstate : (p.put (Connection.setCell s c half)).state = p.state := by
        rw [Spot.state_eq hs]
        exact Slot.state_setCell ..
      have hdead : p.state.isLive = false := Bool.eq_false_iff.2 fun hlive => by
        have hzero := h.alone hlive half
        simp at hzero
      have hworks : ∀ other, p.state.works other = false := fun other => Bool.eq_false_iff.2 fun hworks => by
        rw [SlotState.isLive_of_works hworks] at hdead
        cases hdead
      refine h.complete [] howed (fun other => ?_) (fun hlive => ?_) (fun other => ?_) (fun other hne => ?_)
        ?_ (List.forall_mem_nil _)
      · by_cases hsame : other = half
        · simp [Spot.owes_def, hstate, hworks, hsame, hrest]
        · simp [Spot.owes_def, hstate, hworks, hsame]
      · rw [hstate, hdead] at hlive
        cases hlive
      · exact Nat.le_trans (Nat.add_le_add_right (Nat.zero_le _) _) (h.once other)
      · exact Spot.isOpen_congr hs rfl (Slot.cell_setCell_of_ne s c hne)
      · rw [Spot.isOpen_eq rfl, Slot.cell_setCell_self, hphase]
        rfl
    | @forcedHalf half left forced forced' p s c places hs hstate hphase =>
      have hbefore := h.owes_working half (by rw [Spot.state_eq hs, hstate]; exact half.works_self)
      have hnone : ∀ other, rest (.complete other) = 0 := fun other => by simpa using (hbefore other).1
      refine h.complete [.freed i, .closed i s.fd] ((hbefore half).2.2 rfl) (fun other => ?_)
        (fun _ other => by simp [hnone]) (fun other => by simp [hnone]) (fun other hne => ?_) ?_ (by simp [Mark.kind])
      · rw [(hbefore other).2, Spot.owes_def]
        simp [Spot.state_def, hnone, SlotState.works]
      · refine Spot.isOpen_congr hs rfl ?_
        cases half <;> cases other <;> first | rfl | exact absurd rfl hne
      · cases half <;> simp [Spot.isOpen_def, Connection.cell, Connection.setCell, hphase]
    | @forced left forced forced' p s places hs hlive hquiet =>
      refine h.same ?_ (fun hlive' => by cases hlive') (fun half => by simp)
        (fun half => Spot.isOpen_congr hs rfl (by cases half <;> rfl)) (by simp [kind_forced]; simp [Mark.kind])
      funext half
      rw [Spot.state_eq hs, hquiet]
      rfl
    | @bound fd peer p s hs hstate =>
      refine h.same ?_ (fun hlive => by cases hlive) (fun half => by simp)
        (fun half => Spot.isOpen_congr hs rfl (by cases half <;> rfl)) (by simp [Mark.kind])
      rw [Spot.state_eq hs, hstate]
      rfl
    | disconnecting hs hidle =>
      refine h.same ?_ (fun hlive => by cases hlive) (fun half => by simp)
        (fun half => Spot.isOpen_congr hs rfl (by cases half <;> rfl)) (List.forall_mem_nil _)
      funext half
      rw [Spot.state_eq hs, SlotState.works_of_isIdle hidle]
      rfl
    | failedAccept hs hstate | closed hs hstate =>
      refine h.same ?_ (fun hlive => by cases hlive) (fun half => by simp)
        (fun half => Spot.isOpen_congr hs rfl (by cases half <;> rfl)) (by simp [Mark.kind])
      rw [Spot.state_eq hs, hstate]
      rfl
    | @polled half waker p s c hs hphase =>
      refine h.same ?_ ?_ (fun other => by simp) (fun other => ?_) (List.forall_mem_nil _)
      · rw [Spot.state_eq hs]
        cases half <;> rfl
      · rw [Spot.state_eq hs]
        cases half <;> exact id
      · by_cases hsame : other = half
        · subst hsame
          rw [Spot.isOpen_eq hs, Spot.isOpen_eq rfl, Slot.cell_setCell_self]
          simp [hphase]
        · exact Spot.isOpen_congr hs rfl (Slot.cell_setCell_of_ne s c hsame)
    | left hs | released hs | spentHalf hs =>
      exact h.same (by rw [Spot.state_eq hs]; rfl) (by rw [Spot.state_eq hs]; exact id)
        (fun half => by simp) (fun half => Spot.isOpen_congr hs rfl (by cases half <;> rfl)) (List.forall_mem_nil _)
    | _ => exact h.same rfl id (fun half => by simp) (fun half => rfl) (by simp [Mark.kind])

end Resolving

/-! ## Descriptors and leases -/

/-- The lease of the slot's socket, unless the slot is free. -/
def Spot.lease? (p : Spot) : Option Unit := if p.state = .disconnected then none else some ()

/-- Descriptors are bound and let go in turns, and so are the leases of sockets. -/
structure Tied (i : Nat) (fd₀ : Option Int) (lease₀ : Option Unit) (p : Spot) (log : List Mark) : Prop where
  descriptors : (descriptor i).after fd₀ log = some p.fd?
  leases : (lease i).after lease₀ log = some p.lease?

section Sockets

variable {fd : Int} {fd₀ : Option Int} {lease₀ : Option Unit} {s : Slot}

theorem Spot.lease?_eq (hs : p.slot? = some s) : p.lease? = if s.state = .disconnected then none else some () := by
  rw [lease?, state_eq hs]

theorem descriptor_bound (h : (descriptor i).after fd₀ log = some none) :
    (descriptor i).after fd₀ (.bound i fd :: log) = some (some fd) :=
  Course.after_opens (by simp [descriptor]) h

theorem descriptor_closed (h : (descriptor i).after fd₀ log = some (some fd)) :
    (descriptor i).after fd₀ (.closed i fd :: log) = some none :=
  Course.after_closes rfl (by simp [descriptor]) h

theorem descriptor_spared (h : (descriptor i).after fd₀ log = some (some fd)) :
    (descriptor i).after fd₀ (.spared i fd :: log) = some none :=
  Course.after_closes rfl (by simp [descriptor]) h

theorem lease_bound (h : (lease i).after lease₀ log = some none) :
    (lease i).after lease₀ (.bound i fd :: log) = some (some ()) :=
  Course.after_opens (by simp [lease]) h

theorem lease_freed (h : (lease i).after lease₀ log = some (some ())) :
    (lease i).after lease₀ (.freed i :: log) = some none :=
  Course.after_closes rfl (by simp [lease]) h

namespace Tied

/-- The slot keeps its socket, or is still without one. -/
theorem congr (h : Tied i fd₀ lease₀ p log) (hfd : p'.fd? = p.fd?) (hlease : p'.lease? = p.lease?)
    (hdescriptor : (descriptor i).after fd₀ (marks ++ log) = (descriptor i).after fd₀ log)
    (hfreed : (lease i).after lease₀ (marks ++ log) = (lease i).after lease₀ log) :
    Tied i fd₀ lease₀ p' (marks ++ log) where
  descriptors := by rw [hdescriptor, hfd, h.descriptors]
  leases := by rw [hfreed, hlease, h.leases]

/-- The slot goes on to another state, with the socket that it has. -/
theorem goes {s' : Slot} (h : Tied i fd₀ lease₀ p log) (hs : p.slot? = some s) (hs' : p'.slot? = some s')
    (hfd : s'.fd = s.fd) (hstate : s'.state = .disconnected ↔ s.state = .disconnected)
    (hdescriptor : (descriptor i).after fd₀ (marks ++ log) = (descriptor i).after fd₀ log)
    (hfreed : (lease i).after lease₀ (marks ++ log) = (lease i).after lease₀ log) :
    Tied i fd₀ lease₀ p' (marks ++ log) :=
  h.congr (by simp only [Spot.fd?_eq hs, Spot.fd?_eq hs', hfd, hstate])
    (by simp only [Spot.lease?_eq hs, Spot.lease?_eq hs', hstate]) hdescriptor hfreed

/-- A slot with a socket holds its descriptor and its lease. -/
theorem holds (h : Tied i fd₀ lease₀ p log) (hs : p.slot? = some s) (hlive : s.state ≠ .disconnected) :
    (descriptor i).after fd₀ log = some (some s.fd) ∧
      (lease i).after lease₀ log = some (some ()) := by
  rw [h.descriptors, h.leases, Spot.fd?_eq hs, Spot.lease?_eq hs, if_neg hlive, if_neg hlive]
  exact ⟨rfl, rfl⟩

theorem turn (h : Tied i fd₀ lease₀ p log) (hturn : Turn i a p more marks p') :
    Tied i fd₀ lease₀ p' (marks ++ log) := by
  cases hturn with
  | aloof haloof =>
    have hother : ∀ e ∈ marks, e.slot ≠ i ∨ e.kind ≠ .socket := fun e he => .inl (haloof.marks e he)
    exact h.congr rfl rfl (descriptor_append hother) (lease_append hother)
  | looked | emptied | exited | retracted => exact h.congr rfl rfl rfl rfl
  | deal hdeal =>
    cases hdeal with
    | @bound fd peer p s hs hstate =>
      have hfd : p.fd? = none := by rw [Spot.fd?_eq hs, if_pos hstate]
      have hlease : p.lease? = none := by rw [Spot.lease?_eq hs, if_pos hstate]
      exact ⟨descriptor_bound (h.descriptors.trans (congrArg some hfd)),
        lease_bound (h.leases.trans (congrArg some hlease))⟩
    | @closed p s places hs hstate =>
      obtain ⟨hfd, hlease⟩ := h.holds hs (by rw [hstate]; exact nofun)
      exact ⟨descriptor_closed hfd, lease_freed hlease⟩
    | @forcedHalf half left forced forced' p s c places hs hstate =>
      obtain ⟨hfd, hlease⟩ := h.holds hs (by rw [hstate]; exact half.working_ne_disconnected)
      cases half <;> exact ⟨descriptor_closed hfd, lease_freed hlease⟩
    | forced hs hlive =>
      obtain ⟨hfd, hlease⟩ := h.holds hs hlive
      split
      · exact ⟨descriptor_spared hfd, lease_freed hlease⟩
      · exact ⟨descriptor_closed hfd, lease_freed hlease⟩
    | @began half length p s hs hstart =>
      have hidle := SlotState.ne_disconnected_of_isIdle (Slot.isIdle_of_startsFrom hstart)
      refine h.goes hs rfl (s.fd_begin length half) (iff_of_false ?_ hidle) rfl rfl
      rw [Slot.state_begin]
      exact half.working_ne_disconnected
    | disconnecting hs hidle =>
      exact h.goes hs rfl rfl (iff_of_false nofun (SlotState.ne_disconnected_of_isIdle hidle)) rfl rfl
    | failedAccept hs hstate => exact h.goes hs rfl rfl (iff_of_false nofun (by rw [hstate]; exact nofun)) rfl rfl
    | @failedHalf half p s n hs hstate =>
      exact h.goes hs rfl rfl (iff_of_false nofun (by rw [hstate]; exact half.working_ne_disconnected)) rfl rfl
    | polled hs | completed hs => exact h.goes hs rfl (Slot.fd_setCell ..) (by rw [Slot.state_setCell]) rfl rfl
    | left hs | released hs | spentHalf hs => exact h.goes hs rfl rfl Iff.rfl rfl rfl
    | _ => exact h.congr rfl rfl rfl rfl

end Tied

end Sockets

/-! ## Leases and places -/

/-- The leases of a slot are those of its socket, of its handles, and of handles that went away and have yet to give
theirs back. A slot with a place among the free ones, or taken out of them for a new socket, has none. -/
structure Leased (i : Nat) (p : Spot) (duty : Duty → Nat) : Prop where
  leases : ∀ s, p.slot? = some s → s.leases.toNat = s.state.leases + p.handles + duty .release
  places : ∀ s, p.slot? = some s → p.places + duty .bind ≤ if s.leases = 0 then 1 else 0

theorem toNat_pred {n : UInt8} (h : n ≠ 0) : (n - 1).toNat = n.toNat - 1 := by
  have hpos : 0 < n.toNat := Nat.pos_iff_ne_zero.2 fun hzero => h (UInt8.toNat_inj.1 hzero)
  have hle : 1 ≤ n := by
    rw [UInt8.le_iff_toNat_le]
    exact hpos
  rw [UInt8.toNat_sub_of_le _ _ hle]
  rfl

namespace Leased

variable {s : Slot}

/-- A lease is given back, of the socket or of a handle. -/
theorem give {s' : Slot} (h : Leased i p duty) (hs : p.slot? = some s) (hs' : p'.slot? = some s')
    (hnone : s.leases ≠ 0) (hleases : s'.leases = s.leases - 1) (hhandles : p'.handles = p.handles)
    (hplaces : p'.places ≤ p.places + if s.leases = 1 then 1 else 0) (hbind : duty' .bind = duty .bind)
    (hless : s'.state.leases + duty' .release + 1 = s.state.leases + duty .release) : Leased i p' duty' := by
  have hbefore := h.leases s hs
  have hroom := h.places s hs
  rw [if_neg hnone] at hroom
  refine ⟨fun s₁ hs₁ => ?_, fun s₁ hs₁ => ?_⟩
  · obtain rfl := Option.some.inj (hs'.symm.trans hs₁)
    rw [hleases, toNat_pred hnone, hhandles]
    omega
  · obtain rfl := Option.some.inj (hs'.symm.trans hs₁)
    rw [hleases, hbind]
    by_cases hone : s.leases = 1
    · rw [if_pos hone] at hplaces
      rw [hone, if_pos (by decide)]
      omega
    · rw [if_neg hone] at hplaces
      omega

/-- Nothing of the leases changed. -/
theorem congr {s' : Slot} (h : Leased i p duty) (hs : p.slot? = some s) (hs' : p'.slot? = some s')
    (hleases : s'.leases = s.leases) (hstate : s'.state.leases = s.state.leases)
    (hreleases : p'.handles + duty' .release = p.handles + duty .release)
    (hplaces : p'.places + duty' .bind ≤ p.places + duty .bind) : Leased i p' duty' := by
  refine ⟨fun s₁ hs₁ => ?_, fun s₁ hs₁ => ?_⟩
  · obtain rfl := Option.some.inj (hs'.symm.trans hs₁)
    have hbefore := h.leases s hs
    rw [hleases, hstate]
    omega
  · obtain rfl := Option.some.inj (hs'.symm.trans hs₁)
    rw [hleases]
    exact Nat.le_trans hplaces (h.places s hs)

/-- A slot that is taken out of the free ones for a new socket has none, and nobody has a lease of it. -/
theorem of_bind (h : Leased i p duty) (hs : p.slot? = some s) (hbind : 0 < duty .bind) :
    s.leases = 0 ∧ s.state.leases = 0 ∧ p.handles = 0 ∧ duty .release = 0 := by
  have hroom := h.places s hs
  have hleases := h.leases s hs
  by_cases hzero : s.leases = 0
  · rw [hzero, UInt8.toNat_zero] at hleases
    exact ⟨hzero, by omega, by omega, by omega⟩
  · rw [if_neg hzero] at hroom
    omega

theorem turn (h : Leased i p (fun duty => a.counts i duty + rest duty)) (hturn : Turn i a p more marks p') :
    Leased i p' (fun duty => duties i more duty + rest duty) := by
  cases hturn with
  | aloof haloof =>
    refine ⟨fun s hs => ?_, fun s hs => ?_⟩
    · rw [haloof.counts .release nofun]
      exact h.leases s hs
    · rw [haloof.counts .bind nofun]
      exact h.places s hs
  | looked | emptied | exited | retracted =>
    refine ⟨fun s hs => ?_, fun s hs => ?_⟩
    · simpa using h.leases s hs
    · simpa using h.places s hs
  | deal hdeal =>
    cases hdeal with
    | absent hnone =>
      refine ⟨fun s hs => ?_, fun s hs => ?_⟩ <;>
        · rw [hnone] at hs
          cases hs
    | taken hplaces =>
      refine ⟨fun s hs => by simpa using h.leases s hs, fun s hs => ?_⟩
      have hroom := h.places s hs
      simp at hroom ⊢
      omega
    | bound hs hstate =>
      -- a slot that was taken for a socket has neither a lease nor a place among the free ones
      obtain ⟨hzero, -, hhandles, hrelease⟩ := h.of_bind hs (Nat.add_pos_left (by simp) _)
      have hroom := h.places _ hs
      refine ⟨fun s hs' => ?_, fun s hs' => ?_⟩
      · cases hs'
        simp at hrelease ⊢
        rw [hhandles, hrelease]
        rfl
      · cases hs'
        rw [if_pos hzero] at hroom
        simp [Slot.withSocket] at hroom ⊢
        omega
    | unbound hs hstate =>
      have hfree := (h.of_bind hs (Nat.add_pos_left (by simp) _)).2.1
      exact absurd (SlotState.eq_of_leases hfree) hstate
    | @began half length p s hs hstart =>
      refine h.congr hs rfl (by cases half <;> rfl) ?_ (by simp) (by simp)
      rw [Slot.state_begin, SlotState.leases_of_ne half.working_ne_disconnected,
        SlotState.leases_of_ne (SlotState.ne_disconnected_of_isIdle (Slot.isIdle_of_startsFrom hstart))]
    | @polled half waker p s c hs =>
      exact h.congr hs rfl (by cases half <;> rfl) (by rw [Slot.state_setCell]) (by simp) (by simp)
    | @completed half p s c hs =>
      exact h.congr hs rfl (by cases half <;> rfl) (by rw [Slot.state_setCell]) (by simp)
        (by simp)
    | left hs hhandles =>
      refine h.congr hs rfl rfl rfl ?_ (by simp)
      simp
      omega
    | disconnecting hs hidle =>
      exact h.congr hs rfl rfl (SlotState.leases_of_ne (SlotState.ne_disconnected_of_isIdle hidle)).symm (by simp)
        (by simp)
    | released hs hleases hplaces =>
      refine h.give hs rfl hleases rfl rfl hplaces (by simp) ?_
      simp
      omega
    | failedAccept hs hstate =>
      exact h.congr hs rfl rfl (by rw [hstate]; rfl) (by simp) (by simp)
    | @failedHalf half p s n hs hstate =>
      exact h.congr hs rfl rfl (by rw [hstate]; cases half <;> rfl) (by simp) (by simp)
    | spentHalf hs => exact h.congr hs rfl rfl rfl (by simp) (by simp)
    | closed hs hstate hleases hplaces =>
      refine h.give hs rfl hleases rfl rfl hplaces (by simp) ?_
      simp [hstate, SlotState.leases_of_ne]
      omega
    | @forcedHalf half left forced forced' p s c places hs hstate hphase hleases hplaces =>
      refine h.give hs rfl hleases rfl rfl hplaces (by simp) ?_
      simp [hstate, SlotState.leases_of_ne half.working_ne_disconnected]
      omega
    | forced hs hlive hquiet hleases hplaces =>
      refine h.give hs rfl hleases rfl rfl hplaces (by simp) ?_
      simp [SlotState.leases_of_ne hlive]
      omega
    | _ =>
      refine ⟨fun s hs => ?_, fun s hs => ?_⟩
      · simpa using h.leases s hs
      · simpa using h.places s hs

end Leased

end Turns

end SlotServer
