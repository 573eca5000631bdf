import Mathlib.Logic.Relation
import SlotServer.Proofs.Balances
import SlotServer.Proofs.HonestRuns

/-!
# The end of a loop among callers

A dispatch loop comes to its end while any number of acceptors and handles are about their calls. Every party does one
act at a time, in any order.

- `Departure`, `Departure.Step`: the worker, what each party has to do yet, and what was marked;
- `Departing`: what holds of a slot throughout, whoever acts;
- `Departure.Step.turns`: in each step every slot takes a turn, and what is to be done for it is counted anew;
- `HonestRun.departed`: what is left once all parties are done;
- `WildRun.proceeds`: no party meets with a fault on the way.
-/

namespace SlotServer

variable {α : Type}

/-! ## The parties -/

/-- A worker at the end of its dispatch loop, among acceptors and handles. -/
structure Departure (α : Type) where
  machine : Machine α
  /-- What each party has to do yet. -/
  parties : List (List Act)
  /-- What was marked, the latest first. -/
  log : List Mark

/-- The first acts of calls. Acceptors may call at any time, and handles as long as they are alive. -/
inductive Act.Begins (m : Machine α) : Act → Prop
  | assign {fd : Int} (hfd : 0 ≤ fd) (peer : Option Net.SocketAddress) : Begins m (.assign fd peer)
  | receive {i : Nat} (hheld : i ∈ m.held) : Begins m (.receive i)
  | send {i : Nat} (hheld : i ∈ m.held) (length : Nat) : Begins m (.send i length)
  | poll (cell : CellName) (waker : Waker) : Begins m (.poll cell waker)
  | leave {i : Nat} (hheld : i ∈ m.held) : Begins m (.leave i)

/-- Nobody waits for anything from a call that has not begun. -/
theorem Act.Begins.counts {m : Machine α} {a : Act} (h : a.Begins m) (i : Nat) (duty : Duty) : a.counts i duty = 0 := by
  cases h <;> rfl

namespace Departure

/-- What all parties together have to do yet. -/
def todo (d : Departure α) : List Act := d.parties.flatten

/-- All parties have finished. -/
def Done (d : Departure α) : Prop := ∀ acts ∈ d.parties, acts = []

/-- The loop has stopped, and is about to come to its end. No call is under way. -/
def start (m : Machine α) : Departure α := ⟨m, [[.exit]], []⟩

/-- What may happen next. -/
inductive Step (d : Departure α) : Departure α → Prop
  /-- A call begins with its first act. -/
  | begins {a : Act} {more : List Act} {marks : List Mark} {m' : Machine α} (ha : a.Begins d.machine)
    (hrun : a.run d.machine = .ok (more, marks) m') : Step d ⟨m', more :: d.parties, marks ++ d.log⟩
  /-- Some party does what comes next for it. -/
  | goesOn {before after : List (List Act)} {a : Act} {rest more : List Act} {marks : List Mark} {m' : Machine α}
    (hparties : d.parties = before ++ (a :: rest) :: after) (hrun : a.run d.machine = .ok (more, marks) m') :
    Step d ⟨m', before ++ (more ++ rest) :: after, marks ++ d.log⟩
  /-- Something happens around the worker. -/
  | around (kernel : Kernel) (app : α) : Step d { d with machine := { d.machine with kernel, app } }

/-- What comes of a worker whose loop has stopped. -/
abbrev Reaches (m : Machine α) (d : Departure α) : Prop := Relation.ReflTransGen Step (start m) d

/-- What may be done next: a call may begin, or some party goes on. -/
def Due (d : Departure α) (a : Act) : Prop := a.Begins d.machine ∨ ∃ rest, a :: rest ∈ d.parties

theorem Done.todo {d : Departure α} (h : d.Done) : d.todo = [] := List.flatten_eq_nil_iff.2 h

theorem todo_goesOn {d : Departure α} {before after : List (List Act)} {a : Act} {rest : List Act}
    (hparties : d.parties = before ++ (a :: rest) :: after) (i : Nat) (duty : Duty) :
    duties i d.todo duty = a.counts i duty + duties i (before.flatten ++ rest ++ after.flatten) duty := by
  rw [todo, hparties]
  simp
  omega

/-- What may be done next is among what is to be done, or does nothing of it. -/
theorem Due.counts {d : Departure α} {a : Act} (h : d.Due a) (i : Nat) (duty : Duty) :
    a.counts i duty ≤ duties i d.todo duty := by
  rcases h with hbegins | ⟨rest, hmem⟩
  · rw [hbegins.counts]
    exact Nat.zero_le _
  · obtain ⟨before, after, hparties⟩ := List.append_of_mem hmem
    rw [todo_goesOn hparties]
    exact Nat.le_add_right ..

end Departure

/-! ## What holds of a slot throughout -/

/-- The operation of a half that is under way. -/
def Spot.operation? (p : Spot) (half : Half) : Option Unit := if p.state.works half = true then some () else none

theorem Spot.operation?_def (p : Spot) (half : Half) :
    p.operation? half = if p.state.works half = true then some () else none := rfl

/-- What a slot is like when the loop stops. -/
structure Spot.Poised (i : Nat) (p : Spot) : Prop where
  running : p.exited = false
  index : ∀ s, p.slot? = some s → s.index = low32 i
  small : p.slot?.isSome = true → p.state ≠ .disconnected ∨ 0 < p.places ∨ 0 < p.handles → i < 0x100000000
  cells : ∀ half, p.state.works half = true → p.isOpen half = true

/-- A slot that is not there is poised. -/
theorem Spot.Poised.of_none {i : Nat} {p : Spot} (hexited : p.exited = false) (hnone : p.slot? = none) :
    p.Poised i where
  running := hexited
  index s hs := by
    rw [hnone] at hs
    cases hs
  small hhere := by
    rw [hnone] at hhere
    cases hhere
  cells half hworks := by
    rw [state_none hnone] at hworks
    cases half <;> cases hworks

/-- What holds of a slot throughout. -/
structure Departing (i : Nat) (p₀ p : Spot) (duty : Duty → Nat) (log : List Mark) : Prop where
  attended : Attended i p₀.commands p duty log
  placed : Placed i p duty
  clearing : Clearing i p duty
  resolving : Resolving i p₀.operation? p duty log
  tied : Tied i p₀.fd? p₀.lease? p log

namespace Departing

variable {i : Nat} {p₀ p p' : Spot} {duty rest : Duty → Nat} {log marks : List Mark} {a : Act} {more : List Act}

theorem turn (h : Departing i p₀ p (fun duty => a.counts i duty + rest duty) log) (hturn : Turn i a p more marks p') :
    Departing i p₀ p' (fun duty => duties i more duty + rest duty) (marks ++ log) :=
  ⟨h.attended.turn hturn, h.placed.turn hturn, h.clearing.turn hturn, h.resolving.turn hturn, h.tied.turn hturn⟩

/-- When the loop stops, all that is to be done for a slot is to come to the end. -/
theorem of_poised (h : p.Poised i) : Departing i p p (duties i [.exit]) [] where
  attended :=
    { order := (List.append_nil _).symm
      swept := fun he => absurd (h.running.symm.trans he) Bool.false_ne_true
      ending := fun _ => by simp }
  placed := ⟨h.index, fun hhere hsome => h.small hhere (by simpa using hsome)⟩
  clearing := .of_yet (by simp) (by simp)
  resolving :=
    { alone := fun _ half => by simp
      once := fun half => by simp
      cells := fun half ho => h.cells half (by simpa [Spot.owes_def] using ho)
      resolved := fun half hbegan ho => by
        simp [Spot.operation?_def, Spot.owes_def] at hbegan ho
        exact absurd (hbegan.symm.trans ho) nofun
      operations := fun half => by simp [Course.after, Spot.operation?_def, Spot.owes_def] }
  tied := ⟨rfl, rfl⟩

/-- A slot with a socket has the number that its place says. -/
theorem index (h : Departing i p₀ p duty log) {s : Slot} (hs : p.slot? = some s) (hlive : s.state ≠ .disconnected) :
    s.index = i := by
  have hsmall := h.placed.small (by rw [hs]; rfl) (.inl (by rw [Spot.state_eq hs]; exact hlive))
  rw [h.placed.index s hs, low32, Nat.mod_eq_of_lt hsmall]

/-- No cell is completed twice. -/
theorem uncompleted (h : Departing i p₀ p duty log) (hcount : ∀ duty', a.counts i duty' ≤ duty duty') :
    ¬ Mishap i a p .completedTwice := by
  have hopen : ∀ (s : Slot) (half : Half), p.slot? = some s → p.Owes duty half →
      (Connection.cell s half).phase ≠ .completed := fun s half hs ho => by
    have hcell := h.resolving.cells half ho
    rw [Spot.isOpen_eq hs] at hcell
    exact of_decide_eq_true hcell
  intro hmishap
  cases hmishap with
  | @completed half p s hs hphase =>
    refine hopen s half hs (.inr ?_) hphase
    have hone := hcount (.complete half)
    simp at hone
    omega
  | @forcedHalf half left forced p s hs hstate hphase =>
    refine hopen s half hs (.inl ?_) hphase
    rw [Spot.state_eq hs, hstate]
    exact Half.works_self half

/-- All that is left of a slot once nothing is to be done any more. -/
theorem done (h : Departing i p₀ p (fun _ => 0) log) :
    p.commands = [] ∧ p.state = .disconnected := by
  have hexited : p.exited = true := by
    rcases Bool.eq_false_or_eq_true p.exited with he | he
    · exact he
    · exact absurd (h.attended.ending he) (Nat.lt_irrefl 0)
  have hcommands : p.commands = [] := Decidable.byContradiction fun hc =>
    absurd (h.attended.swept hexited hc) (Nat.lt_irrefl 0)
  refine ⟨hcommands, ?_⟩
  have hdead := h.clearing.forced rfl
  cases hstate : p.state with
  | disconnected => rfl
  | accepting =>
    rcases h.clearing.accepting rfl hstate with hmem | hpos
    · rw [hcommands] at hmem
      cases hmem
    · exact absurd hpos (Nat.lt_irrefl 0)
  | disconnecting => exact absurd (h.clearing.closing rfl hstate) (Nat.lt_irrefl 0)
  | accepted | receiving | received | sending | sent =>
    rw [hstate] at hdead
    cases hdead

end Departing

/-! ## Steps -/

namespace Departure

variable {m : Machine α} {d d' : Departure α}

/-- The slots with sockets have the numbers that their places say. -/
def Numbered (d : Departure α) : Prop := ∀ (i : Nat) (s : Slot), d.machine.worker.slots[i]? = some s →
  s.state ≠ .disconnected → s.index = i

/-- What every turn keeps of a slot, and of what is to be done for it, every step keeps of all slots. -/
theorem Step.keeps {K : Nat → Spot → (Duty → Nat) → List Mark → Prop}
    (hturn : ∀ {i p p' a more marks log} {rest : Duty → Nat}, K i p (fun duty => a.counts i duty + rest duty) log →
      Turn i a p more marks p' → K i p' (fun duty => duties i more duty + rest duty) (marks ++ log))
    (hnumbered : d.Numbered) (hstep : Step d d') {i : Nat} (h : K i (d.machine.spot i) (duties i d.todo) d.log) :
    K i (d'.machine.spot i) (duties i d'.todo) d'.log := by
  have hturns : ∀ {a : Act} {more : List Act} {marks : List Mark} {m' : Machine α},
      a.run d.machine = .ok (more, marks) m' → Turn i a (d.machine.spot i) more marks (m'.spot i) := by
    intro a more marks m' hrun
    exact (Act.turns a d.machine hnumbered).of_ok hrun i
  cases hstep with
  | @begins a more marks m' ha hrun =>
    have hbefore : duties i d.todo = fun duty => a.counts i duty + duties i d.todo duty :=
      funext fun duty => by rw [ha.counts, Nat.zero_add]
    have hafter : duties i (todo ⟨m', more :: d.parties, marks ++ d.log⟩) =
        fun duty => duties i more duty + duties i d.todo duty := funext fun duty => duties_append ..
    rw [hbefore] at h
    rw [hafter]
    exact hturn h (hturns hrun)
  | @goesOn before after a rest more marks m' hparties hrun =>
    have hbefore : duties i d.todo = fun duty =>
        a.counts i duty + duties i (before.flatten ++ rest ++ after.flatten) duty := funext (todo_goesOn hparties i)
    have hafter : duties i (todo ⟨m', before ++ (more ++ rest) :: after, marks ++ d.log⟩) =
        fun duty => duties i more duty + duties i (before.flatten ++ rest ++ after.flatten) duty := by
      funext duty
      simp [todo]
      omega
    rw [hbefore] at h
    rw [hafter]
    exact hturn h (hturns hrun)
  | around kernel app => exact h

/-- What holds of every slot throughout. -/
def Ordered (m : Machine α) (d : Departure α) : Prop :=
  ∀ i, Departing i (m.spot i) (d.machine.spot i) (duties i d.todo) d.log

theorem Ordered.numbered (h : Ordered m d) : d.Numbered := fun i _ hs hlive => (h i).index hs hlive

theorem Reaches.ordered (h : ∀ i, (m.spot i).Poised i) (hsteps : Reaches m d) : Ordered m d := by
  induction hsteps with
  | refl => exact fun i => .of_poised (h i)
  | tail _ hstep ih => exact fun i => hstep.keeps Departing.turn ih.numbered (ih i)

/-- What holds of a slot when the loop stops, and is kept by every turn, holds throughout. -/
theorem Reaches.keeps {K : Nat → Spot → (Duty → Nat) → List Mark → Prop} (hpoised : ∀ i, (m.spot i).Poised i)
    (hturn : ∀ {i p p' a more marks log} {rest : Duty → Nat}, K i p (fun duty => a.counts i duty + rest duty) log →
      Turn i a p more marks p' → K i p' (fun duty => duties i more duty + rest duty) (marks ++ log))
    (hsteps : Reaches m d) {i : Nat} (hstart : K i (m.spot i) (duties i [.exit]) []) :
    K i (d.machine.spot i) (duties i d.todo) d.log := by
  induction hsteps with
  | refl => exact hstart
  | tail hsteps hstep ih => exact hstep.keeps hturn (Reaches.ordered hpoised hsteps).numbered ih

/-- No cell is completed twice, whatever is done next. -/
theorem Ordered.uncompleted (h : Ordered m d) {a : Act} (hdue : d.Due a) (m' : Machine α) :
    a.run d.machine ≠ .error .completedTwice m' := fun hrun => by
  obtain ⟨i, hmishap⟩ := (Act.turns a d.machine h.numbered).of_error hrun
  exact (h i).uncompleted (hdue.counts i) hmishap

end Departure

/-- A worker over an honest kernel is poised for its end, as long as its loop runs. -/
theorem HonestRun.poised {serve : Run.Serve α} {m : Machine α} (hserve : Modest serve) (h : HonestRun serve m)
    (hexited : m.worker.exited = false) (i : Nat) : (m.spot i).Poised i := by
  rcases h.resting hserve i with ⟨s, hcalm, -⟩ | habsent
  · have hs : (m.spot i).slot? = some s := hcalm.here
    have hstate := Spot.state_eq hs
    refine ⟨hexited, fun s' hs' => ?_, fun _ hsome => hcalm.small (hstate ▸ hsome), fun half hworks => ?_⟩
    · obtain rfl := Option.some.inj (hs.symm.trans hs')
      exact hcalm.index
    · have hphase := (hcalm.telling.waits half (hstate ▸ hworks)).phase
      rw [Spot.isOpen_eq hs, hphase]
      split <;> rfl
  · exact .of_none hexited habsent.slot

/-- A worker over an arbitrary kernel is poised for its end, as long as its loop runs. -/
theorem WildRun.poised {serve : Run.Serve α} {m : Machine α} (hserve : Modest serve) (h : WildRun serve m)
    (hexited : m.worker.exited = false) (i : Nat) : (m.spot i).Poised i := by
  rcases h.moored hserve i with ⟨s, hsettled⟩ | hmissing
  · have hs : (m.spot i).slot? = some s := hsettled.here
    have hstate := Spot.state_eq hs
    refine ⟨hexited, fun s' hs' => ?_, fun _ _ => hsettled.small, fun half hworks => ?_⟩
    · obtain rfl := Option.some.inj (hs.symm.trans hs')
      rw [hsettled.index, low32, Nat.mod_eq_of_lt hsettled.small]
    · rw [Spot.isOpen_eq hs]
      exact decide_eq_true (hsettled.uncompleted half (hstate ▸ hworks))
  · exact .of_none hexited hmissing.slot

/-! ## What is left behind -/

namespace Departure

variable {m : Machine α} {d : Departure α}

/-- What a worker and its callers leave behind. -/
structure Left (m : Machine α) (d : Departure α) : Prop where
  inbox : d.machine.worker.inbox = []
  /-- Every command was taken out once, those of a slot in the order in which they were put in. -/
  popped : ∀ i, poppedOf i d.log = m.worker.inbox.filter (·.slot = i) ++ pushedOf i d.log
  /-- Operations began and were completed in turns, so that each was completed once. -/
  resolved : ∀ i half, (operation ⟨i, half⟩).after ((m.spot i).operation? half) d.log = some none
  /-- Whoever asks for the outcome of an operation finds one. -/
  readable : ∀ (i : Nat) (half : Half) (s : Slot), d.machine.worker.slots[i]? = some s →
    (m.spot i).operation? half ≠ none ∨ .began ⟨i, half⟩ ∈ d.log → (Connection.cell s half).isCompleted = true
  free : ∀ (i : Nat) (s : Slot), d.machine.worker.slots[i]? = some s → s.state = .disconnected
  /-- Sockets were bound and their leases given back in turns, so that each lease was given back once. -/
  freed : ∀ i, (lease i).after (m.spot i).lease? d.log = some none

theorem Ordered.left (h : Ordered m d) (hdone : d.Done) : d.Left m := by
  have hslot : ∀ i, Departing i (m.spot i) (d.machine.spot i) (fun _ => 0) d.log := fun i => by
    have hi := h i
    rw [hdone.todo] at hi
    exact hi
  have hnone : ∀ i, (d.machine.spot i).commands = [] := fun i => (hslot i).done.1
  have hstate : ∀ i, (d.machine.spot i).state = .disconnected := fun i => (hslot i).done.2
  have howes : ∀ i half, ¬ (d.machine.spot i).Owes (fun _ => 0) half := fun i half ho => by
    rw [Spot.owes_def, hstate] at ho
    cases half <;> rcases ho with ho | ho <;> cases ho
  refine ⟨?_, fun i => ?_, fun i half => ?_, fun i half s hs hbegan => ?_, fun i s hs => ?_, fun i => ?_⟩
  · refine List.eq_nil_iff_forall_not_mem.2 fun c hc => ?_
    have hmem : c ∈ (d.machine.spot c.slot).commands := List.mem_filter.2 ⟨hc, decide_eq_true rfl⟩
    rw [hnone] at hmem
    cases hmem
  · have horder := (hslot i).attended.order
    rw [hnone, List.append_nil] at horder
    exact horder
  · rw [(hslot i).resolving.operations, if_neg (howes i half)]
  · have hclosed := (hslot i).resolving.resolved half hbegan (howes i half)
    rw [Spot.isOpen_eq (s := s) hs] at hclosed
    simpa [Cell.isCompleted] using hclosed
  · rw [← hstate i]
    exact (Spot.state_eq (s := s) hs).symm
  · rw [(hslot i).tied.leases, Spot.lease?, if_pos (hstate i)]

/-! ### Schedules -/

/-- Who does something next. -/
inductive Choice
  /-- Somebody begins a call. -/
  | begins (a : Act)
  /-- One of the parties goes on. -/
  | goesOn (party : Nat)

end Departure

instance Act.decidableBegins (m : Machine α) : (a : Act) → Decidable (a.Begins m)
  | .assign fd peer => decidable_of_iff (0 ≤ fd) ⟨fun h => .assign h peer, fun h => by cases h; assumption⟩
  | .receive i => decidable_of_iff (i ∈ m.held) ⟨.receive, fun h => by cases h; assumption⟩
  | .send i length => decidable_of_iff (i ∈ m.held) ⟨fun h => .send h length, fun h => by cases h; assumption⟩
  | .poll cell waker => .isTrue (.poll cell waker)
  | .leave i => decidable_of_iff (i ∈ m.held) ⟨.leave, fun h => by cases h; assumption⟩
  | .bind .. | .disconnect _ | .release _ | .push _ | .stall _ | .ring | .look | .pop | .fail _ | .close _
  | .complete .. | .exit | .retract | .force .. => .isFalse nofun

namespace Departure

variable {m : Machine α} {d d' : Departure α}

/-- Do what was chosen, where it may be done. -/
def next? (d : Departure α) : Choice → Option (Departure α)
  | .begins a =>
    if a.Begins d.machine then
      match a.run d.machine with
      | .ok (more, marks) m' => some ⟨m', more :: d.parties, marks ++ d.log⟩
      | .error .. => none
    else none
  | .goesOn k =>
    match d.parties[k]? with
    | some (a :: rest) =>
      match a.run d.machine with
      | .ok (more, marks) m' => some ⟨m', d.parties.set k (more ++ rest), marks ++ d.log⟩
      | .error .. => none
    | _ => none

/-- Do what was chosen, one after the other. -/
def play? (d : Departure α) : List Choice → Option (Departure α)
  | [] => some d
  | choice :: choices => (d.next? choice).bind (·.play? choices)

theorem step_of_next? {choice : Choice} (h : d.next? choice = some d') : Step d d' := by
  cases choice with
  | begins a =>
    rw [next?] at h
    split at h
    case isFalse => cases h
    rename_i ha
    split at h <;> cases h
    rename_i hrun
    exact .begins ha hrun
  | goesOn k =>
    rw [next?] at h
    split at h
    case h_2 => cases h
    rename_i a rest hk
    split at h <;> cases h
    rename_i hrun
    obtain ⟨hlt, hget⟩ := List.getElem?_eq_some_iff.1 hk
    rw [List.set_eq_take_append_cons_drop, if_pos hlt]
    refine .goesOn ?_ hrun
    rw [← hget, List.getElem_cons_drop, List.take_append_drop]

theorem reaches_of_play? {choices : List Choice} (h : d.play? choices = some d') :
    Relation.ReflTransGen Step d d' := by
  induction choices generalizing d with
  | nil =>
    cases h
    exact .refl
  | cons choice choices ih =>
    obtain ⟨d₁, hnext, hplay⟩ := Option.bind_eq_some_iff.1 h
    exact .head (step_of_next? hnext) (ih hplay)

instance : Decidable d.Done := inferInstanceAs (Decidable (∀ acts ∈ d.parties, acts = []))

end Departure

/-! ### Faults -/

/-- Whoever is to give back a lease has one. -/
theorem Leased.faultless {i : Nat} {p₀ p : Spot} {duty : Duty → Nat} {log : List Mark} {a : Act} {fault : Fault}
    (h : Leased i p duty) (hdeparting : Departing i p₀ p duty log) (hcount : ∀ duty', a.counts i duty' ≤ duty duty') :
    ¬ Mishap i a p fault := by
  have hlive : ∀ s : Slot, p.slot? = some s → s.state ≠ .disconnected → s.leases ≠ 0 := fun s hs hstate hzero => by
    have hleases := h.leases s hs
    rw [hzero, UInt8.toNat_zero, SlotState.leases_of_ne hstate] at hleases
    omega
  intro hmishap
  cases hmishap with
  | completed hs hphase => exact hdeparting.uncompleted hcount (.completed hs hphase)
  | forcedHalf hs hstate hphase => exact hdeparting.uncompleted hcount (.forcedHalf hs hstate hphase)
  | released hs hleases =>
    have hbefore := h.leases _ hs
    have hone := hcount .release
    rw [hleases, UInt8.toNat_zero] at hbefore
    simp at hone
    omega
  | closed hs hstate hleases => exact hlive _ hs (by rw [hstate]; exact nofun) hleases
  | forced hs hstate hleases => exact hlive _ hs hstate hleases

theorem WildRun.leased {serve : Run.Serve α} {m : Machine α} (hserve : Modest serve) (h : WildRun serve m) (i : Nat) :
    Leased i (m.spot i) (duties i [.exit]) := by
  rcases h.moored hserve i with ⟨s, hsettled⟩ | hmissing
  · have hs : (m.spot i).slot? = some s := hsettled.here
    refine ⟨fun s' hs' => ?_, fun s' hs' => ?_⟩
    · obtain rfl := Option.some.inj (hs.symm.trans hs')
      exact hsettled.leases
    · obtain rfl := Option.some.inj (hs.symm.trans hs')
      exact Nat.le_of_eq hsettled.places
  · refine ⟨fun s hs => ?_, fun s hs => ?_⟩ <;>
      · rw [show (m.spot i).slot? = none from hmissing.slot] at hs
        cases hs

/-- Whatever completions came before, nobody meets with a fault while the loop comes to its end: every call may begin,
and every party can go on until it has finished. -/
theorem WildRun.proceeds {serve : Run.Serve α} {m : Machine α} {d : Departure α} (hserve : Modest serve)
    (h : WildRun serve m) (hexited : m.worker.exited = false) (hsteps : Departure.Reaches m d) {a : Act}
    (hdue : d.Due a) : ∃ next m', a.run d.machine = .ok next m' := by
  have hordered := Departure.Reaches.ordered (h.poised hserve hexited) hsteps
  cases hrun : (a.run : Run α (List Act × List Mark)) d.machine with
  | ok next m' => exact ⟨next, m', rfl⟩
  | error fault m' =>
    obtain ⟨i, hmishap⟩ := (Act.turns a d.machine hordered.numbered).of_error hrun
    have hleased := hsteps.keeps (K := fun i p duty _ => Leased i p duty) (h.poised hserve hexited) Leased.turn
      (h.leased hserve i)
    exact absurd hmishap (hleased.faultless (hordered i) (hdue.counts i))

/-- However the end of a loop and the calls of acceptors and handles are interleaved, no cell is completed twice, and
once all parties have finished no command and no operation is left behind. -/
theorem HonestRun.departed {serve : Run.Serve α} {m : Machine α} {d : Departure α} (hserve : Modest serve)
    (h : HonestRun serve m) (hexited : m.worker.exited = false) (hsteps : Departure.Reaches m d) :
    (∀ a, d.Due a → ∀ m', a.run d.machine ≠ .error .completedTwice m') ∧ (d.Done → d.Left m) := by
  have hordered := Departure.Reaches.ordered (h.poised hserve hexited) hsteps
  exact ⟨fun a hdue => hordered.uncompleted hdue, hordered.left⟩

namespace Departure

/-- A handle begins a receive, and the loop comes to its end before the command is handed over. The handle goes away
after its receive has returned. -/
def overtaken : List Choice :=
  .begins (.receive 0) :: List.replicate 5 (.goesOn 1) ++ List.replicate 6 (.goesOn 0) ++
    .begins (.leave 0) :: List.replicate 2 (.goesOn 0)

end Departure

/-- A receive is handed over when the loop has come to its end, and its slot was forced free. -/
theorem HonestRun.departed_overtaken : ∃ (m : Machine Application) (d : Departure Application),
    HonestRun Application.serve m ∧ m.worker.exited = false ∧ Departure.Reaches m d ∧ d.Done ∧
      .began ⟨0, .receive⟩ ∈ d.log ∧ d.Left m := by
  have hplayed : (Machine.small?.bind (·.after? Application.serve [.assign 5 none, .turn false])).any (fun m =>
      !m.worker.exited && ((Departure.start m).play? Departure.overtaken).any fun d =>
        decide d.Done && decide (.began ⟨0, .receive⟩ ∈ d.log)) = true := by decide +kernel
  simp only [Option.any_eq_true, Bool.and_eq_true, Bool.not_eq_true', decide_eq_true_eq] at hplayed
  obtain ⟨m, hafter, hexited, d, hplay, hdone, hbegan⟩ := hplayed
  have hrun : HonestRun Application.serve m := HonestRun.of_built hafter
  have hsteps : Departure.Reaches m d := Departure.reaches_of_play? hplay
  have hleft := (HonestRun.departed Application.modest_serve hrun hexited hsteps).2 hdone
  exact ⟨m, d, hrun, hexited, hsteps, hdone, hbegan, hleft⟩

end SlotServer
