import SlotServer.Proofs.Record

/-!
# Phases of a record

What may follow on what in the record of a slot. A record that breaks a rule has no phase.

- `Phase`, `Phase.next`, `phase`: what a record has led to;
- `Phase.Step`: what may follow on a phase, case by case (`Phase.step_of_next`);
- `Phase.Steps`: a stretch of a record, and what it keeps (`Phase.Steps.keeps`);
- `outstanding_of_phase`: the operations outstanding are those of the phase.
-/

namespace SlotServer

/-- The event moves the life of a connection on. -/
def Event.isMove : Event → Bool
  | bound .. | hastened .. | began _ | hungUp .. | queued _ | refused .. | answered _ | closed .. | released => true
  | _ => false

/-- Where the life of a connection stands. -/
inductive Phase
  /-- No socket is bound. -/
  | free
  /-- Nothing is outstanding, and the last operation that ended well was one of this half. -/
  | idle (fd : Int) (last : Option Half)
  /-- An operation of the half began, and is to be queued. -/
  | due (fd : Int) (half : Half)
  /-- Nothing is outstanding, and the socket is only to be closed. -/
  | spent (fd : Int)
  /-- A receive or send is outstanding. -/
  | busy (op : Op)
  /-- The close is outstanding. -/
  | closing (op : Op)
  /-- The kernel's side was let go, and the socket is only to be closed at once. -/
  | doomed (fd : Int)
  deriving DecidableEq, Repr

namespace Phase

/-- The descriptor of a phase in which nothing is outstanding and the socket may be closed. -/
def rest? : Phase → Option Int
  | idle fd _ | due fd _ | spent fd => some fd
  | _ => none

/-- The phase after an operation was answered. What ends badly is only to be closed. -/
def answer (op : Op) (result : Int32) : Phase :=
  match op.half? with
  | none => .free
  | some .receive => if result ≤ 0 then .spent op.fd else .idle op.fd (some .receive)
  | some .send => if result < 0 then .spent op.fd else .idle op.fd (some .send)

/-- The phase after the kernel's side was let go. A close that the kernel has is in its hands. -/
def letGo : Phase → Phase
  | free | closing _ => free
  | idle fd _ | due fd _ | spent fd | doomed fd => doomed fd
  | busy op => doomed op.fd

/-- The phase after an event. No receive begins after a receive. -/
def next (p : Phase) (e : Event) : Option Phase :=
  match e with
  | .bound _ fd =>
    match p with
    | free => if 0 ≤ fd then some (idle fd none) else none
    | _ => none
  | .hastened _ fd =>
    match p with
    | idle fd' _ => if fd = fd' then some p else none
    | _ => none
  | .began cell =>
    match p with
    | idle fd last => if last = some .receive ∧ cell.half = .receive then none else some (due fd cell.half)
    | _ => none
  | .hungUp _ fd =>
    match p with
    | busy op => if fd = op.fd then some p else none
    | due fd' _ => if fd = fd' then some p else none
    | _ => none
  | .queued op =>
    match op.half? with
    | none => if p.rest? = some op.fd then some (closing op) else none
    | some half => if p = due op.fd half then some (busy op) else none
  | .refused op _ =>
    match op.half? with
    | none => if p.rest? = some op.fd then some (spent op.fd) else none
    | some half => if p = due op.fd half then some (spent op.fd) else none
  | .answered c =>
    match p with
    | busy op | closing op => if c.ctx = op.ctx then some (answer op c.result) else none
    | _ => none
  | .closed _ fd => if p.rest? = some fd ∨ p = doomed fd then some free else none
  | .released => some p.letGo
  | _ => some p

/-- The operations that are outstanding in a phase. -/
def ops : Phase → List Op
  | busy op | closing op => [op]
  | _ => []

/-- The descriptor of a phase, if it has one. -/
def fd? : Phase → Option Int
  | free => none
  | idle fd _ | due fd _ | spent fd | doomed fd => some fd
  | busy op | closing op => some op.fd

/-- No receive or send may follow. -/
def isWorn : Phase → Bool
  | idle .. | due .. | busy _ => false
  | _ => true

/-- The descriptor is closed, or the kernel has its close. -/
def isShut : Phase → Bool
  | free | closing _ => true
  | _ => false

/-- The kernel's side may have been let go. -/
def isLetGo : Phase → Bool
  | free | doomed _ => true
  | _ => false

/-- No receive may follow before a send. -/
def isSated : Phase → Bool
  | busy op => op.half? = some .receive
  | due _ half => half = .send
  | idle _ last => last = some .receive
  | _ => true

/-- What is outstanding is of the kind that the phase says. -/
def Proper : Phase → Prop
  | busy op => op.half? ≠ none
  | closing op => op.half? = none
  | _ => True

/-- What may follow on a phase, case by case. -/
inductive Step : Phase → Event → Phase → Prop
  | bind {i fd} (hfd : 0 ≤ fd) : Step free (.bound i fd) (idle fd none)
  | setUp {i fd last} : Step (idle fd last) (.hastened i fd) (idle fd last)
  | begin {fd last cell} (hlast : ¬ (last = some .receive ∧ cell.half = .receive)) :
      Step (idle fd last) (.began cell) (due fd cell.half)
  | hangUp {p i fd} (hfd : p.fd? = some fd) (hworn : p.isWorn = false) : Step p (.hungUp i fd) p
  | take {op half} (hhalf : op.half? = some half) : Step (due op.fd half) (.queued op) (busy op)
  | close {p op} (hrests : p.rest? = some op.fd) (hhalf : op.half? = none) : Step p (.queued op) (closing op)
  | refuse {op e half} (hhalf : op.half? = some half) : Step (due op.fd half) (.refused op e) (spent op.fd)
  | refuseClose {p op e} (hrests : p.rest? = some op.fd) (hhalf : op.half? = none) :
      Step p (.refused op e) (spent op.fd)
  | answer {op c} (hhalf : op.half? ≠ none) (hctx : c.ctx = op.ctx) :
      Step (busy op) (.answered c) (answer op c.result)
  | closed {op c} (hhalf : op.half? = none) (hctx : c.ctx = op.ctx) : Step (closing op) (.answered c) free
  | cut {p j fd} (hfd : p.fd? = some fd) (hops : p.ops = []) : Step p (.closed j fd) free
  | letGo {p} : Step p .released p.letGo
  | aside {p e} (hmove : e.isMove = false) : Step p e p

variable {p p' : Phase} {e : Event} {fd : Int} {op : Op}

/-- Only one operation is outstanding at a time. -/
theorem ops_of_mem (h : op ∈ p.ops) : p.ops = [op] := by
  cases p with
  | busy op' | closing op' =>
    obtain rfl := List.mem_singleton.1 h
    rfl
  | _ => cases h

theorem ops_answer (op : Op) (result : Int32) : (answer op result).ops = [] := by
  unfold answer
  split
  · rfl
  · split <;> rfl
  · split <;> rfl

theorem of_rest? (h : p.rest? = some fd) : p.fd? = some fd ∧ p.ops = [] := by
  cases p <;> first | exact ⟨h, rfl⟩ | cases h

/-- What a phase goes to is one of the cases. -/
theorem step_of_next (hproper : p.Proper) (h : p.next e = some p') : Step p e p' ∧ p'.Proper := by
  unfold next at h
  -- one case for each event, and in it one for each phase that the event may find
  cases e with
  | bound i fd =>
    cases p with
    | free =>
      dsimp only at h
      split at h <;> cases h
      exact ⟨.bind ‹_›, trivial⟩
    | _ => cases h
  | hastened i fd =>
    cases p with
    | idle fd' last =>
      dsimp only at h
      split at h <;> cases h
      subst fd
      exact ⟨.setUp, trivial⟩
    | _ => cases h
  | began cell =>
    cases p with
    | idle fd last =>
      dsimp only at h
      split at h <;> cases h
      exact ⟨.begin ‹_›, trivial⟩
    | _ => cases h
  | hungUp i fd =>
    cases p with
    | busy op =>
      dsimp only at h
      split at h <;> cases h
      subst fd
      exact ⟨.hangUp rfl rfl, hproper⟩
    | due fd' half =>
      dsimp only at h
      split at h <;> cases h
      subst fd
      exact ⟨.hangUp rfl rfl, trivial⟩
    | _ => cases h
  | queued op =>
    dsimp only at h
    split at h
    · rename_i hhalf
      split at h <;> cases h
      exact ⟨.close ‹_› hhalf, hhalf⟩
    · rename_i half hhalf
      split at h <;> cases h
      subst p
      exact ⟨.take hhalf, by rw [Proper, hhalf]; exact nofun⟩
  | refused op e =>
    dsimp only at h
    split at h
    · rename_i hhalf
      split at h <;> cases h
      exact ⟨.refuseClose ‹_› hhalf, trivial⟩
    · rename_i half hhalf
      split at h <;> cases h
      subst p
      exact ⟨.refuse hhalf, trivial⟩
  | answered c =>
    cases p with
    | busy op =>
      dsimp only at h
      split at h <;> cases h
      refine ⟨.answer hproper ‹_›, ?_⟩
      unfold Phase.answer
      split
      · trivial
      · split <;> trivial
      · split <;> trivial
    | closing op =>
      have hanswer : Phase.answer op c.result = free := by rw [Phase.answer, show op.half? = none from hproper]
      dsimp only at h
      rw [hanswer] at h
      split at h <;> cases h
      exact ⟨.closed hproper ‹_›, trivial⟩
    | _ => cases h
  | closed j fd =>
    dsimp only at h
    split at h <;> cases h
    rename_i hfd
    rcases hfd with hrests | rfl
    · exact ⟨.cut (of_rest? hrests).1 (of_rest? hrests).2, trivial⟩
    · exact ⟨.cut rfl rfl, trivial⟩
  | released =>
    cases h
    exact ⟨.letGo, by cases p <;> trivial⟩
  | _ =>
    cases h
    exact ⟨.aside rfl, hproper⟩

end Phase

/-! ## Stretches of a record -/

/-- The phase that a record has led to from a phase, the latest event first. -/
def phaseFrom (start : Phase) : List Event → Option Phase
  | [] => some start
  | e :: h => (phaseFrom start h).bind (·.next e)

/-- The phase that a record has led to. -/
def phase : List Event → Option Phase := phaseFrom .free

theorem phaseFrom_cons {start p p' : Phase} {e : Event} {h : List Event} (hp : phaseFrom start h = some p)
    (hnext : p.next e = some p') : phaseFrom start (e :: h) = some p' := by
  rw [phaseFrom, hp]
  exact hnext

namespace Phase

/-- A record leads from a phase to another one, the latest event first. -/
inductive Steps (start : Phase) : List Event → Phase → Prop
  | nil : Steps start [] start
  | cons {p p' : Phase} {e : Event} {h : List Event} (before : Steps start h p) (step : Step p e p') :
    Steps start (e :: h) p'

namespace Steps

variable {start p : Phase} {h : List Event} {after before : List Event} {e : Event}

theorem of_phaseFrom (hproper : start.Proper) (hp : phaseFrom start h = some p) : Steps start h p ∧ p.Proper := by
  induction h generalizing p with
  | nil =>
    cases hp
    exact ⟨.nil, hproper⟩
  | cons e h ih =>
    obtain ⟨q, hq, hnext⟩ := Option.bind_eq_some_iff.1 hp
    obtain ⟨hsteps, hq'⟩ := ih hq
    obtain ⟨hstep, hp'⟩ := step_of_next hq' hnext
    exact ⟨hsteps.cons hstep, hp'⟩

theorem of_phase (hp : phase h = some p) : Steps .free h p := (@of_phaseFrom .free p h trivial hp).1

/-- A record may be read in two parts. -/
theorem split (hsteps : Steps start (after ++ before) p) : ∃ q, Steps start before q ∧ Steps q after p := by
  induction after generalizing p with
  | nil => exact ⟨p, hsteps, .nil⟩
  | cons e after ih =>
    cases hsteps with
    | cons hbefore hstep =>
      obtain ⟨q, hq, hafter⟩ := ih hbefore
      exact ⟨q, hq, hafter.cons hstep⟩

/-- An event of a record, with the phases around it. -/
theorem around (hsteps : Steps start (after ++ e :: before) p) :
    ∃ q r, Steps start before q ∧ Step q e r ∧ Steps r after p := by
  obtain ⟨r, hr, hafter⟩ := hsteps.split
  cases hr with
  | cons hbefore hstep => exact ⟨_, r, hbefore, hstep, hafter⟩

/-- What every event keeps, a record keeps, and what it tells of each event holds of all of them. -/
theorem keeps {I : Phase → Prop} {E J : Event → Prop} (hsteps : Steps start h p) (hstart : I start)
    (hall : ∀ e ∈ h, E e) (hkeeps : ∀ p e p', I p → E e → Step p e p' → I p' ∧ J e) : I p ∧ ∀ e ∈ h, J e := by
  induction hsteps with
  | nil => exact ⟨hstart, nofun⟩
  | cons before step ih =>
    obtain ⟨hI, hJ⟩ := ih fun e' he => hall e' (List.mem_cons_of_mem _ he)
    obtain ⟨hI', hJ'⟩ := hkeeps _ _ _ hI (hall _ (List.mem_cons_self ..)) step
    exact ⟨hI', fun e' he => (List.mem_cons.1 he).elim (fun h => h ▸ hJ') (hJ e')⟩

/-- The operations outstanding are those of the phase. -/
theorem outstanding_eq (hsteps : Steps start h p) (hstart : start.ops = []) : outstanding h = p.ops := by
  induction hsteps with
  | nil => exact hstart.symm
  | @cons p p' e h before step hops =>
    cases step with
    | take =>
      show outstanding h ++ [_] = _
      rw [hops]
      rfl
    | close hrests =>
      show outstanding h ++ [_] = _
      rw [hops, (of_rest? hrests).2]
      rfl
    | @answer op c _ hctx =>
      show (outstanding h).eraseP _ = _
      rw [hops, ops_answer]
      simp [ops, hctx]
    | @closed op c _ hctx =>
      show (outstanding h).eraseP _ = _
      rw [hops]
      simp [ops, hctx]
    | refuseClose hrests => exact hops.trans (of_rest? hrests).2
    | cut _ hnone => exact hops.trans hnone
    | letGo => cases p <;> rfl
    | aside hmove =>
      rw [← hops]
      cases e with
      | queued | answered | released => cases hmove
      | _ => rfl
    | _ => exact hops

end Steps

end Phase

/-- The operations outstanding are those of the phase. -/
theorem outstanding_of_phase {h : List Event} {p : Phase} (hp : phase h = some p) : outstanding h = p.ops :=
  (Phase.Steps.of_phase hp).outstanding_eq rfl

end SlotServer
