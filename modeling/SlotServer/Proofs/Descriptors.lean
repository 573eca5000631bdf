import SlotServer.Proofs.HonestRuns

/-!
# The life of a descriptor

From the moment a socket is bound to a slot until the next one is, the record of the slot is the life of one descriptor.
The phases of a record say what may follow on what, and every life is read off them.

- `Lived`: a life in which each operation waits for the one before it, and the descriptor is closed at most once and
  left alone after that;
- `Machine.Life`: a stretch of a slot's record that is the life of a descriptor;
- `HonestRun.lived`: under an honest kernel every life is such a one, and closes its descriptor once by its end.
-/

namespace SlotServer

variable {α : Type}

namespace Event

/-- The operation that the kernel was asked to take. -/
def op? : Event → Option Op
  | queued op | refused op _ => some op
  | _ => none

/-- The descriptor of a slot that was operated on, set up, shut or closed. -/
def descriptor? : Event → Option Int
  | queued op | refused op _ => some op.fd
  | hungUp _ fd | hastened _ fd | closed _ fd => some fd
  | _ => none

/-- A descriptor is closed: by an operation that the kernel took, or at once. -/
def closes : Event → Bool
  | queued op => op.half? = none
  | closed .. => true
  | _ => false

/-- After the events before it, the event ends a receive or send badly: a receive without a byte, a send with an error,
or either where the kernel did not take it. -/
def EndsBadly (before : List Event) : Event → Prop
  | answered c => ∃ op ∈ outstanding before, op.ctx = c.ctx ∧
      (op.half? = some .receive ∧ c.result ≤ 0 ∨ op.half? = some .send ∧ c.result < 0)
  | refused op _ => op.half? ≠ none
  | _ => False

end Event

/-- What the life of a descriptor is like, the latest event first. -/
structure Lived (fd : Int) (life : List Event) : Prop where
  /-- Everything is done to this descriptor. -/
  own : ∀ e ∈ life, ∀ fd', e.descriptor? = some fd' → fd' = fd
  /-- The kernel is asked to take an operation only after the one before it was answered. -/
  single : ∀ after e before, life = after ++ e :: before → e.op? ≠ none → outstanding before = []
  /-- Once the kernel's side was let go, nothing is asked of it. -/
  orphaned : ∀ after before, life = after ++ .released :: before → ∀ e ∈ after, e.op? = none
  /-- Between two receives there is a send. -/
  alternate : ∀ after second between first before,
    life = after ++ .queued second :: (between ++ .queued first :: before) →
      second.half? = some .receive → first.half? = some .receive → ∃ op, .queued op ∈ between ∧ op.half? = some .send
  /-- After one that ended badly, no receive or send is asked for. -/
  spoiled : ∀ after e before, life = after ++ e :: before → e.EndsBadly before →
    ∀ e' ∈ after, ∀ op, e'.op? = some op → op.half? = none
  /-- The descriptor is closed at most once. -/
  once : life.countP (·.closes) ≤ 1
  /-- After that nothing is done to it. -/
  left : ∀ after e before, life = after ++ e :: before → e.closes = true → ∀ e' ∈ after, e'.descriptor? = none

/-! ## What follows on a phase -/

namespace Phase

variable {p p' : Phase} {e : Event} {fd : Int}

/-- What moves no phase on is about no descriptor. -/
theorem descriptor?_of_aside (hmove : e.isMove = false) : e.descriptor? = none ∧ e.op? = none ∧ e.closes = false := by
  cases e <;> first | exact ⟨rfl, rfl, rfl⟩ | cases hmove

theorem fd?_answer {op : Op} (hhalf : op.half? ≠ none) (result : Int32) : (answer op result).fd? = some op.fd := by
  unfold answer
  split
  · exact absurd ‹_› hhalf
  · split <;> rfl
  · split <;> rfl

theorem isShut_answer {op : Op} (hhalf : op.half? ≠ none) (result : Int32) : (answer op result).isShut = false := by
  unfold answer
  split
  · exact absurd ‹_› hhalf
  · split <;> rfl
  · split <;> rfl

theorem unshut_of_unworn (hp : p.isWorn = false) : p.isShut = false := by
  cases p <;> first | rfl | cases hp

theorem unshut_of_rest? (hp : p.rest? = some fd) : p.isShut = false := by
  cases p <;> first | rfl | cases hp

theorem not_letGo_of_rest? (hp : p.rest? = some fd) : p.isLetGo = false := by
  cases p <;> first | rfl | cases hp

theorem unshut_of_fd? (hfd : p.fd? = some fd) (hops : p.ops = []) : p.isShut = false := by
  cases p with
  | free => cases hfd
  | closing op => cases hops
  | _ => rfl

namespace Step

/-- A phase keeps its descriptor until the next binding. -/
theorem own (h : Step p e p') (hbound : e.isBound = false) (hfd : ∀ fd', p.fd? = some fd' → fd' = fd) :
    (∀ fd', p'.fd? = some fd' → fd' = fd) ∧ ∀ fd', e.descriptor? = some fd' → fd' = fd := by
  cases h with
  | bind => cases hbound
  | setUp | take | refuse => exact ⟨hfd, hfd⟩
  | begin => exact ⟨hfd, nofun⟩
  | hangUp hp => exact ⟨hfd, fun fd' he => hfd fd' (hp.trans he)⟩
  | close hrests | refuseClose hrests =>
    have hsame : ∀ fd', some _ = some fd' → fd' = fd := fun fd' he => hfd fd' ((of_rest? hrests).1.trans he)
    exact ⟨hsame, hsame⟩
  | answer hhalf => exact ⟨fun fd' he => hfd fd' ((fd?_answer hhalf _).symm.trans he), nofun⟩
  | closed => exact ⟨nofun, nofun⟩
  | cut hp => exact ⟨nofun, fun fd' he => hfd fd' (hp.trans he)⟩
  | letGo => cases p <;> first | exact ⟨hfd, nofun⟩ | exact ⟨nofun, nofun⟩
  | aside hmove => exact ⟨hfd, fun fd' he => by rw [(descriptor?_of_aside hmove).1] at he; cases he⟩

/-- What is asked of the kernel is asked where nothing is outstanding. -/
theorem rests (h : Step p e p') (hop : e.op? ≠ none) : ∃ fd, p.rest? = some fd := by
  cases h with
  | take | refuse => exact ⟨_, rfl⟩
  | close hrests | refuseClose hrests => exact ⟨_, hrests⟩
  | aside hmove => exact absurd (descriptor?_of_aside hmove).2.1 hop
  | _ => exact absurd rfl hop

/-- Nothing is asked of a kernel whose side was let go. -/
theorem letGo_stays (h : Step p e p') (hbound : e.isBound = false) (hp : p.isLetGo = true) :
    p'.isLetGo = true ∧ e.op? = none := by
  cases h with
  | bind => cases hbound
  | hangUp => exact ⟨hp, rfl⟩
  | close hrests | refuseClose hrests =>
    rw [not_letGo_of_rest? hrests] at hp
    cases hp
  | cut => exact ⟨rfl, rfl⟩
  | letGo => cases p <;> exact ⟨rfl, rfl⟩
  | aside hmove => exact ⟨hp, (descriptor?_of_aside hmove).2.1⟩
  | _ => cases hp

/-- Nothing is done to a descriptor that is closed. -/
theorem shut_stays (h : Step p e p') (hbound : e.isBound = false) (hp : p.isShut = true) :
    p'.isShut = true ∧ e.descriptor? = none := by
  cases h with
  | bind => cases hbound
  | hangUp _ hfresh =>
    rw [unshut_of_unworn hfresh] at hp
    cases hp
  | close hrests | refuseClose hrests =>
    rw [unshut_of_rest? hrests] at hp
    cases hp
  | closed => exact ⟨rfl, rfl⟩
  | cut hfd hops =>
    rw [unshut_of_fd? hfd hops] at hp
    cases hp
  | letGo => cases p <;> first | exact ⟨rfl, rfl⟩ | cases hp
  | aside hmove => exact ⟨hp, (descriptor?_of_aside hmove).1⟩
  | _ => cases hp

/-- No receive or send follows where none may. -/
theorem worn_stays (h : Step p e p') (hbound : e.isBound = false) (hp : p.isWorn = true) :
    p'.isWorn = true ∧ ∀ op, e.op? = some op → op.half? = none := by
  cases h with
  | bind => cases hbound
  | hangUp => exact ⟨hp, nofun⟩
  | close _ hhalf | refuseClose _ hhalf => exact ⟨rfl, fun op he => by cases he; exact hhalf⟩
  | closed | cut => exact ⟨rfl, nofun⟩
  | letGo => cases p <;> exact ⟨rfl, nofun⟩
  | aside hmove => exact ⟨hp, fun op he => by rw [(descriptor?_of_aside hmove).2.1] at he; cases he⟩
  | _ => cases hp

/-- No receive follows before a send. -/
theorem sated_stays (h : Step p e p') (hbound : e.isBound = false) (hp : p.isSated = true)
    (hsend : ∀ op, e = .queued op → op.half? ≠ some .send) :
    p'.isSated = true ∧ ∀ op, e = .queued op → op.half? ≠ some .receive := by
  cases h with
  | bind => cases hbound
  | setUp | hangUp => exact ⟨hp, by rintro _ ⟨⟩⟩
  | @begin _ last cell hlast =>
    refine ⟨decide_eq_true ?_, by rintro _ ⟨⟩⟩
    cases hhalf : cell.half with
    | receive => exact absurd ⟨of_decide_eq_true hp, hhalf⟩ hlast
    | send => rfl
  | @take op half hhalf =>
    obtain rfl : half = .send := of_decide_eq_true hp
    exact absurd hhalf (hsend op rfl)
  | close _ hhalf => exact ⟨rfl, fun op he => by cases he; rw [hhalf]; decide⟩
  | @answer op c =>
    have hop : op.half? = some .receive := of_decide_eq_true hp
    refine ⟨?_, by rintro _ ⟨⟩⟩
    rw [Phase.answer, hop]
    dsimp only
    split <;> rfl
  | refuse | refuseClose | closed | cut => exact ⟨rfl, by rintro _ ⟨⟩⟩
  | letGo => cases p <;> exact ⟨rfl, by rintro _ ⟨⟩⟩
  | aside hmove => exact ⟨hp, fun op he => by cases he; cases hmove⟩

/-- A phase is shut by what closes its descriptor. -/
theorem shut (h : Step p e p') (hbound : e.isBound = false) :
    (if p'.isShut then 1 else 0) = (if p.isShut then 1 else 0) + if e.closes then 1 else 0 := by
  cases h with
  | bind => cases hbound
  | take hhalf => simp [Event.closes, isShut, hhalf]
  | close hrests hhalf =>
    rw [unshut_of_rest? hrests]
    simp [Event.closes, isShut, hhalf]
  | refuseClose hrests =>
    rw [unshut_of_rest? hrests]
    rfl
  | answer hhalf =>
    rw [isShut_answer hhalf]
    rfl
  | cut hfd hops =>
    rw [unshut_of_fd? hfd hops]
    rfl
  | letGo => cases p <;> rfl
  | aside hmove =>
    rw [(descriptor?_of_aside hmove).2.2]
    rfl
  | _ => rfl

end Step

/-! ## Lives -/

namespace Steps

variable {fd : Int} {start p : Phase} {life after before : List Event} {e : Event}

/-- A descriptor was closed once where the phase is shut, and not at all elsewhere. -/
theorem closings (h : Steps start life p) (hstart : start.isShut = false) (hbound : ∀ e ∈ life, e.isBound = false) :
    life.countP (·.closes) = if p.isShut then 1 else 0 := by
  induction h with
  | nil => rw [hstart]; rfl
  | cons before step ih =>
    rw [List.countP_cons, ih fun e he => hbound e (List.mem_cons_of_mem _ he)]
    exact (step.shut (hbound _ (List.mem_cons_self ..))).symm

/-- After an operation that ended badly no receive or send follows. -/
theorem worn_of_endsBadly {q r : Phase} (h : Steps start before q) (hstart : start.ops = []) (hstep : Step q e r)
    (hbad : e.EndsBadly before) : r.isWorn = true := by
  cases hstep with
  | @answer op c hhalf hctx =>
    obtain ⟨op', hop', -, hbad⟩ := hbad
    rw [h.outstanding_eq hstart] at hop'
    obtain rfl := List.mem_singleton.1 hop'
    rw [Phase.answer]
    rcases hbad with ⟨hreceive, hresult⟩ | ⟨hsend, hresult⟩
    · rw [hreceive, if_pos hresult]
      rfl
    · rw [hsend, if_pos hresult]
      rfl
  | refuse | refuseClose | closed => rfl
  | aside hmove =>
    cases e with
    | answered | refused => cases hmove
    | _ => cases hbad
  | _ => cases hbad

/-- A record that starts with a descriptor that was just bound, and binds no other, is a life. -/
theorem toLived (h : Steps (.idle fd none) life p) (hbound : ∀ e ∈ life, e.isBound = false) : Lived fd life where
  own := (h.keeps (I := fun p => ∀ fd', p.fd? = some fd' → fd' = fd) (fun fd' he => (Option.some.inj he).symm) hbound
    fun _ _ _ hI hE hs => hs.own hE hI).2
  single := by
    rintro after e before rfl hop
    obtain ⟨q, r, hq, hstep, -⟩ := h.around
    obtain ⟨fd', hrests⟩ := hstep.rests hop
    exact (hq.outstanding_eq rfl).trans (of_rest? hrests).2
  orphaned := by
    rintro after before rfl
    obtain ⟨q, r, -, hstep, hafter⟩ := h.around
    have hr : r.isLetGo = true := by
      cases hstep with
      | letGo => cases q <;> rfl
      | aside hmove => cases hmove
    exact (hafter.keeps (I := fun p => p.isLetGo = true) hr
      (fun e he => hbound e (List.mem_append_left _ he)) fun _ _ _ hI hE hs => hs.letGo_stays hE hI).2
  alternate := by
    rintro after second between first before rfl hsecond hfirst
    obtain ⟨q, _, hq, hstep, -⟩ := h.around
    obtain ⟨_, r, -, hstep', hbetween⟩ := hq.around
    have hr : r.isSated = true := by
      cases hstep' with
      | take => exact decide_eq_true hfirst
      | close => rfl
      | aside hmove => cases hmove
    -- without a send in between the phase stays sated, and a sated phase takes no receive
    refine Classical.byContradiction fun hnone => ?_
    obtain ⟨hsated, -⟩ := hbetween.keeps (I := fun p => p.isSated = true) (J := fun _ => True)
      (E := fun e => e.isBound = false ∧ ∀ op, e = .queued op → op.half? ≠ some .send) hr
      (fun e he => ⟨hbound e (by simp [he]), fun op hop hsend => hnone ⟨op, hop ▸ he, hsend⟩⟩)
      fun _ _ _ hI hE hs => ⟨(hs.sated_stays hE.1 hI hE.2).1, trivial⟩
    exact (hstep.sated_stays rfl hsated fun op hop hsend => by cases hop; rw [hsecond] at hsend; cases hsend).2 _ rfl
      hsecond
  spoiled := by
    rintro after e before rfl hbad
    obtain ⟨q, r, hq, hstep, hafter⟩ := h.around
    exact (hafter.keeps (I := fun p => p.isWorn = true) (hq.worn_of_endsBadly rfl hstep hbad)
      (fun e he => hbound e (List.mem_append_left _ he)) fun _ _ _ hI hE hs => hs.worn_stays hE hI).2
  once := by
    rw [h.closings rfl hbound]
    split
    · exact Nat.le_refl 1
    · exact Nat.zero_le 1
  left := by
    rintro after e before rfl hcloses
    obtain ⟨q, r, -, hstep, hafter⟩ := h.around
    have hr : r.isShut = true := by
      have hshut := hstep.shut (hbound e (by simp))
      rw [if_pos hcloses] at hshut
      cases hshut' : r.isShut with
      | true => rfl
      | false =>
        rw [hshut'] at hshut
        cases hshut
    exact (hafter.keeps (I := fun p => p.isShut = true) hr
      (fun e he => hbound e (List.mem_append_left _ he)) fun _ _ _ hI hE hs => hs.shut_stays hE hI).2

end Steps

end Phase

/-! ## Runs -/

/-- A stretch of a slot's record that is the life of a descriptor: from its binding to the next one of the slot, if
there is one yet. -/
structure Machine.Life (m : Machine α) (i : Nat) (fd : Int) (life later : List Event) : Prop where
  parts : ∃ earlier, m.history i = later ++ (life ++ .bound i fd :: earlier)
  own : ∀ e ∈ life, e.isBound = false
  next : later = [] ∨ ∃ rest fd', later = rest ++ [.bound i fd']

/-- Under an honest kernel a descriptor lives as it should, and it has been closed once by the time that its slot is
free of it. -/
theorem HonestRun.lived {serve : Run.Serve α} {m : Machine α} {i : Nat} {fd : Int} {life later : List Event}
    (hserve : Modest serve) (h : HonestRun serve m) (hlife : m.Life i fd life later) :
    Lived fd life ∧ (later ≠ [] ∨ (∃ s, m.worker.slots[i]? = some s ∧ s.state = .disconnected) →
      life.countP (·.closes) = 1) := by
  obtain ⟨earlier, hparts⟩ := hlife.parts
  rcases h.resting hserve i with ⟨s, hcalm, -⟩ | habsent
  case inr =>
    have hmem : Event.bound i fd ∈ m.history i := by rw [hparts]; simp
    cases habsent.unbound _ hmem
  obtain ⟨p, hp, hstage⟩ := hcalm.stage
  have hsteps := Phase.Steps.of_phase hp
  rw [show (m.view [] i).history = m.history i from rfl, hparts] at hsteps
  obtain ⟨q, hq, hlater⟩ := hsteps.split
  obtain ⟨_, r, -, hbind, hsteps⟩ := hq.around
  obtain rfl : r = .idle fd none := by
    cases hbind with
    | bind => rfl
    | aside hmove => cases hmove
  refine ⟨hsteps.toLived hlife.own, fun hover => ?_⟩
  have hfree : q = .free := by
    rcases hlife.next with rfl | ⟨rest, fd', rfl⟩
    · rcases hover with hne | ⟨s', hs', hstate⟩
      · exact absurd rfl hne
      · obtain rfl : s = s' := Option.some.inj (hcalm.here.symm.trans hs')
        rw [Stage, hstate] at hstage
        cases hlater
        exact hstage.1
    · obtain ⟨_, _, hnil, hbind, -⟩ := hlater.around
      cases hnil
      cases hbind with
      | bind => rfl
      | aside hmove => cases hmove
  rw [hsteps.closings rfl hlife.own, hfree]
  rfl

theorem HonestRun.lived_forced : ∃ m life,
    Machine.small?.bind (·.after? Application.serve [.assign 5 none, .command, .deed 0 .receive, .command, .finish]) =
      some m ∧ m.history 0 = life ++ [.bound 0 5] ∧ Lived 5 life ∧ life.countP (·.closes) = 1 := by
  have hany : (Machine.small?.bind
      (·.after? Application.serve [.assign 5 none, .command, .deed 0 .receive, .command, .finish])).any
        (fun m => m.worker.slots[0]?.any (fun s => s.state = .disconnected) &&
          m.history 0 = [.closed (some 0) 5, .released, .queued (.receive (.ofSlot 0) 5 0 1 0), .began ⟨0, .receive⟩,
            .served 0] ++ [.bound 0 5]) = true := by decide +kernel
  obtain ⟨m, hafter, hshape⟩ := (Option.any_eq_true ..).1 hany
  obtain ⟨hstate, hhistory⟩ := Bool.and_eq_true_iff.1 hshape
  obtain ⟨s, hs, hstate⟩ := (Option.any_eq_true ..).1 hstate
  replace hhistory := of_decide_eq_true hhistory
  have hlife : m.Life 0 5 [.closed (some 0) 5, .released, .queued (.receive (.ofSlot 0) 5 0 1 0),
      .began ⟨0, .receive⟩, .served 0] [] :=
    { parts := ⟨[], hhistory⟩
      own := by decide
      next := .inl rfl }
  obtain ⟨hlived, honce⟩ := HonestRun.lived Application.modest_serve (HonestRun.of_built hafter) hlife
  exact ⟨m, _, hafter, hhistory, hlived, honce (.inr ⟨s, hs, of_decide_eq_true hstate⟩)⟩

end SlotServer
