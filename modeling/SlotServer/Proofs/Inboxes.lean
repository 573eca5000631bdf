import SlotServer.Proofs.Acts
import SlotServer.Proofs.LateCalls
import SlotServer.Proofs.Strides

/-!
# Inboxes are never full

Whoever hands a command over tries again and again until the inbox has a place. The dispatch loop hands commands over
itself, so a full inbox would be its end. No slot has ever two commands in the inbox, so half of the places stay empty.

- `Machine.Uncrowded`: the inbox has no two commands of one slot;
- `Act.Stalls`: a row of acts comes to one that finds no place. A call makes at most one try
  (`Act.not_stalls_assign`, `Act.not_stalls_deed`);
- `Carries`: the first command is carried out, then the next one, and so on;
- `Machine.Empties`: a turn carries out at most two commands of each slot, and then the inbox is empty;
- `WildRun.spacious`: what holds of the inbox in every run.
-/

namespace SlotServer

variable {α β γ : Type}

/-- The inbox has no two commands of one slot. So half of its places are empty. -/
structure Machine.Uncrowded (m : Machine α) : Prop where
  single : (m.worker.inbox.map (·.slot)).Nodup
  present : ∀ c ∈ m.worker.inbox, c.slot < m.worker.slots.length
  half : 2 * m.worker.inbox.length ≤ m.worker.inboxCapacity

namespace Machine

variable {m : Machine α}

theorem All.uncrowded (h : m.All Afloat []) : m.Uncrowded where
  single := List.nodup_iff_count.2 fun j => by
    rw [m.count_inbox []]
    exact (h j).few.commands.1
  present c hc := Decidable.byContradiction fun habsent => by
    have hnone : (m.view [] c.slot).commands = [] :=
      (h c.slot).few.commands.2 (List.getElem?_eq_none (Nat.le_of_not_lt habsent))
    have hmem : c ∈ (m.view [] c.slot).commands := List.mem_filter.2 ⟨hc, decide_eq_true rfl⟩
    rw [hnone] at hmem
    exact List.not_mem_nil hmem
  half := Nat.mul_le_mul_left 2 h.length_inbox

/-- Where there is a slot, there is a place for a command. -/
theorem Uncrowded.room (h : m.Uncrowded) (hslots : 0 < m.worker.slots.length) : m.worker.inboxFull = false := by
  have hhalf := h.half
  unfold Worker.inboxCapacity at hhalf
  refine decide_eq_false ?_
  unfold Worker.inboxCapacity
  omega

end Machine

/-! ## Handing commands over -/

namespace Act

/-- A row of acts comes to one that finds no place in the inbox. -/
inductive Stalls : List Act → Machine α → Prop
  | here (c : Command) (rest : List Act) (m : Machine α) : Stalls (.stall c :: rest) m
  | later {a : Act} {rest more : List Act} {marks : List Mark} {m m₁ : Machine α}
    (hrun : a.run m = .ok (more, marks) m₁) (h : Stalls (more ++ rest) m₁) : Stalls (a :: rest) m

/-- The act puts a command into the inbox, or may leave that to be done. -/
def handsOver : Act → Bool
  | .assign .. | .bind .. | .receive _ | .send .. | .leave _ | .disconnect _ | .push _ | .stall _ => true
  | .poll .. | .release _ | .ring | .look | .pop | .fail _ | .close _ | .complete .. | .exit | .retract
  | .force .. => false

/-- None of the acts puts a command into the inbox. -/
def Quiets (acts : List Act) : Prop := ∀ a ∈ acts, a.handsOver = false

/-- The program answers with acts that put nothing into the inbox. -/
def AnswersQuiets (x : Run α (List Act × List Mark)) : Prop := ∀ m answer m', x m = .ok answer m' → Quiets answer.1

namespace AnswersQuiets

theorem pure {acts : List Act} (h : Quiets acts) (marks : List Mark) :
    AnswersQuiets (Pure.pure (acts, marks) : Run α (List Act × List Mark)) := fun _ _ _ hrun => by
  cases hrun
  exact h

theorem bind (x : Run α β) {k : β → Run α (List Act × List Mark)} (hk : ∀ b, AnswersQuiets (k b)) :
    AnswersQuiets (x >>= k) := fun _ answer m' hrun => by
  obtain ⟨b, m₁, -, hrest⟩ := Run.of_bind hrun
  exact hk b m₁ answer m' hrest

end AnswersQuiets

theorem quiets_nil : Quiets [] := nofun

theorem answersQuiets_failHalf (half : Half) (i : Nat) :
    AnswersQuiets (Act.failHalf half i : Run α (List Act × List Mark)) := by
  refine .bind _ fun answer => ?_
  cases answer with
  | error e => exact .pure quiets_nil _
  | ok _ => exact .pure (by simp [Quiets, handsOver]) _

/-- An act that puts nothing into the inbox leaves only such acts to be done. -/
theorem answersQuiets_run {a : Act} (h : a.handsOver = false) :
    AnswersQuiets (a.run : Run α (List Act × List Mark)) := by
  cases a with
  | poll cell waker => exact .bind _ fun _ => .pure quiets_nil _
  | release i => exact .bind _ fun _ => .pure quiets_nil _
  | ring =>
    refine .bind _ fun answer => ?_
    cases answer with
    | error e => exact .bind _ fun _ => .pure quiets_nil _
    | ok _ => exact .pure quiets_nil _
  | look =>
    refine .bind _ fun w => ?_
    split
    · exact .pure (by simp [Quiets, handsOver]) _
    · exact .pure quiets_nil _
  | pop =>
    refine .bind _ fun first => ?_
    cases first with
    | none => exact .pure quiets_nil _
    | some c => exact .pure (by simp [Quiets, handsOver]) _
  | fail c =>
    refine .bind _ fun _ => ?_
    cases c with
    | accept i =>
      refine .bind _ fun answer => ?_
      cases answer with
      | error e => exact .pure quiets_nil _
      | ok _ => exact .pure (by simp [Quiets, handsOver]) _
    | receive i => exact answersQuiets_failHalf .receive i
    | send i => exact answersQuiets_failHalf .send i
    | disconnect i => exact .pure (by simp [Quiets, handsOver]) _
  | close i => exact .bind _ fun _ => .bind _ fun _ => .pure quiets_nil _
  | complete i half => exact .bind _ fun _ => .bind _ fun _ => .pure quiets_nil _
  | exit => exact .bind _ fun _ => .pure (by simp [Quiets, handsOver]) _
  | retract => exact .bind _ fun _ => .bind _ fun _ => .pure (by simp [Quiets, handsOver]) _
  | force left forced =>
    cases left with
    | nil => exact .bind _ fun _ => .bind _ fun _ => .pure quiets_nil _
    | cons i left => exact .bind _ fun _ => .bind _ fun _ => .pure (by simp [Quiets, handsOver]) _
  | _ => cases h

variable {m : Machine α} {i : Nat}

/-- A row of acts that put nothing into the inbox never lacks a place. -/
theorem not_stalls_of_quiets {acts : List Act} (h : Quiets acts) : ¬Stalls acts m := by
  intro hstalls
  induction hstalls with
  | here c rest m => cases h _ (List.mem_cons_self ..)
  | later hrun _ ih =>
    obtain ⟨hfirst, hrest⟩ := List.forall_mem_cons.1 h
    have hmore := answersQuiets_run hfirst _ _ _ hrun
    exact ih fun a ha => (List.mem_append.1 ha).elim (hmore a) (hrest a)

/-- Whether a row lacks a place is seen from what its first act leaves to be done. -/
theorem not_stalls_cons {a : Act} {rest : List Act} (hfirst : ∀ c, a ≠ .stall c)
    (h : ∀ answer m₁, a.run m = .ok answer m₁ → ¬Stalls (answer.1 ++ rest) m₁) : ¬Stalls (a :: rest) m := by
  intro hstalls
  cases hstalls with
  | here c => exact hfirst c rfl
  | later hrun hmore => exact h _ _ hrun hmore

/-- Where there is a place, the first try is the last. -/
theorem not_stalls_push {c : Command} {rest : List Act} (hroom : m.worker.inboxFull = false) (hrest : Quiets rest) :
    ¬Stalls (.push c :: rest) m := by
  refine not_stalls_cons nofun fun answer m₁ hrun => ?_
  have hplace : (Run.enqueue c : Run α Bool) m =
      .ok true { m with worker := { m.worker with inbox := m.worker.inbox ++ [c] } } := by
    rw [Run.enqueue_run, hroom, if_neg Bool.false_ne_true]
  replace hrun := (Run.bind_run hplace).symm.trans hrun
  cases hrun
  have hmore : Quiets [ring, look] := by simp [Quiets, handsOver]
  exact not_stalls_of_quiets fun a ha => (List.mem_append.1 ha).elim (hmore a) (hrest a)

/-- A step that a slot takes leaves the room in the inbox as it is. -/
theorem room_of_stepSlot {f : Slot.Step β} {b : β} {m₁ : Machine α} (h : m.Uncrowded)
    (hrun : Run.stepSlot i f m = .ok (.ok b) m₁) : m₁.worker.inboxFull = false := by
  cases hs : m.worker.slots[i]? with
  | none =>
    rw [Run.stepSlot_run_none hs] at hrun
    cases hrun
  | some s =>
    have hroom := h.room (Nat.zero_lt_of_lt (List.getElem?_eq_some_iff.1 hs).1)
    rw [Run.stepSlot_run hs] at hrun
    injection hrun with _ hafter
    subst hafter
    unfold Worker.inboxFull Worker.inboxCapacity at hroom ⊢
    rw [Worker.setSlot, List.length_set]
    exact hroom

/-- Where the socket is bound to a slot, there is a place for its command. -/
theorem not_stalls_bind {fd : Int} {peer : Option Net.SocketAddress} (h : m.Uncrowded) :
    ¬Stalls [.bind i fd peer] m := by
  refine not_stalls_cons nofun fun answer m₁ hrun => ?_
  obtain ⟨bound, m₂, hbound, hrest⟩ := Run.of_bind hrun
  cases bound with
  | error e =>
    obtain ⟨⟨⟩, m₃, -, hrest⟩ := Run.of_bind hrest
    obtain ⟨⟨⟩, m₄, -, hrest⟩ := Run.of_bind hrest
    cases hrest
    exact not_stalls_of_quiets quiets_nil
  | ok _ =>
    cases hrest
    refine not_stalls_push ?_ quiets_nil
    obtain ⟨s?, m₂, hslot, hrest⟩ := Run.of_bind hbound
    cases hslot
    split at hrest
    · cases hrest
    · obtain ⟨started, m₂, hstart, hrest⟩ := Run.of_bind hrest
      cases started with
      | error e =>
        obtain ⟨⟨⟩, m₃, -, hrest⟩ := Run.of_bind hrest
        cases hrest
      | ok _ =>
        obtain ⟨⟨⟩, m₃, hrecord, hrest⟩ := Run.of_bind hrest
        cases hrecord
        cases hrest
        have hroom : m₂.worker.inboxFull = false := room_of_stepSlot h hstart
        exact hroom

/-- An acceptor always finds a place for the command of a new socket. -/
theorem not_stalls_assign (fd : Int) (peer : Option Net.SocketAddress) (h : m.Uncrowded) :
    ¬Stalls [.assign fd peer] m := by
  refine not_stalls_cons nofun fun answer m₁ hrun => ?_
  obtain ⟨taken, m₂, htaken, hrest⟩ := Run.of_bind hrun
  cases taken with
  | none =>
    obtain ⟨⟨⟩, m₃, -, hrest⟩ := Run.of_bind hrest
    obtain ⟨⟨⟩, m₄, -, hrest⟩ := Run.of_bind hrest
    cases hrest
    exact not_stalls_of_quiets quiets_nil
  | some i =>
    cases hrest
    obtain ⟨free, -, rfl⟩ := acquire_some htaken
    exact not_stalls_bind ⟨h.single, h.present, h.half⟩

/-- An operation that begins always finds a place for its command. -/
theorem not_stalls_start (length : Nat) (half : Half) (h : m.Uncrowded) : ¬Stalls [start i length half] m := by
  refine not_stalls_cons (by cases half <;> exact nofun) fun answer m₁ hrun => ?_
  cases half with
  | receive =>
    obtain ⟨started, m₂, hstart, hrest⟩ := Run.of_bind hrun
    cases started with
    | error e =>
      cases hrest
      exact not_stalls_of_quiets quiets_nil
    | ok _ =>
      obtain ⟨⟨⟩, m₃, hrecord, hrest⟩ := Run.of_bind hrest
      cases hrecord
      cases hrest
      have hroom : m₂.worker.inboxFull = false := room_of_stepSlot h hstart
      exact not_stalls_push hroom quiets_nil
  | send =>
    obtain ⟨started, m₂, hstart, hrest⟩ := Run.of_bind hrun
    cases started with
    | error e =>
      cases hrest
      exact not_stalls_of_quiets quiets_nil
    | ok _ =>
      obtain ⟨⟨⟩, m₃, hrecord, hrest⟩ := Run.of_bind hrest
      obtain ⟨⟨⟩, m₄, hrecord', hrest⟩ := Run.of_bind hrest
      cases hrecord
      cases hrecord'
      cases hrest
      have hroom : m₂.worker.inboxFull = false := room_of_stepSlot h hstart
      exact not_stalls_push hroom quiets_nil

/-- A handle that goes away always finds a place for the command of the close. -/
theorem not_stalls_leave (h : m.Uncrowded) : ¬Stalls [.leave i] m := by
  refine not_stalls_cons nofun fun answer m₁ hrun => ?_
  change (if i ∈ m.held then letGo i else pure ([], []) : Run α (List Act × List Mark)) m = _ at hrun
  split at hrun
  case isFalse =>
    cases hrun
    exact not_stalls_of_quiets quiets_nil
  obtain ⟨⟨⟩, m₂, herase, hrest⟩ := Run.of_bind hrun
  cases herase
  obtain ⟨s?, m₂, hslot, hrest⟩ := Run.of_bind hrest
  cases hslot
  split at hrest
  case isFalse =>
    cases hrest
    exact not_stalls_of_quiets quiets_nil
  obtain ⟨⟨⟩, m₂, hdetach, hrest⟩ := Run.of_bind hrest
  cases hdetach
  cases hrest
  have hleft : ({ m with
      held := m.held.erase i
      worker := { m.worker with slots := m.worker.slots.modify i Slot.detach } } : Machine α).Uncrowded :=
    ⟨h.single, fun c hc => by rw [List.length_modify]; exact h.present c hc, by
      unfold Worker.inboxCapacity
      rw [List.length_modify]
      exact h.half⟩
  refine not_stalls_cons nofun fun answer m₂ hrun => ?_
  obtain ⟨started, m₃, hstart, hrest⟩ := Run.of_bind hrun
  cases started with
  | error e =>
    cases hrest
    exact not_stalls_of_quiets (by simp [Quiets, handsOver])
  | ok _ =>
    cases hrest
    exact not_stalls_push (room_of_stepSlot hleft hstart) (by simp [Quiets, handsOver])

end Act

/-- What a call of a handle does besides reading and writing bytes. -/
def Deed.acts (i : Nat) : Deed → List Act
  | receive => [.receive i]
  | send length => [.send i length]
  | poll half waker => [.poll ⟨i, half⟩ waker]
  | drop => [.leave i]
  | readReceived | readSend | fill _ => []

/-- A call always finds a place for its command. -/
theorem Act.not_stalls_deed {m : Machine α} (i : Nat) (d : Deed) (h : m.Uncrowded) : ¬Stalls (d.acts i) m := by
  cases d with
  | receive => exact not_stalls_start 0 .receive h
  | send length => exact not_stalls_start length .send h
  | poll half waker => exact not_stalls_of_quiets (by simp [Quiets, Deed.acts, handsOver])
  | drop => exact not_stalls_leave h
  | _ => exact not_stalls_of_quiets quiets_nil

namespace Run.KeepsInbox

theorem bytes (seg : Segment) : KeepsInbox (Connection.bytes seg : Run α (List UInt8)) :=
  bind worker fun _ => ofExcept _

theorem received (i : Nat) : KeepsInbox (Connection.received i : Run α (List UInt8)) :=
  bind (slot? i) fun s? => by
    cases s? with
    | none => exact pure _
    | some s => exact bytes _

theorem sendBuffer (i : Nat) : KeepsInbox (Connection.sendBuffer i : Run α (List UInt8)) :=
  bind (slot? i) fun s? => by
    cases s? with
    | none => exact pure _
    | some s => exact bytes _

theorem fill (i : Nat) (data : Array UInt8) : KeepsInbox (Connection.fill i data : Run α (Nat × Nat)) :=
  bind (slot? i) fun s? => by
    cases s? with
    | none => exact pure _
    | some s => exact bind worker fun _ => bind (ofExcept _) fun _ => bind (modifyWorker fun _ => rfl) fun _ => pure _

end Run.KeepsInbox

/-- A call does its acts, but for the bytes that it reads or writes. -/
theorem Act.Does.deed {i : Nat} {d : Deed} {m m' : Machine α} (hheld : i ∈ m.held) (hrun : d.run i m = .ok () m') :
    ∃ m₁, Act.Does (d.acts i) m m₁ ∧ m₁.worker.inbox = m'.worker.inbox := by
  cases d with
  | drop => exact ⟨m', drop hheld hrun, rfl⟩
  | receive =>
    obtain ⟨answer, m₁, hcall, hrest⟩ := Run.of_bind hrun
    cases hrest
    exact ⟨m', receive hcall, rfl⟩
  | send length =>
    obtain ⟨answer, m₁, hcall, hrest⟩ := Run.of_bind hrun
    cases hrest
    exact ⟨m', send hcall, rfl⟩
  | poll half waker =>
    obtain ⟨answer, m₁, hcall, hrest⟩ := Run.of_bind hrun
    cases hrest
    exact ⟨m', last (Run.bind_run (Run.bind_run hcall)), rfl⟩
  | readReceived =>
    obtain ⟨answer, m₁, hcall, hrest⟩ := Run.of_bind hrun
    cases hrest
    exact ⟨m, nil m, (Run.KeepsInbox.received i m answer m' hcall).symm⟩
  | readSend =>
    obtain ⟨answer, m₁, hcall, hrest⟩ := Run.of_bind hrun
    cases hrest
    exact ⟨m, nil m, (Run.KeepsInbox.sendBuffer i m answer m' hcall).symm⟩
  | fill data =>
    obtain ⟨answer, m₁, hcall, hrest⟩ := Run.of_bind hrun
    cases hrest
    exact ⟨m, nil m, (Run.KeepsInbox.fill i data m answer m' hcall).symm⟩

/-- The program does some acts, as far as the inbox goes, and none of them has to be tried again. -/
def Act.Prompt (acts : List Act) (x : Run α β) (m : Machine α) : Prop :=
  ∃ b m' m₁, x m = .ok b m' ∧ Act.Does acts m m₁ ∧ m₁.worker.inbox = m'.worker.inbox ∧ ¬Act.Stalls acts m

/-! ## Carrying commands out -/

section Carrying

variable {serve : Run.Serve α} {m m' : Machine α} {cs : List Command}

/-- Commands are carried out one after the other. Each is the first one in the inbox when it is taken out. -/
inductive Carries (serve : Run.Serve α) : Machine α → List Command → Machine α → Prop
  | nil (m : Machine α) : Carries serve m [] m
  | cons {c : Command} {inbox cs : List Command} {m m₁ m' : Machine α} (hinbox : m.worker.inbox = c :: inbox)
    (hrun : Run.execute serve c { m with worker := { m.worker with inbox } } = .ok () m₁)
    (rest : Carries serve m₁ cs m') : Carries serve m (c :: cs) m'

/-- The loop of a turn carries commands out, and counts them. -/
theorem Carries.of_executeUpTo {n count : Nat} (hrun : Run.executeUpTo serve n m = .ok count m') :
    ∃ cs, Carries serve m cs m' ∧ cs.length = count := by
  induction n generalizing m count with
  | zero =>
    cases hrun
    exact ⟨[], .nil m', rfl⟩
  | succ n ih =>
    obtain ⟨first, m₁, hpop, hrest⟩ := Run.of_bind hrun
    rw [Act.Does.popCommand_run] at hpop
    split at hpop
    · cases hpop
      cases hrest
      exact ⟨[], .nil m', rfl⟩
    · rename_i c inbox hinbox
      cases hpop
      obtain ⟨⟨⟩, m₂, hexecute, hrest⟩ := Run.of_bind hrest
      obtain ⟨others, m₃, hothers, hrest⟩ := Run.of_bind hrest
      cases hrest
      obtain ⟨cs, hcarries, hlength⟩ := ih hothers
      exact ⟨c :: cs, .cons hinbox hexecute hcarries, congrArg (· + 1) hlength⟩

/-- Commands that are carried out leave the slots as within a turn. For each slot there was as much to be done as
commands were carried out and as there is left. -/
theorem Carries.afloat (hserve : Modest serve) (h : m.All Afloat []) (hexited : m.worker.exited = false)
    (hcarries : Carries serve m cs m') : m'.All Afloat [] ∧ m'.worker.exited = false ∧
      ∀ i, cs.countP (·.slot = i) + load (m'.view [] i).commands ≤ load (m.view [] i).commands := by
  induction hcarries with
  | nil m => exact ⟨h, hexited, fun i => Nat.le_of_eq (Nat.zero_add _)⟩
  | @cons c _ cs m m₁ m' hinbox hrun _ ih =>
    obtain ⟨⟨h₁, hexited₁⟩, hless, hframe⟩ := (execute_afloat hserve h hexited hinbox).of_ok hrun
    obtain ⟨h', hexited', hload⟩ := ih h₁ hexited₁
    refine ⟨h', hexited', fun i => ?_⟩
    have hrest := hload i
    rw [List.countP_cons]
    by_cases hi : c.slot = i
    · subst hi
      rw [if_pos (decide_eq_true rfl)]
      omega
    · rw [if_neg fun h => hi (of_decide_eq_true h)]
      rw [hframe i fun h => hi h.symm] at hrest
      exact hrest

/-- Whatever its handlers do, a worker carries out at most two commands of each slot, up to an empty inbox. What holds
after some commands holds within a handler too: one that stops after any of its calls is a handler as well. -/
structure Machine.Empties (m : Machine α) : Prop where
  rows : ∀ serve : Run.Serve α, Modest serve → ∀ cs m', Carries serve m cs m' →
    m'.Uncrowded ∧ (∀ i (d : Deed), ¬Act.Stalls (d.acts i) m') ∧ ∀ i, cs.countP (·.slot = i) ≤ 2
  ends : ∀ serve : Run.Serve α, Modest serve → ∃ cs m', Run.drainInbox serve m = .ok cs.length m' ∧
    Carries serve m cs m' ∧ m'.worker.inbox = []

theorem Machine.All.empties (h : m.All Afloat []) (hexited : m.worker.exited = false) : m.Empties where
  rows serve hserve cs m' hcarries := by
    obtain ⟨h', -, hload⟩ := hcarries.afloat hserve h hexited
    refine ⟨h'.uncrowded, fun i d => Act.not_stalls_deed i d h'.uncrowded, fun i => ?_⟩
    have hfew := (h i).few.commands.1
    have hle := load_le (m.view [] i).commands
    have hcount := hload i
    omega
  ends serve hserve := by
    obtain ⟨count, m', hrun, -, -, hnil⟩ := (executeUpTo_afloat hserve h hexited h.load_inbox).comes
    obtain ⟨cs, hcarries, rfl⟩ := Carries.of_executeUpTo hrun
    exact ⟨cs, m', Run.bind_run (x := Run.worker) (b := m.worker) rfl |>.trans hrun, hcarries, hnil⟩

theorem Machine.Empties.inbox_nil (h : m.Empties) (hserve : Modest serve) {count : Nat}
    (hrun : Run.drainInbox serve m = .ok count m') : m'.worker.inbox = [] := by
  obtain ⟨cs, m₁, hdrain, -, hnil⟩ := h.ends serve hserve
  rw [hrun] at hdrain
  cases hdrain
  exact hnil

end Carrying

/-! ## Turns -/

namespace Run

variable {serve : Serve α} {block : Bool} {m m' : Machine α}

/-- Where the drain is not over, nothing was done to find that out. -/
theorem of_drained_false (hrun : drained m = .ok false m') : m' = m := by
  obtain ⟨w, m₁, hworker, hrest⟩ := of_bind hrun
  cases hworker
  cases hdeadline : m.worker.deadline with
  | none =>
    rw [hdeadline] at hrest
    cases hrest
    rfl
  | some deadline =>
    rw [hdeadline] at hrest
    obtain ⟨count, m₁, hcount, hrest⟩ := of_bind hrest
    cases hcount
    obtain ⟨w, m₁, hworker, hrest⟩ := of_bind hrest
    cases hworker
    split at hrest
    · cases hrest
    · obtain ⟨m₂, m₁, hget, hrest⟩ := of_bind hrest
      cases hget
      split at hrest
      · obtain ⟨⟨⟩, m₁, -, hrest⟩ := of_bind hrest
        cases hrest
      · cases hrest
        rfl

/-- A turn that goes on takes completions in, empties the inbox, and may rest. -/
theorem of_turn_true (hrun : turn serve block m = .ok true m') :
    ∃ m₁ completed m₂ commands m₃, openTurn m = .ok () m₁ ∧ drained m₁ = .ok false m₁ ∧
      takeIn block m₁ = .ok completed m₂ ∧ drainInbox serve m₂ = .ok commands m₃ ∧
      (m' = m₃ ∨ rest m₃ = .ok () m') := by
  obtain ⟨m₁, done, m₁', hopen, hdone, hrest⟩ := of_turn hrun
  cases done with
  | true => cases hrest
  | false =>
    obtain rfl := of_drained_false hdone
    obtain ⟨-, completed, m₂, commands, m₃, htaken, hdrain, hslept⟩ := steps_of_goOn hrest
    exact ⟨m₁', completed, m₂, commands, m₃, hopen, hdone, htaken, hdrain, hslept⟩

end Run

/-- Completions are taken in, and the slots are as within a turn. -/
theorem Regime.takeIn {serve : Run.Serve α} (G : Regime serve) {m : Machine α} (block : Bool) (h : m.All G.rest [])
    (hexited : m.worker.exited = false) : Holds G.faults (Run.takeIn block : Run α Nat) m fun _ m' =>
      m'.All G.busy [] ∧ m'.worker.exited = false := by
  refine Holds.bind (Holds.still still_arm fun _ m₁ hview₁ => ?_)
  refine Holds.bind (Holds.still (still_submitQueue block) fun _ m₂ hview₂ => ?_)
  have hview : ∀ j, m₂.view [] j = m.view [] j := fun j => by rw [hview₂, hview₁]
  have hexited₂ : m₂.worker.exited = false := (congrArg View.exited (hview 0)).trans hexited
  exact Holds.bind (Holds.get (G.harvestUpTo _ (fun j => G.work (by rw [hview]; exact h j) hexited₂) hexited₂))

/-- Whoever hands a command to a worker finds a place for it at once, and the dispatch loop empties the inbox. -/
structure Machine.Spacious (serve : Run.Serve α) (m : Machine α) : Prop where
  uncrowded : m.Uncrowded
  /-- Nobody puts a command into the inbox for good once the loop has come to its end. -/
  ended : m.worker.exited = true → m.worker.inbox = []
  offers : ∀ fd peer, 0 ≤ fd → Act.Prompt [.assign fd peer] (Run.assign fd peer) m
  calls : ∀ i (d : Deed), i ∈ m.held → Act.Prompt (d.acts i) (d.run i) m
  teardown : m.worker.exited = false → Act.Prompt [.exit] Run.finish m
  /-- No move is at fault, but for a drain whose end no clock can tell. In particular no handler that a turn starts
  waits for a place: with the loop there, that would be a fault. -/
  moves : ∀ move : Move, move.isWhole = true → move.Allowed m → ¬ move.Balks m →
    ∃ m', move.run serve m = .ok () m' ∧ m'.Uncrowded
  /-- Such a drain does not begin, and the inbox is as it was. -/
  balks : ∀ move : Move, move.Balks m → move.run serve m = .error .timeOverflow m
  /-- Any other turn comes to its end, and to an empty inbox unless it stops the loop. -/
  turns : m.worker.exited = false → ¬ m.Balks → ∀ block, ∃ b m', Run.turn serve block m = .ok b m' ∧ (b = true →
    m'.worker.inbox = [] ∧ ∃ m₁ completed m₂, Run.openTurn m = .ok () m₁ ∧ Run.drained m₁ = .ok false m₁ ∧
      Run.takeIn block m₁ = .ok completed m₂ ∧ m₂.Empties)

section Spacious

variable {serve : Run.Serve α} {m : Machine α}

theorem Machine.All.prompt_assign (hserve : Modest serve) (h : m.All Moored []) {fd : Int}
    (peer : Option Net.SocketAddress) (hfd : 0 ≤ fd) : Act.Prompt [.assign fd peer] (Run.assign fd peer) m := by
  obtain ⟨answer, m', hrun, -⟩ := ((wild hserve).assign hfd peer h).comes
  exact ⟨answer, m', m', hrun, .assign hrun, rfl,
    Act.not_stalls_assign fd peer (Machine.All.uncrowded fun j => (h j).afloat)⟩

theorem Machine.All.prompt_deed (hserve : Modest serve) (h : m.All Moored []) {i : Nat} (d : Deed)
    (hheld : i ∈ m.held) : Act.Prompt (d.acts i) (d.run i) m := by
  obtain ⟨answer, m', hrun, -⟩ := ((wild hserve).deeds d h hheld).comes
  obtain ⟨m₁, hdoes, hinbox⟩ := Act.Does.deed hheld hrun
  exact ⟨answer, m', m₁, hrun, hdoes, hinbox,
    Act.not_stalls_deed i d (Machine.All.uncrowded fun j => (h j).afloat)⟩

theorem Machine.All.prompt_finish (hserve : Modest serve) (h : m.All Moored []) (hexited : m.worker.exited = false) :
    Act.Prompt [.exit] Run.finish m := by
  obtain ⟨answer, m', hrun, -⟩ := ((wild hserve).finish h hexited).comes
  exact ⟨answer, m', m', hrun, .finish hrun, rfl, Act.not_stalls_of_quiets (by simp [Act.Quiets, Act.handsOver])⟩

/-- Once a turn has begun and has taken completions in, the slots are as within a turn. -/
theorem Machine.All.takenIn (hserve : Modest serve) (h : m.All Moored []) (hexited : m.worker.exited = false)
    {block : Bool} {completed : Nat} {m₁ m₂ : Machine α} (hopen : Run.openTurn m = .ok () m₁)
    (htaken : Run.takeIn block m₁ = .ok completed m₂) : m₂.All Afloat [] ∧ m₂.worker.exited = false := by
  obtain ⟨hbusy, hexited₁⟩ := ((wild hserve).openTurn h hexited).of_ok hopen
  exact ((wild hserve).takeIn block hbusy hexited₁).of_ok htaken

/-- A turn that goes on empties the inbox. -/
theorem Machine.All.turns (hserve : Modest serve) (h : m.All Moored []) (hexited : m.worker.exited = false)
    (hbalks : ¬ m.Balks) (block : Bool) : ∃ b m', Run.turn serve block m = .ok b m' ∧ (b = true →
      m'.worker.inbox = [] ∧ ∃ m₁ completed m₂, Run.openTurn m = .ok () m₁ ∧ Run.drained m₁ = .ok false m₁ ∧
        Run.takeIn block m₁ = .ok completed m₂ ∧ m₂.Empties) := by
  obtain ⟨b, m', hrun, -⟩ := ((wild hserve).turn block h hexited).comesUnless hbalks
  refine ⟨b, m', hrun, fun hgoes => ?_⟩
  subst hgoes
  obtain ⟨m₁, completed, m₂, commands, m₃, hopen, hdone, htaken, hdrain, hslept⟩ := Run.of_turn_true hrun
  obtain ⟨h₂, hexited₂⟩ := h.takenIn hserve hexited hopen htaken
  have hempties := h₂.empties hexited₂
  refine ⟨?_, m₁, completed, m₂, hopen, hdone, htaken, hempties⟩
  have hnil := hempties.inbox_nil hserve hdrain
  rcases hslept with rfl | hslept
  · exact hnil
  · cases hslept
    exact hnil

end Spacious

/-- Whatever completions come and whatever fails, whoever hands a command to a worker finds a place for it. -/
theorem WildRun.spacious {serve : Run.Serve α} {m : Machine α} (hserve : Modest serve) (h : WildRun serve m) :
    m.Spacious serve := by
  have hall := h.moored hserve
  exact
    { uncrowded := Machine.All.uncrowded fun j => (hall j).afloat
      ended := hall.inbox_nil
      offers := fun _ peer hfd => hall.prompt_assign hserve peer hfd
      calls := fun _ d hheld => hall.prompt_deed hserve d hheld
      teardown := hall.prompt_finish hserve
      moves := fun move hwhole hallowed hbalks => by
        obtain ⟨⟨⟩, m', hrun, h'⟩ := ((wild hserve).move hall hwhole hallowed).comesUnless hbalks
        exact ⟨m', hrun, Machine.All.uncrowded fun j => (h' j).afloat⟩
      balks := fun _ => Move.run_balks serve
      turns := hall.turns hserve }

/-- No task can be started, so the handler of a connection drops it at once: its close is put into the inbox that is
just being emptied. -/
theorem WildRun.spacious_dropped : ∃ (m : Machine Application) (kernel : Kernel),
    (Machine.built? { backlog := 1, receiveLength := 1, sendLength := 1, useNagle := true } 1
      { service := .keepLater }).bind (·.after? Application.serve [.assign 5 none]) = some m ∧
      kernel = { m.kernel with
        schedule := fun call _ => if call = .spawn then some .noFreeSlot else none
        ready := [⟨.ofSlot 0, 1, 0⟩] } ∧
      ({ m with kernel } : Machine Application).Spacious Application.serve := by
  have hany : ((Machine.built? { backlog := 1, receiveLength := 1, sendLength := 1, useNagle := true } 1
      { service := .keepLater }).bind (·.after? Application.serve [.assign 5 none])).isSome = true := by decide +kernel
  obtain ⟨m, hafter⟩ := Option.isSome_iff_exists.1 hany
  obtain ⟨m₀, hbuilt, hmoves⟩ := Option.bind_eq_some_iff.1 hafter
  have hstart : m₀.Starts := .of_built? hbuilt (by decide +kernel)
  have hrun : WildRun Application.serve m :=
    Reached.after (fun move => move.isWhole = true) (.start hstart)
      (fun hwhole hallowed hrun => .move _ hwhole hallowed hrun) (by decide) hmoves
  have hready : ∀ c ∈ [(⟨.ofSlot 0, 1, 0⟩ : Completion)], c.result ≠ Int32.minValue := by decide
  exact ⟨m, _, hafter, rfl, WildRun.spacious Application.modest_serve (hrun.step (.around _ m.app hready))⟩

end SlotServer
