import SlotServer.Proofs.HonestRuns

/-!
# What is pending for a slot

Whoever moves a slot on holds a token for that: a command in the inbox, or an operation in the kernel's hands.
Completions and commands are taken to a slot by its number alone, so all hangs on a slot having one token at most, and
the one that its state asks for.

- `Machine.Tokens`: the tokens of a slot, told by its state;
- `HonestRun.tokens`: under an honest kernel every slot has just these.
-/

namespace SlotServer

variable {α : Type}

namespace Machine

/-- The commands for a slot that wait in the inbox. -/
def commandsFor (m : Machine α) (i : Nat) : List Command := m.worker.inbox.filter (·.slot = i)

/-- The operations of a slot that were queued and are not answered. -/
def unanswered (m : Machine α) (i : Nat) : List Op := (outstanding m.trace).filter (·.ctx.slot = i)

/-- The command waits for the dispatch loop, or the operation for its answer, and nothing else does for the slot. -/
def OneToken (m : Machine α) (i : Nat) (c : Command) (op : Op) : Prop :=
  m.commandsFor i = [c] ∧ m.unanswered i = [] ∨ m.commandsFor i = [] ∧ m.unanswered i = [op]

/-- What is pending for a slot, told by its state. -/
def Tokens (m : Machine α) (i : Nat) (s : Slot) : Prop :=
  match s.state with
  | .disconnected => s.fd = -1 ∧ m.commandsFor i = [] ∧ m.unanswered i = []
  | .accepting => m.commandsFor i = [.accept i] ∧ m.unanswered i = []
  | .accepted | .received | .sent =>
    (s.attached = true ∧ i ∈ m.held) ∧ m.commandsFor i = [] ∧ m.unanswered i = []
  | .receiving => m.OneToken i (.receive i)
      (.receive (.ofSlot i) s.fd s.receiveHalf.offset (low32 s.receiveHalf.length) s.receiveHalf.bufIndex)
  | .sending => m.OneToken i (.send i)
      (.send (.ofSlot i) s.fd s.sendHalf.offset (low32 s.sendLength) s.sendHalf.bufIndex)
  | .disconnecting => m.OneToken i (.disconnect i) (.close (.ofSlot i) s.fd)

end Machine

variable {m : Machine α} {i : Nat} {s : Slot}

/-- A slot with an operation of a half under way has the half's token. -/
theorem Underway.token {half : Half} {p : Phase} (h : Underway i s half p (m.commandsFor i))
    (hops : m.unanswered i = p.ops) : m.OneToken i (half.command i) (s.halfOp half i) := by
  rcases h with ⟨rfl, hdue⟩ | ⟨rfl, hdue⟩
  · exact .inl ⟨hdue, hops⟩
  · exact .inr ⟨hdue, hops⟩

/-- A slot at rest has the tokens that its state asks for. -/
theorem Calm.toTokens (h : Calm i (m.view [] i) s) : m.Tokens i s := by
  obtain ⟨p, hp, hstage⟩ := h.stage
  have hops : m.unanswered i = p.ops :=
    (outstanding_concerns i m.trace).symm.trans (outstanding_of_phase hp)
  have hidle : s.state.isIdle = true → s.attached = true ∧ i ∈ m.held := fun hidle =>
    ⟨h.idle hidle, List.count_pos_iff.1 (h.attached (h.idle hidle))⟩
  rw [Stage] at hstage
  rw [Machine.Tokens]
  cases hstate : s.state <;> rw [hstate] at hstage <;> dsimp only at hstage ⊢
  case disconnected =>
    obtain ⟨rfl, hdue, hfd⟩ := hstage
    exact ⟨hfd, hdue, hops⟩
  case accepting =>
    obtain ⟨rfl, hdue⟩ := hstage
    exact ⟨hdue, hops⟩
  case accepted | received | sent =>
    obtain ⟨rfl, hdue⟩ := hstage
    exact ⟨hidle (by rw [hstate]; rfl), hdue, hops⟩
  case receiving => exact hstage.token hops
  case sending => exact hstage.token hops
  case disconnecting =>
    rcases hstage with ⟨hrests, hdue⟩ | ⟨rfl, hdue⟩
    · exact .inl ⟨hdue, hops.trans (Phase.of_rest? hrests).2⟩
    · exact .inr ⟨hdue, hops⟩

/-- Wherever a worker over an honest kernel comes to, every slot has the tokens that its state asks for. -/
theorem HonestRun.tokens {serve : Run.Serve α} (hserve : Modest serve) (h : HonestRun serve m)
    (hs : m.worker.slots[i]? = some s) : m.Tokens i s := by
  rcases h.resting hserve i with ⟨s', hcalm, -⟩ | habsent
  · obtain rfl : s = s' := Option.some.inj (hs.symm.trans hcalm.here)
    exact hcalm.toTokens
  · rw [show m.worker.slots[i]? = none from habsent.slot] at hs
    cases hs

theorem HonestRun.tokens_receiving : ∃ m s,
    Machine.small?.bind (·.after? Application.serve [.assign 5 none, .command, .deed 0 .receive, .command]) = some m ∧
      m.worker.slots[0]? = some s ∧ s.state = .receiving ∧ m.Tokens 0 s := by
  have hany : (Machine.small?.bind
      (·.after? Application.serve [.assign 5 none, .command, .deed 0 .receive, .command])).any
        (fun m => m.worker.slots[0]?.any fun s => s.state = .receiving) = true := by decide +kernel
  obtain ⟨m, hafter, hstate⟩ := (Option.any_eq_true ..).1 hany
  obtain ⟨s, hs, hstate⟩ := (Option.any_eq_true ..).1 hstate
  exact ⟨m, s, hafter, hs, of_decide_eq_true hstate,
    HonestRun.tokens Application.modest_serve (HonestRun.of_built hafter) hs⟩

end SlotServer
