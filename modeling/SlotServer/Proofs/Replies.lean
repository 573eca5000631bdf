import SlotServer.Proofs.Strides

/-!
# What a worker answers

A run is logged: what the worker answered whenever it was made to do something, the latest first. So what is said of the
sockets that it took, or of the turns after it was asked to stop, can be read off its answers.

- `Reply`, `Move.reply`: an answer, and a move that gives one;
- `Advance`: how a worker comes from one machine to the next, for each answer (`Move.advance`);
- `LoggedRun`: a run with its log, over a kernel that keeps to what is asked of it.
-/

namespace SlotServer

variable {α : Type}

/-- What a worker answers. -/
inductive Reply
  /-- A socket was offered. -/
  | assigned (answer : Except Error Nat)
  /-- The worker was asked to stop. -/
  | asked
  /-- The loop has made a turn, and goes on or does not. -/
  | turned (goesOn : Bool)
  /-- A handle's call was made, or the worker was torn down. -/
  | done

/-- The program of a whole move, with its answer. -/
def Move.reply (serve : Run.Serve α) : Move → Run α Reply
  | assign fd peer => do return .assigned (← Run.assign fd peer)
  | stop => do
    Run.requestStop
    return .asked
  | turn block => do return .turned (← Run.turn serve block)
  | move => do
    move.run serve
    return .done

theorem Move.run_of_reply {serve : Run.Serve α} {move : Move} {reply : Reply} {m m' : Machine α}
    (h : move.reply serve m = .ok reply m') : move.run serve m = .ok () m' := by
  cases move with
  | assign fd peer =>
    obtain ⟨answer, m₁, hassign, hrest⟩ := Run.of_bind h
    cases hrest
    exact Run.bind_run hassign
  | turn block =>
    obtain ⟨b, m₁, hturn, hrest⟩ := Run.of_bind h
    cases hrest
    exact Run.bind_run hturn
  | _ =>
    obtain ⟨⟨⟩, m₁, hmove, hrest⟩ := Run.of_bind h
    cases hrest
    exact hmove

theorem Move.reply_of_run {serve : Run.Serve α} {move : Move} {m m' : Machine α} (h : move.run serve m = .ok () m') :
    ∃ reply, move.reply serve m = .ok reply m' := by
  cases move with
  | assign fd peer =>
    obtain ⟨answer, m₁, hassign, hrest⟩ := Run.of_bind h
    cases hrest
    exact ⟨.assigned answer, Run.bind_run hassign⟩
  | turn block =>
    obtain ⟨b, m₁, hturn, hrest⟩ := Run.of_bind h
    cases hrest
    exact ⟨.turned b, Run.bind_run hturn⟩
  | stop => exact ⟨.asked, Run.bind_run h⟩
  | _ => exact ⟨.done, Run.bind_run h⟩

/-- How a worker comes from one machine to the next, with its answer. -/
inductive Advance (m m' : Machine α) : Reply → Prop
  | refused (e : Error) (h : Upkeep false 0 m m') : Advance m m' (.assigned (.error e))
  | accepted {i : Nat} {fd : Int} {m₁ m₂ : Machine α} (hfree : i ∈ m.worker.free) (hbefore : Upkeep false 0 m m₁)
    (hbinds : Binds i fd m₁ m₂) (hafter : Upkeep false 0 m₂ m') : Advance m m' (.assigned (.ok i))
  | asked (h : Upkeep false 0 { m with worker := { m.worker with stopping := true } } m') : Advance m m' .asked
  | turned (b : Bool) (h : Strides false m.opened m') : Advance m m' (.turned b)
  | done (h : Upkeep false 0 m m') : Advance m m' .done

theorem Move.advance {serve : Run.Serve α} (hserve : Modest serve) {move : Move} {reply : Reply} {m m' : Machine α}
    (hwhole : move.isWhole = true) (hrun : move.reply serve m = .ok reply m') : Advance m m' reply := by
  cases move with
  | assign fd peer =>
    obtain ⟨answer, m₁, hassign, hrest⟩ := Run.of_bind hrun
    cases hrest
    have hdone := Run.of_assign false hassign
    cases answer with
    | error e => exact .refused e hdone
    | ok i =>
      obtain ⟨hfree, m₁, m₂, hbefore, hbinds, hafter⟩ := hdone
      exact .accepted hfree hbefore hbinds hafter
  | deed i d =>
    obtain ⟨⟨⟩, m₁, hdeed, hrest⟩ := Run.of_bind hrun
    cases hrest
    exact .done (Tidy.deed d m () m' hdeed)
  | stop =>
    obtain ⟨⟨⟩, m₁, hstop, hrest⟩ := Run.of_bind hrun
    cases hrest
    exact .asked (Tidy.requestStop hstop)
  | turn block =>
    obtain ⟨b, m₁, hturn, hrest⟩ := Run.of_bind hrun
    cases hrest
    exact .turned b (Walks.turn hserve.tame hturn)
  | finish =>
    obtain ⟨⟨⟩, m₁, hfinish, hrest⟩ := Run.of_bind hrun
    cases hrest
    exact .done (Tidy.finish m () m' hfinish)
  | _ => cases hwhole

/-- A run with its log. What happens around the worker is lawful, and it starts as `start` says. -/
inductive LoggedRun (serve : Run.Serve α) (start : Machine α → Prop) (lawful : Machine α → Kernel → Prop) :
    List Reply → Machine α → Prop
  | start {m : Machine α} (h : start m) : LoggedRun serve start lawful [] m
  | move {log : List Reply} {m m' : Machine α} {reply : Reply} (before : LoggedRun serve start lawful log m)
    (move : Move) (hwhole : move.isWhole = true) (hallowed : move.Allowed m)
    (hrun : move.reply serve m = .ok reply m') : LoggedRun serve start lawful (reply :: log) m'
  | around {log : List Reply} {m : Machine α} (before : LoggedRun serve start lawful log m) (kernel : Kernel) (app : α)
    (h : lawful m kernel) : LoggedRun serve start lawful log { m with kernel, app }

/-- The results of the kernel's completions have a negation: none of them is the least number. -/
def Kernel.Negates (k : Kernel) : Prop := ∀ c ∈ k.ready, c.result ≠ Int32.minValue

namespace LoggedRun

variable {serve : Run.Serve α} {start : Machine α → Prop} {lawful : Machine α → Kernel → Prop} {log : List Reply}
  {m : Machine α}

/-- A logged run is a run over an arbitrary kernel, where results have negations. -/
theorem wild (hstart : ∀ m, start m → m.Starts) (hlawful : ∀ m k, lawful m k → k.Negates)
    (h : LoggedRun serve start lawful log m) : WildRun serve m := by
  induction h with
  | start h => exact .start (hstart _ h)
  | move before move hwhole hallowed hrun ih => exact ih.step (.move move hwhole hallowed (Move.run_of_reply hrun))
  | around before kernel app h ih => exact ih.step (.around kernel app (hlawful _ kernel h))

end LoggedRun

/-- The answers to a row of moves, and the machine after them, if all of them may be made and none is at fault. -/
def Machine.logged? (serve : Run.Serve α) (m : Machine α) (log : List Reply) :
    List Move → Option (List Reply × Machine α)
  | [] => some (log, m)
  | move :: moves =>
    if move.Allowed m then
      match move.reply serve m with
      | .ok reply m' => m'.logged? serve (reply :: log) moves
      | .error _ _ => none
    else none

theorem LoggedRun.of_logged? {serve : Run.Serve α} {start : Machine α → Prop} {lawful : Machine α → Kernel → Prop}
    {log log' : List Reply} {m m' : Machine α} {moves : List Move} (h : LoggedRun serve start lawful log m)
    (hwhole : ∀ move ∈ moves, move.isWhole = true) (hlogged : m.logged? serve log moves = some (log', m')) :
    LoggedRun serve start lawful log' m' := by
  induction moves generalizing log m with
  | nil =>
    cases hlogged
    exact h
  | cons move moves ih =>
    unfold Machine.logged? at hlogged
    split at hlogged
    case isFalse => cases hlogged
    rename_i hallowed
    split at hlogged
    · rename_i hrun
      exact ih (h.move move (hwhole move (List.mem_cons_self ..)) hallowed hrun)
        (fun move hmove => hwhole move (List.mem_cons_of_mem _ hmove)) hlogged
    · cases hlogged

end SlotServer
