import SlotServer.Cell

/-!
# Cells in use

A cell under any sequence of calls: polls with any wakers, outcomes published between two calls or in the midst of a
poll, resets, and looks at the outcome. A use of the cell lasts from one reset to the next.

- `CellCall`, `Cell.call`, `Cell.after`: the calls, what one does, and the cell after a row of them;
- `landed`, `latest`, `wakened`: what the calls alone tell of the use: the outcome that it got, the waker of its latest
  poll, and the one waker that is to be woken;
- `Cell.Follows`: the cell is as the calls tell. Every call keeps this (`Cell.Follows.call`);
- `Cell.lawful`: the answers to the next call, read off the earlier ones.
-/

namespace SlotServer

/-- A call on a cell. -/
inductive CellCall
  /-- A poll. An outcome may be published in its midst, while the waker is being left. -/
  | poll (waker : Waker) (amid : Option Outcome)
  /-- An outcome is published between two other calls. -/
  | complete (outcome : Outcome)
  | reset
  | isCompleted
  | outcome

/-- The answer to a call. -/
inductive CellAnswer
  /-- What a poll found, and whom the outcome published in its midst woke. -/
  | polled (found : Poll Outcome) (woken : Option Waker)
  /-- The outcome was taken, and whom it woke. -/
  | completed (woken : Option Waker)
  /-- The outcome was not taken, as this use has one already. -/
  | completedTwice
  | reset
  | isCompleted (answer : Bool)
  | outcome (answer : Option Outcome)

/-- Whom the call woke. -/
def CellAnswer.woken : CellAnswer → Option Waker
  | polled _ woken | completed woken => woken
  | completedTwice | reset | isCompleted _ | outcome _ => none

namespace Cell

variable {c : Cell} {earlier : List CellCall} {o : Outcome}

/-- Whom an outcome published in the midst of a poll wakes. A poll that finds an outcome has no midst. -/
def wokenAmid (c : Cell) (waker : Waker) (outcome : Outcome) : Option Waker :=
  match c.beginPoll waker with
  | .inl _ => none
  | .inr c =>
    match c.complete outcome with
    | .ok (woken, _) => woken
    | .error _ => none

/-- A call, its answer and the cell after it. -/
def call (c : Cell) : CellCall → CellAnswer × Cell
  | .poll waker none => (.polled (c.poll waker).1 none, (c.poll waker).2)
  | .poll waker (some o) => (.polled (c.pollRacing waker o).1 (c.wokenAmid waker o), (c.pollRacing waker o).2)
  | .complete o =>
    match c.complete o with
    | .ok (woken, c) => (.completed woken, c)
    | .error _ => (.completedTwice, c)
  | .reset => (.reset, c.reset)
  | .isCompleted => (.isCompleted c.isCompleted, c)
  | .outcome => (.outcome c.outcome?, c)

theorem call_complete_ok {c' : Cell} {woken : Option Waker} (h : c.complete o = .ok (woken, c')) :
    c.call (.complete o) = (.completed woken, c') := by
  simp only [call, h]

theorem call_complete_error {fault : Fault} (h : c.complete o = .error fault) :
    c.call (.complete o) = (.completedTwice, c) := by
  simp only [call, h]

/-- A new cell after the calls, the latest of which comes first. -/
def after : List CellCall → Cell
  | [] => {}
  | call :: earlier => ((after earlier).call call).2

/-- Whom the calls of the present use woke, the latest first. -/
def wakes : List CellCall → List Waker
  | [] => []
  | .reset :: _ => []
  | call :: earlier => ((after earlier).call call).1.woken.toList ++ wakes earlier

end Cell

/-! ## What the calls tell -/

/-- The outcome of the present use: the first one that was published since the last reset. -/
def landed : List CellCall → Option Outcome
  | [] => none
  | .reset :: _ => none
  | .complete o :: earlier | .poll _ (some o) :: earlier => some ((landed earlier).getD o)
  | .poll _ none :: earlier | .isCompleted :: earlier | .outcome :: earlier => landed earlier

/-- The waker of the latest poll since the last reset. -/
def latest : List CellCall → Option Waker
  | [] => none
  | .reset :: _ => none
  | .poll waker _ :: _ => some waker
  | .complete _ :: earlier | .isCompleted :: earlier | .outcome :: earlier => latest earlier

/-- Whom the present use is to wake: the latest to poll before the outcome, if that came between two calls. -/
def wakened : List CellCall → Option Waker
  | [] => none
  | .reset :: _ => none
  | .complete _ :: earlier => if landed earlier = none then latest earlier else wakened earlier
  | .poll _ _ :: earlier | .isCompleted :: earlier | .outcome :: earlier => wakened earlier

/-- What a poll between whose two halves nothing happens is to find. -/
def foundBy (earlier : List CellCall) : Poll Outcome :=
  match landed earlier with
  | none => .pending
  | some o => .ready o

/-- As long as there is no outcome, nobody is to be woken. -/
theorem wakened_eq_none : ∀ earlier : List CellCall, landed earlier = none → wakened earlier = none
  | [], _ => rfl
  | .reset :: _, _ => rfl
  | .complete _ :: _, h => by cases h
  | .poll _ (some _) :: _, h => by cases h
  | .poll _ none :: earlier, h => wakened_eq_none earlier h
  | .isCompleted :: earlier, h => wakened_eq_none earlier h
  | .outcome :: earlier, h => wakened_eq_none earlier h

/-- An outcome stays until the next reset. -/
theorem landed_append {later earlier : List CellCall} {o : Outcome} (hreset : .reset ∉ later)
    (h : landed earlier = some o) : landed (later ++ earlier) = some o := by
  induction later with
  | nil => exact h
  | cons call later ih =>
    have hrest : landed (later ++ earlier) = some o := ih fun hmem => hreset (List.mem_cons_of_mem _ hmem)
    match call, hreset with
    | .reset, hreset => exact absurd List.mem_cons_self hreset
    | .complete o', _ | .poll _ (some o'), _ =>
      show some ((landed (later ++ earlier)).getD o') = some o
      rw [hrest]
      rfl
    | .poll _ none, _ | .isCompleted, _ | .outcome, _ => exact hrest

namespace Cell

variable {c : Cell} {earlier : List CellCall} {o : Outcome}

/-- The cell is as the calls tell: completed with the outcome of the use, or waiting with the waker of its latest poll,
or as it is after a reset. -/
structure Follows (earlier : List CellCall) (c : Cell) : Prop where
  settled : ∀ o, landed earlier = some o → c.phase = .completed ∧ c.result = some o
  waiting : landed earlier = none → ∀ w, latest earlier = some w → c = { phase := .waiting, waker := some w }
  empty : landed earlier = none → latest earlier = none → c = {}

namespace Follows

/-- The cell of a use without an outcome. -/
theorem unsettled (h : c.Follows earlier) (hnone : landed earlier = none) :
    c = { phase := if (latest earlier).isSome then .waiting else .empty, waker := latest earlier } := by
  cases hlatest : latest earlier with
  | none => exact h.empty hnone hlatest
  | some w => exact h.waiting hnone w hlatest

theorem isCompleted_eq (h : c.Follows earlier) : c.isCompleted = (landed earlier).isSome := by
  cases hlanded : landed earlier with
  | none =>
    rw [h.unsettled hlanded]
    cases latest earlier <;> rfl
  | some o =>
    unfold isCompleted
    rw [(h.settled o hlanded).1]
    rfl

theorem outcome?_eq (h : c.Follows earlier) : c.outcome? = landed earlier := by
  unfold outcome?
  rw [h.isCompleted_eq]
  cases hlanded : landed earlier with
  | none => rfl
  | some o => exact (h.settled o hlanded).2

/-- Without an outcome a poll leaves its waker, in the place of any earlier one. -/
theorem poll_pending (h : c.Follows earlier) (hnone : landed earlier = none) (w : Waker) :
    c.poll w = (.pending, { phase := .waiting, waker := some w }) := by
  rw [h.unsettled hnone]
  cases latest earlier <;> rfl

/-- With an outcome a poll gives it, and changes nothing; what would come in its midst has no room. -/
theorem pollWith_ready (h : c.Follows earlier) (hlanded : landed earlier = some o) (w : Waker)
    (between : Cell → Cell) : c.pollWith w between = (.ready o, c) := by
  obtain ⟨hphase, hresult⟩ := h.settled o hlanded
  unfold pollWith beginPoll published
  rw [hphase, hresult]
  rfl

/-- An outcome in the midst of a poll is found by that poll. -/
theorem pollRacing_ready (h : c.Follows earlier) (hnone : landed earlier = none) (w : Waker) (o : Outcome) :
    c.pollRacing w o = (.ready o, { phase := .completed, result := some o }) := by
  rw [h.unsettled hnone]
  cases latest earlier <;> rfl

/-- An outcome in the midst of a poll wakes nobody. -/
theorem wokenAmid_eq (h : c.Follows earlier) (w : Waker) (o : Outcome) : c.wokenAmid w o = none := by
  cases hlanded : landed earlier with
  | none =>
    rw [h.unsettled hlanded]
    cases latest earlier <;> rfl
  | some o' =>
    unfold wokenAmid beginPoll
    rw [(h.settled o' hlanded).1]

/-- The first outcome of a use is taken, and wakes whoever polled last. -/
theorem complete_first (h : c.Follows earlier) (hnone : landed earlier = none) (o : Outcome) :
    c.complete o = .ok (latest earlier, { phase := .completed, result := some o }) := by
  rw [h.unsettled hnone]
  cases latest earlier <;> rfl

/-- A second outcome is not taken. -/
theorem complete_second (h : c.Follows earlier) (hlanded : landed earlier = some o) (o' : Outcome) :
    c.complete o' = .error .completedTwice := by
  unfold complete
  rw [(h.settled o hlanded).1]

/-- A completed cell is as the calls tell, whatever the waker it keeps. -/
theorem of_completed (hlanded : landed earlier = some o) (hphase : c.phase = .completed)
    (hresult : c.result = some o) : c.Follows earlier where
  settled o' h' := by
    obtain rfl : o = o' := Option.some.inj (hlanded.symm.trans h')
    exact ⟨hphase, hresult⟩
  waiting hnone := by
    rw [hlanded] at hnone
    cases hnone
  empty hnone := by
    rw [hlanded] at hnone
    cases hnone

/-- Calls that tell the same of the use ask the same of the cell. -/
theorem congr {later : List CellCall} (h : c.Follows earlier) (hlanded : landed later = landed earlier)
    (hlatest : landed earlier = none → latest later = latest earlier) : c.Follows later where
  settled o ho := h.settled o (hlanded.symm.trans ho)
  waiting hnone w hw :=
    have hnone' := hlanded.symm.trans hnone
    h.waiting hnone' w ((hlatest hnone').symm.trans hw)
  empty hnone hw :=
    have hnone' := hlanded.symm.trans hnone
    h.empty hnone' ((hlatest hnone').symm.trans hw)

/-- An outcome that comes when there is one already leaves all as it was. -/
theorem overdue {later : CellCall} {o' : Outcome} (h : c.Follows earlier) (hlanded : landed earlier = some o)
    (hlater : landed (later :: earlier) = some ((landed earlier).getD o')) : c.Follows (later :: earlier) := by
  refine h.congr (hlater.trans ?_) fun hnone => ?_
  · rw [hlanded]
    rfl
  · rw [hlanded] at hnone
    cases hnone

/-- Every call leaves the cell as the calls tell. -/
theorem call (h : c.Follows earlier) (next : CellCall) : (c.call next).2.Follows (next :: earlier) := by
  match next with
  | .reset =>
    exact { settled := fun o ho => by cases ho
            waiting := fun _ w hw => by cases hw
            empty := fun _ _ => rfl }
  | .isCompleted | .outcome => exact h.congr rfl fun _ => rfl
  | .poll w none =>
    show (c.poll w).2.Follows _
    cases hlanded : landed earlier with
    | none =>
      rw [h.poll_pending hlanded]
      exact { settled := fun o ho => by cases hlanded.symm.trans ho
              waiting := fun _ w' hw => by cases hw; rfl
              empty := fun _ hw => by cases hw }
    | some o =>
      rw [Cell.poll, h.pollWith_ready hlanded]
      exact of_completed hlanded (h.settled o hlanded).1 (h.settled o hlanded).2
  | .poll w (some o) =>
    show (c.pollRacing w o).2.Follows _
    cases hlanded : landed earlier with
    | none =>
      rw [h.pollRacing_ready hlanded]
      exact of_completed (o := o) (congrArg (fun l : Option Outcome => some (l.getD o)) hlanded) rfl rfl
    | some o' =>
      rw [pollRacing, h.pollWith_ready hlanded]
      exact h.overdue hlanded rfl
  | .complete o =>
    cases hlanded : landed earlier with
    | none =>
      rw [call_complete_ok (h.complete_first hlanded o)]
      exact of_completed (o := o) (congrArg (fun l : Option Outcome => some (l.getD o)) hlanded) rfl rfl
    | some o' =>
      rw [call_complete_error (h.complete_second hlanded o)]
      exact h.overdue hlanded rfl

end Follows

/-- A new cell after any calls is as they tell. -/
theorem follows : ∀ earlier : List CellCall, (after earlier).Follows earlier
  | [] =>
    { settled := fun _ ho => by cases ho
      waiting := fun _ _ hw => by cases hw
      empty := fun _ _ => rfl }
  | next :: earlier => (follows earlier).call next

/-- What was before a reset leaves no trace. -/
theorem after_reset (earlier : List CellCall) : ∀ later, after (later ++ .reset :: earlier) = after later
  | [] => rfl
  | call :: later => by
    show ((after (later ++ .reset :: earlier)).call call).2 = _
    rw [after_reset earlier later]
    rfl

/-- A use wakes at most one waker, once: that of the latest poll before an outcome that came between two calls. -/
theorem wakes_eq : ∀ earlier : List CellCall, wakes earlier = (wakened earlier).toList
  | [] => rfl
  | .reset :: _ => rfl
  | .isCompleted :: earlier | .outcome :: earlier => wakes_eq earlier
  | .poll _ none :: earlier => wakes_eq earlier
  | .poll w (some o) :: earlier => by
    show ((after earlier).wokenAmid w o).toList ++ wakes earlier = _
    rw [(follows earlier).wokenAmid_eq]
    exact wakes_eq earlier
  | .complete o :: earlier => by
    have hfollows := follows earlier
    have hrest := wakes_eq earlier
    unfold wakes wakened
    cases hlanded : landed earlier with
    | none =>
      rw [call_complete_ok (hfollows.complete_first hlanded o), hrest, wakened_eq_none earlier hlanded, if_pos rfl]
      exact List.append_nil _
    | some o' =>
      rw [call_complete_error (hfollows.complete_second hlanded o), if_neg (by simp)]
      exact hrest

/-! ## The law -/

/-- The answer to the next call of a new cell after earlier ones. -/
def answer (earlier : List CellCall) (next : CellCall) : CellAnswer := ((after earlier).call next).1

/-- What a cell answers after any calls. -/
structure Law (earlier : List CellCall) : Prop where
  /-- A poll is pending if this use has no outcome yet, and otherwise gives it. -/
  polled : ∀ w, answer earlier (.poll w none) = .polled (foundBy earlier) none
  /-- A poll in whose midst an outcome comes gives the outcome of this use, and nobody is woken. -/
  raced : ∀ w o, answer earlier (.poll w (some o)) = .polled (.ready ((landed earlier).getD o)) none
  /-- The outcome of a use stays the same until the next reset. -/
  same : ∀ o, landed earlier = some o → ∀ later, .reset ∉ later →
    ∀ w, answer (later ++ earlier) (.poll w none) = .polled (.ready o) none
  /-- The other two ways to look at the outcome agree with polls. -/
  isCompleted : answer earlier .isCompleted = .isCompleted (landed earlier).isSome
  outcome : answer earlier .outcome = .outcome (landed earlier)
  /-- The outcome of a use that comes between two calls wakes whoever polled last, and is readable by then. -/
  completed : landed earlier = none → ∀ o, ∃ c, (after earlier).complete o = .ok (latest earlier, c) ∧
    c.outcome? = some o ∧ ∀ w, c.poll w = (.ready o, c)
  /-- In all, a use wakes nobody else, and nobody twice. -/
  once : wakes earlier = (wakened earlier).toList
  /-- A second outcome in one use is told apart, wakes nobody and changes nothing. -/
  second : landed earlier ≠ none → ∀ o, answer earlier (.complete o) = .completedTwice ∧
    after (.complete o :: earlier) = after earlier
  /-- After a reset the cell is as if there had been no earlier use. -/
  fresh : ∀ later next, answer (later ++ .reset :: earlier) next = answer later next

/-- The law of completion cells, for every row of calls. -/
theorem lawful (earlier : List CellCall) : Law earlier := by
  have hfollows := follows earlier
  have hpoll : ∀ (calls : List CellCall) w, answer calls (.poll w none) = .polled (foundBy calls) none := by
    intro calls w
    show CellAnswer.polled ((after calls).poll w).1 none = _
    unfold foundBy
    cases hlanded : landed calls with
    | none => rw [(follows calls).poll_pending hlanded]
    | some o => rw [poll, (follows calls).pollWith_ready hlanded]
  have hraced : ∀ w o, answer earlier (.poll w (some o)) = .polled (.ready ((landed earlier).getD o)) none := by
    intro w o
    show CellAnswer.polled ((after earlier).pollRacing w o).1 ((after earlier).wokenAmid w o) = _
    rw [hfollows.wokenAmid_eq]
    cases hlanded : landed earlier with
    | none => rw [hfollows.pollRacing_ready hlanded, Option.getD_none]
    | some o' => rw [pollRacing, hfollows.pollWith_ready hlanded, Option.getD_some]
  have hsame : ∀ o, landed earlier = some o → ∀ later, .reset ∉ later →
      ∀ w, answer (later ++ earlier) (.poll w none) = .polled (.ready o) none := by
    intro o hlanded later hreset w
    rw [hpoll, foundBy, landed_append hreset hlanded]
  have hcompleted : landed earlier = none → ∀ o, ∃ c, (after earlier).complete o = .ok (latest earlier, c) ∧
      c.outcome? = some o ∧ ∀ w, c.poll w = (.ready o, c) :=
    fun hnone o => ⟨_, hfollows.complete_first hnone o, rfl, fun _ => rfl⟩
  have hsecond : landed earlier ≠ none → ∀ o, answer earlier (.complete o) = .completedTwice ∧
      after (.complete o :: earlier) = after earlier := by
    intro hsome o
    obtain ⟨o', hlanded⟩ := Option.ne_none_iff_exists'.1 hsome
    have htwice := call_complete_error (hfollows.complete_second hlanded o)
    exact ⟨congrArg Prod.fst htwice, congrArg Prod.snd htwice⟩
  have hfresh : ∀ later next, answer (later ++ .reset :: earlier) next = answer later next := by
    intro later next
    unfold answer
    rw [after_reset]
  exact
    { polled := hpoll earlier
      raced := hraced
      same := hsame
      isCompleted := congrArg CellAnswer.isCompleted hfollows.isCompleted_eq
      outcome := congrArg CellAnswer.outcome hfollows.outcome?_eq
      completed := hcompleted
      once := wakes_eq earlier
      second := hsecond
      fresh := hfresh }

/-- Of two pollers the later one is woken, and only the first of two outcomes counts. -/
example : wakes [.complete (.ok 4), .complete (.ok 3), .poll (.task 2) none, .poll (.task 1) none] = [.task 2] := by
  decide

end Cell

end SlotServer
