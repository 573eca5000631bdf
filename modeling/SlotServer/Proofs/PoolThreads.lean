import Mathlib.Data.List.FinRange
import Mathlib.Data.List.Nodup
import Mathlib.Logic.Function.Basic
import Mathlib.Logic.Relation
import SlotServer.Tasks.Pool

/-!
# A task pool among its threads

Any number of threads take tasks out of the queue of a pool, and any number of callers start tasks and wake them. A wake
marks its task and then queues it, and a thread that has a task clears its mark and then takes its lock. Between any two
of these steps the others may take any steps of theirs, also those who wake a task while it is polled.

- `TaskPool.enroll`, `TaskPool.enqueue`: the two parts of a new task's start and of a wake (`spawn_eq`, `wake_eq`);
- `PoolThreads`, `PoolThreads.Step`: a pool with its threads and callers, and what each may do next;
- `Seated`: a marked task is in one place, in the queue or in somebody's hand, and nothing else is;
- `PoolThreads.Held`: what every step keeps (`Held.step`);
- `PoolRun.tasks_orderly`: no task is queued twice, no wake is lost, no task is polled twice at once or after its end,
  and the pool counts those that have not ended.
-/

namespace SlotServer

namespace TaskPool

variable {φ : Type} {p : TaskPool φ} {n : Nat}

/-- A new task, which is marked and counted and not yet queued. -/
def enroll (p : TaskPool φ) (future : φ) : TaskPool φ :=
  { p with tasks := p.tasks ++ [{ future := some future, scheduled := true }], live := p.live + 1 }

/-- Put a task at the end of the queue. -/
def enqueue (p : TaskPool φ) (n : Nat) : TaskPool φ := { p with queue := p.queue ++ [n] }

theorem spawn_eq (h : p.stopped = false) (future : φ) :
    p.spawn future = (.ok p.tasks.length, (p.enroll future).enqueue p.tasks.length) := by
  unfold spawn
  rw [if_neg (by rw [h]; exact Bool.false_ne_true)]
  rfl

theorem wake_eq (p : TaskPool φ) (n : Nat) :
    p.wake n = if p.isScheduled n then p else (p.mark n).enqueue n := rfl

/-! ### Marks -/

theorem isScheduled_enroll (p : TaskPool φ) (future : φ) :
    (p.enroll future).isScheduled = Function.update p.isScheduled p.tasks.length true := by
  funext m
  unfold isScheduled enroll
  rcases Nat.lt_trichotomy m p.tasks.length with hless | rfl | hmore
  · rw [Function.update_of_ne (Nat.ne_of_lt hless), List.getElem?_append_left hless]
  · rw [Function.update_self, List.getElem?_concat_length]
    rfl
  · rw [Function.update_of_ne (Nat.ne_of_gt hmore), List.getElem?_eq_none (Nat.le_of_lt hmore),
      List.getElem?_eq_none (by rw [List.length_append]; exact hmore)]

theorem isScheduled_mark (h : n < p.tasks.length) : (p.mark n).isScheduled = Function.update p.isScheduled n true := by
  funext m
  unfold isScheduled mark modify
  rw [List.getElem?_modify]
  by_cases hm : n = m
  · subst hm
    rw [Function.update_self, List.getElem?_eq_getElem h]
    simp
  · rw [Function.update_of_ne (Ne.symm hm)]
    simp [hm]

theorem isScheduled_clear (p : TaskPool φ) (n : Nat) :
    (p.clear n).isScheduled = Function.update p.isScheduled n false := by
  funext m
  unfold isScheduled clear modify
  rw [List.getElem?_modify]
  by_cases hm : n = m
  · subst hm
    rw [Function.update_self]
    cases p.tasks[n]? <;> simp
  · rw [Function.update_of_ne (Ne.symm hm)]
    simp [hm]

/-- A change of what is left of a task leaves the marks as they are. -/
theorem isScheduled_modify {f : PoolTask φ → PoolTask φ} (hf : ∀ t, (f t).scheduled = t.scheduled) :
    (p.modify n f).isScheduled = p.isScheduled := by
  funext m
  unfold isScheduled modify
  rw [List.getElem?_modify]
  cases p.tasks[m]? with
  | none => rfl
  | some t =>
    show (if n = m then f t else t).scheduled = t.scheduled
    split
    · exact hf t
    · rfl

theorem isScheduled_length (p : TaskPool φ) : p.isScheduled p.tasks.length = false := by
  unfold isScheduled
  rw [List.getElem?_eq_none (Nat.le_refl _)]
  rfl

theorem isScheduled_store (p : TaskPool φ) (n : Nat) (future : φ) : (p.store n future).isScheduled = p.isScheduled :=
  isScheduled_modify fun _ => rfl

theorem isScheduled_finish (p : TaskPool φ) (n : Nat) : (p.finish n).isScheduled = p.isScheduled :=
  isScheduled_modify fun _ => rfl

theorem take_eq_some {p' : TaskPool φ} (h : p.take = some (n, p')) :
    ∃ queue, p.queue = n :: queue ∧ p' = { p with queue } := by
  unfold take at h
  split at h
  · cases h
  · next queue hqueue =>
    cases h
    exact ⟨queue, hqueue, rfl⟩

/-! ### What is left of tasks -/

theorem future?_enroll (p : TaskPool φ) (future : φ) :
    (p.enroll future).future? = Function.update p.future? p.tasks.length (some future) := by
  funext m
  unfold future? enroll
  rcases Nat.lt_trichotomy m p.tasks.length with hless | rfl | hmore
  · rw [Function.update_of_ne (Nat.ne_of_lt hless), List.getElem?_append_left hless]
  · rw [Function.update_self, List.getElem?_concat_length]
    rfl
  · rw [Function.update_of_ne (Nat.ne_of_gt hmore), List.getElem?_eq_none (Nat.le_of_lt hmore),
      List.getElem?_eq_none (by rw [List.length_append]; exact hmore)]

/-- A change of a mark leaves what is left of the tasks. -/
theorem future?_modify {f : PoolTask φ → PoolTask φ} (hf : ∀ t, (f t).future = t.future) :
    (p.modify n f).future? = p.future? := by
  funext m
  unfold future? modify
  rw [List.getElem?_modify]
  cases p.tasks[m]? with
  | none => rfl
  | some t =>
    show (if n = m then f t else t).future = t.future
    split
    · exact hf t
    · rfl

/-- Another rest of a task, or none, is that task's alone. -/
theorem future?_rest (h : n < p.tasks.length) (rest : Option φ) :
    (p.modify n fun t => { t with future := rest }).future? = Function.update p.future? n rest := by
  funext m
  unfold future? modify
  rw [List.getElem?_modify]
  by_cases hm : n = m
  · subst hm
    rw [Function.update_self, List.getElem?_eq_getElem h]
    simp
  · rw [Function.update_of_ne (Ne.symm hm)]
    simp [hm]

theorem future?_mark (p : TaskPool φ) (n : Nat) : (p.mark n).future? = p.future? := future?_modify fun _ => rfl

theorem future?_clear (p : TaskPool φ) (n : Nat) : (p.clear n).future? = p.future? := future?_modify fun _ => rfl

theorem future?_store (h : n < p.tasks.length) (future : φ) :
    (p.store n future).future? = Function.update p.future? n (some future) :=
  future?_rest h (some future)

theorem future?_finish (h : n < p.tasks.length) : (p.finish n).future? = Function.update p.future? n none :=
  future?_rest h none

/-! ### How many tasks came -/

theorem length_enroll (p : TaskPool φ) (future : φ) : (p.enroll future).tasks.length = p.tasks.length + 1 :=
  List.length_append

theorem length_mark (p : TaskPool φ) (n : Nat) : (p.mark n).tasks.length = p.tasks.length := List.length_modify ..

theorem length_clear (p : TaskPool φ) (n : Nat) : (p.clear n).tasks.length = p.tasks.length := List.length_modify ..

theorem length_store (p : TaskPool φ) (n : Nat) (future : φ) : (p.store n future).tasks.length = p.tasks.length :=
  List.length_modify ..

theorem length_finish (p : TaskPool φ) (n : Nat) : (p.finish n).tasks.length = p.tasks.length := List.length_modify ..

/-! ### Counting -/

/-- How many tasks are left. -/
def unended (p : TaskPool φ) : Nat := p.tasks.countP (·.future.isSome)

theorem unended_enroll (p : TaskPool φ) (future : φ) : (p.enroll future).unended = p.unended + 1 := by
  unfold unended enroll
  rw [List.countP_append]
  rfl

theorem countP_modify {α : Type} {q : α → Bool} {f : α → α} {l : List α} {a : α} (h : l[n]? = some a) :
    (l.modify n f).countP q + (if q a then 1 else 0) = l.countP q + (if q (f a) then 1 else 0) := by
  induction l generalizing n with
  | nil => cases h
  | cons b l ih =>
    cases n with
    | zero =>
      obtain rfl : b = a := by simpa using h
      rw [List.modify_zero_cons, List.countP_cons, List.countP_cons]
      omega
    | succ n =>
      have hrest := ih (n := n) (by simpa using h)
      rw [List.modify_succ_cons, List.countP_cons, List.countP_cons]
      omega

/-- Where something is left of a task, one task less is left without it. -/
theorem unended_rest {f : φ} (h : p.future? n = some f) (rest : Option φ) :
    (p.modify n fun t => { t with future := rest }).unended + 1 = p.unended + (if rest.isSome then 1 else 0) := by
  unfold future? at h
  obtain ⟨t, ht, hf⟩ := Option.bind_eq_some_iff.1 h
  have hcount := countP_modify (q := fun t : PoolTask φ => t.future.isSome)
    (f := fun t => { t with future := rest }) ht
  rw [hf] at hcount
  exact hcount

/-- A change of a mark leaves as many tasks. -/
theorem unended_modify {f : PoolTask φ → PoolTask φ} (hf : ∀ t, (f t).future = t.future) :
    (p.modify n f).unended = p.unended := by
  unfold unended modify
  cases ht : p.tasks[n]? with
  | none => rw [List.modify_eq_self (List.getElem?_eq_none_iff.1 ht)]
  | some t =>
    have hcount := countP_modify (q := fun t : PoolTask φ => t.future.isSome) (f := f) ht
    rw [hf] at hcount
    exact Nat.add_right_cancel hcount

theorem unended_mark (p : TaskPool φ) (n : Nat) : (p.mark n).unended = p.unended := unended_modify fun _ => rfl

theorem unended_clear (p : TaskPool φ) (n : Nat) : (p.clear n).unended = p.unended := unended_modify fun _ => rfl

/-- The tasks may be counted by their numbers. -/
theorem unended_eq (p : TaskPool φ) :
    p.unended = (List.range p.tasks.length).countP fun n => (p.future? n).isSome := by
  calc p.unended = ((List.finRange p.tasks.length).map p.tasks.get).countP (·.future.isSome) := by
        rw [List.map_get_finRange, unended]
    _ = ((List.finRange p.tasks.length).map Fin.val).countP fun n => (p.future? n).isSome := by
        rw [List.countP_map, List.countP_map]
        exact List.countP_congr fun n _ => by simp [future?]
    _ = _ := by rw [List.map_coe_finRange_eq_range]

end TaskPool

/-! ## Threads and callers -/

/-- Where a thread of a pool stands. -/
inductive ThreadStage (φ : Type)
  | idle
  /-- It has taken a task out of the queue. -/
  | took (n : Nat)
  /-- It has cleared the task's mark and goes for the task's lock. -/
  | cleared (n : Nat)
  /-- It polls the task, whose lock it has. -/
  | polling (n : Nat)
  /-- The poll has come to its end. It has left something of the task, or the task has returned or failed. -/
  | polled (n : Nat) (rest : Option φ)

namespace ThreadStage

variable {φ : Type}

/-- The task that was taken out of the queue and is still marked. -/
def taken? : ThreadStage φ → Option Nat
  | took n => some n
  | _ => none

theorem taken?_eq_some {stage : ThreadStage φ} {n : Nat} : stage.taken? = some n ↔ stage = took n := by
  cases stage <;> simp [taken?]

/-- The task whose lock the thread has. -/
def locked? : ThreadStage φ → Option Nat
  | polling n | polled n _ => some n
  | _ => none

end ThreadStage

/-- A pool with its threads and with callers from outside, each told apart by numbers. A future that wakes a task while
it is polled is a caller too. -/
structure PoolThreads (φ : Type) where
  pool : TaskPool φ
  stage : Nat → ThreadStage φ := fun _ => .idle
  /-- The task that a caller has marked and not yet queued. -/
  calling : Nat → Option Nat := fun _ => none
  /-- The task was started or woken since its last poll began. -/
  woken : Nat → Bool := fun _ => false
  /-- A poll of the task has returned, or has failed. -/
  ended : Nat → Bool := fun _ => false

namespace PoolThreads

variable {φ : Type} {s s' : PoolThreads φ}

/-- Nobody has the lock of the task. -/
def Unlocked (s : PoolThreads φ) (n : Nat) : Prop := ∀ t, (s.stage t).locked? ≠ some n

/-- Someone takes a step. -/
inductive Step (s : PoolThreads φ) : PoolThreads φ → Prop
  /-- A new task is counted. Queueing it is a step of its own. -/
  | spawn {k : Nat} (future : φ) (hfree : s.calling k = none) :
    Step s
      { s with
        pool := s.pool.enroll future
        calling := Function.update s.calling k (some s.pool.tasks.length)
        woken := Function.update s.woken s.pool.tasks.length true }
  /-- A wake finds no mark and leaves one. Queueing the task is a step of its own. -/
  | mark {k n : Nat} (hfree : s.calling k = none) (hn : n < s.pool.tasks.length)
    (hclear : s.pool.isScheduled n = false) :
    Step s
      { s with
        pool := s.pool.mark n
        calling := Function.update s.calling k (some n)
        woken := Function.update s.woken n true }
  /-- A wake finds the mark. -/
  | pass {n : Nat} (hmarked : s.pool.isScheduled n = true) : Step s { s with woken := Function.update s.woken n true }
  | enqueue {k n : Nat} (hcalling : s.calling k = some n) :
    Step s { s with pool := s.pool.enqueue n, calling := Function.update s.calling k none }
  | take {t n : Nat} {pool : TaskPool φ} (hidle : s.stage t = .idle) (htake : s.pool.take = some (n, pool)) :
    Step s { s with pool, stage := Function.update s.stage t (.took n) }
  | clear {t n : Nat} (hstage : s.stage t = .took n) :
    Step s { s with pool := s.pool.clear n, stage := Function.update s.stage t (.cleared n) }
  /-- Under the lock of a task that has ended there is nothing to poll. -/
  | leave {t n : Nat} (hstage : s.stage t = .cleared n) (hlock : s.Unlocked n) (hnone : s.pool.future? n = none) :
    Step s { s with stage := Function.update s.stage t .idle }
  | poll {t n : Nat} {f : φ} (hstage : s.stage t = .cleared n) (hlock : s.Unlocked n)
    (hsome : s.pool.future? n = some f) :
    Step s
      { s with stage := Function.update s.stage t (.polling n), woken := Function.update s.woken n false }
  /-- The future does whatever it does. -/
  | polled {t n : Nat} (rest : Option φ) (hstage : s.stage t = .polling n) :
    Step s
      { s with
        stage := Function.update s.stage t (.polled n rest)
        ended := if rest.isNone then Function.update s.ended n true else s.ended }
  | store {t n : Nat} {f : φ} (hstage : s.stage t = .polled n (some f)) :
    Step s { s with pool := s.pool.store n f, stage := Function.update s.stage t .idle }
  /-- A task that has ended is dropped and counted off. -/
  | finish {t n : Nat} (hstage : s.stage t = .polled n none) :
    Step s { s with pool := s.pool.finish n, stage := Function.update s.stage t .idle }

/-- The caller who has marked the task queues it, and has none in hand again. -/
theorem Step.put {k n : Nat} {calling : Nat → Option Nat} (hfree : calling k = none)
    (h : s.calling = Function.update calling k (some n)) : s.Step { s with pool := s.pool.enqueue n, calling } := by
  have hstep := Step.enqueue (s := s) (k := k) (n := n) (by rw [h, Function.update_self])
  have hcalling : Function.update s.calling k none = calling := by
    rw [h, Function.update_idem, ← hfree, Function.update_eq_self]
  rwa [hcalling] at hstep

/-- To start a task at once is to take two steps. -/
theorem reaches_spawn {k : Nat} (hfree : s.calling k = none) (h : s.pool.stopped = false) (future : φ) :
    Relation.ReflTransGen Step s
      { s with
        pool := (s.pool.spawn future).2
        woken := Function.update s.woken s.pool.tasks.length true } := by
  rw [TaskPool.spawn_eq h]
  exact .tail (.single (.spawn future hfree)) (.put hfree rfl)

/-- To wake a task at once is to take two steps, or one where it is marked. -/
theorem reaches_wake {k n : Nat} (hfree : s.calling k = none) (hn : n < s.pool.tasks.length) :
    Relation.ReflTransGen Step s { s with pool := s.pool.wake n, woken := Function.update s.woken n true } := by
  rw [TaskPool.wake_eq]
  split
  · next hmarked => exact .single (.pass hmarked)
  · next hclear => exact .tail (.single (.mark hfree hn (Bool.of_not_eq_true hclear))) (.put hfree rfl)

/-- Who may have a task in hand that is marked and not in the queue. -/
inductive Holder
  | thread (t : Nat)
  | caller (k : Nat)
  deriving DecidableEq

/-- The marked task that somebody has in hand. -/
def hand (stage : Nat → ThreadStage φ) (calling : Nat → Option Nat) : Holder → Option Nat
  | .thread t => (stage t).taken?
  | .caller k => calling k

theorem hand_stage (stage : Nat → ThreadStage φ) (calling : Nat → Option Nat) (t : Nat) (later : ThreadStage φ) :
    hand (Function.update stage t later) calling = Function.update (hand stage calling) (.thread t) later.taken? := by
  funext h
  cases h with
  | thread t' => by_cases ht : t' = t <;> simp [hand, ht]
  | caller k => simp [hand]

theorem hand_calling (stage : Nat → ThreadStage φ) (calling : Nat → Option Nat) (k : Nat) (n? : Option Nat) :
    hand stage (Function.update calling k n?) = Function.update (hand stage calling) (.caller k) n? := by
  funext h
  cases h with
  | thread t => simp [hand]
  | caller k' => by_cases hk : k' = k <;> simp [hand, hk]

/-- A thread that took no marked task and takes none has none in hand. -/
theorem hand_aside {stage : Nat → ThreadStage φ} {calling : Nat → Option Nat} {t : Nat} {later : ThreadStage φ}
    (h : (stage t).taken? = none) (h' : later.taken? = none) :
    hand (Function.update stage t later) calling = hand stage calling := by
  rw [hand_stage, h']
  exact Function.update_eq_self_iff.2 h.symm

/-! ## Marked tasks are in one place -/

/-- Where a task is. -/
inductive Seat
  | nowhere
  | queue
  | hand (h : Holder)

/-- A marked task is in one place: in the queue, once, or in one hand. -/
structure Seated (queue : List Nat) (hand : Holder → Option Nat) (marked : Nat → Bool) (seat : Nat → Seat) : Prop where
  nodup : queue.Nodup
  queued : ∀ n, n ∈ queue ↔ seat n = .queue
  inHand : ∀ h n, hand h = some n ↔ seat n = .hand h
  marked : ∀ n, marked n = true ↔ seat n ≠ .nowhere

namespace Seated

variable {queue : List Nat} {hand : Holder → Option Nat} {marked : Nat → Bool} {seat : Nat → Seat} {h : Holder}
  {n : Nat}

/-- The first task of the queue is taken into a hand. -/
theorem take (hs : Seated (n :: queue) hand marked seat) (hfree : hand h = none) :
    Seated queue (Function.update hand h (some n)) marked (Function.update seat n (.hand h)) where
  nodup := hs.nodup.of_cons
  queued m := by
    have hn := (List.nodup_cons.1 hs.nodup).1
    have hm := hs.queued m
    grind [Function.update_apply]
  inHand h' m := by
    have hm := hs.inHand h' m
    have hn := hs.queued n
    grind [Function.update_apply]
  marked m := by
    have hm := hs.marked m
    have hn := hs.queued n
    grind [Function.update_apply]

/-- The task in a hand is put into the queue. -/
theorem put (hs : Seated queue hand marked seat) (hhand : hand h = some n) :
    Seated (queue ++ [n]) (Function.update hand h none) marked (Function.update seat n .queue) where
  nodup := by
    have hnot : n ∉ queue := fun hn => by
      have hseat := (hs.inHand h n).1 hhand
      rw [(hs.queued n).1 hn] at hseat
      cases hseat
    have hnodup := hs.nodup.concat hnot
    rwa [List.concat_eq_append] at hnodup
  queued m := by
    have hm := hs.queued m
    grind [Function.update_apply]
  inHand h' m := by
    have hm := hs.inHand h' m
    have hseat := (hs.inHand h n).1 hhand
    grind [Function.update_apply]
  marked m := by
    have hm := hs.marked m
    have hseat := (hs.inHand h n).1 hhand
    grind [Function.update_apply]

/-- A task is marked, and is in the hand of who has marked it. -/
theorem mark (hs : Seated queue hand marked seat) (hfree : hand h = none) (hclear : marked n = false) :
    Seated queue (Function.update hand h (some n)) (Function.update marked n true)
      (Function.update seat n (.hand h)) where
  nodup := hs.nodup
  queued m := by
    have hm := hs.queued m
    have hn := hs.marked n
    grind [Function.update_apply]
  inHand h' m := by
    have hm := hs.inHand h' m
    have hn := hs.marked n
    grind [Function.update_apply]
  marked m := by
    have hm := hs.marked m
    grind [Function.update_apply]

/-- The mark of a task in a hand is cleared. -/
theorem clear (hs : Seated queue hand marked seat) (hhand : hand h = some n) :
    Seated queue (Function.update hand h none) (Function.update marked n false) (Function.update seat n .nowhere) where
  nodup := hs.nodup
  queued m := by
    have hm := hs.queued m
    have hseat := (hs.inHand h n).1 hhand
    grind [Function.update_apply]
  inHand h' m := by
    have hm := hs.inHand h' m
    have hseat := (hs.inHand h n).1 hhand
    grind [Function.update_apply]
  marked m := by
    have hm := hs.marked m
    grind [Function.update_apply]

end Seated

/-- Every step leaves the marked tasks in one place each. -/
theorem Step.seated (hstep : s.Step s') (hcalm : s.pool.isScheduled s.pool.tasks.length = false)
    (h : ∃ seat, Seated s.pool.queue (hand s.stage s.calling) s.pool.isScheduled seat) :
    ∃ seat, Seated s'.pool.queue (hand s'.stage s'.calling) s'.pool.isScheduled seat := by
  obtain ⟨seat, h⟩ := h
  cases hstep with
  | spawn future hfree =>
    rw [hand_calling, TaskPool.isScheduled_enroll]
    exact ⟨_, h.mark hfree hcalm⟩
  | mark hfree hn hclear =>
    rw [hand_calling, TaskPool.isScheduled_mark hn]
    exact ⟨_, h.mark hfree hclear⟩
  | pass => exact ⟨seat, h⟩
  | enqueue hcalling =>
    rw [hand_calling]
    exact ⟨_, h.put hcalling⟩
  | @take t n pool hidle htake =>
    obtain ⟨queue, hqueue, rfl⟩ := TaskPool.take_eq_some htake
    rw [hqueue] at h
    rw [hand_stage]
    exact ⟨_, h.take (by rw [hand, hidle]; rfl)⟩
  | clear hstage =>
    rw [hand_stage, TaskPool.isScheduled_clear]
    exact ⟨_, h.clear (by rw [hand, hstage]; rfl)⟩
  | leave hstage =>
    rw [hand_aside (by rw [hstage]; rfl) rfl]
    exact ⟨seat, h⟩
  | poll hstage =>
    rw [hand_aside (by rw [hstage]; rfl) rfl]
    exact ⟨seat, h⟩
  | polled rest hstage =>
    rw [hand_aside (by rw [hstage]; rfl) rfl]
    exact ⟨seat, h⟩
  | store hstage =>
    rw [hand_aside (by rw [hstage]; rfl) rfl, TaskPool.isScheduled_store]
    exact ⟨seat, h⟩
  | finish hstage =>
    rw [hand_aside (by rw [hstage]; rfl) rfl, TaskPool.isScheduled_finish]
    exact ⟨seat, h⟩

/-! ## Locks -/

/-- A thread that moves on from a stage is not at it any more, and the others are where they were. -/
theorem exists_update {α : Type} {f : Nat → α} {t : Nat} {a b : α} (h : f t ≠ b) :
    (∃ t', Function.update f t a t' = b) ↔ a = b ∨ ∃ t', f t' = b := by
  rw [Function.exists_update_iff f fun _ x => x = b]
  refine or_congr_right ⟨fun ⟨t', _, ht'⟩ => ⟨t', ht'⟩, fun ⟨t', ht'⟩ => ⟨t', ?_, ht'⟩⟩
  rintro rfl
  exact h ht'

/-- A lock is with one thread, and under it there is something left of the task until the task has ended and is
dropped. -/
structure Locks (stage : Nat → ThreadStage φ) (future? : Nat → Option φ) (ended : Nat → Bool) (size : Nat) : Prop where
  single : ∀ t t' n, (stage t).locked? = some n → (stage t').locked? = some n → t = t'
  kept : ∀ t n, (stage t).locked? = some n → (future? n).isSome = true
  known : ∀ n, (future? n).isSome = true ∨ ended n = true → n < size
  /-- Of a task that has ended something is left while the thread that polled it is still to drop it. -/
  ended : ∀ n, n < size → (ended n = true ↔ future? n = none ∨ ∃ t, stage t = .polled n none)

namespace Locks

variable {stage : Nat → ThreadStage φ} {future? : Nat → Option φ} {ended : Nat → Bool} {size t n : Nat}

/-- A lock is that of a task. -/
theorem lt_of_locked (h : Locks stage future? ended size) (hlocked : (stage t).locked? = some n) : n < size :=
  h.known n (.inl (h.kept t n hlocked))

/-- Something is left of a task that has not ended, and of one that has and is being dropped. -/
theorem left (h : Locks stage future? ended size) (hn : n < size) :
    (future? n).isSome = true ↔ ended n = false ∨ ∃ t, stage t = .polled n none := by
  have hended := h.ended n hn
  constructor
  · intro hsome
    cases hn : ended n with
    | false => exact .inl rfl
    | true => exact .inr ((hended.1 hn).resolve_left (Option.isSome_iff_ne_none.1 hsome))
  · rintro (hlive | ⟨t, ht⟩)
    · refine Option.isSome_iff_ne_none.2 fun hnone => ?_
      rw [hended.2 (.inl hnone)] at hlive
      cases hlive
    · exact h.kept t n (by rw [ht]; rfl)

theorem polling (h : Locks stage future? ended size) (ht : stage t = .polling n) : ended n = false := by
  have hlocked : (stage t).locked? = some n := by rw [ht]; rfl
  have hkept := h.kept t n hlocked
  by_contra hended
  rcases (h.ended n (h.lt_of_locked hlocked)).1 (Bool.of_not_eq_false hended) with hnone | ⟨t', ht'⟩
  · exact Option.isSome_iff_ne_none.1 hkept hnone
  · obtain rfl := h.single t t' n (by rw [ht]; rfl) (by rw [ht']; rfl)
    rw [ht] at ht'
    cases ht'

theorem enroll (h : Locks stage future? ended size) (future : φ) :
    Locks stage (Function.update future? size (some future)) ended (size + 1) where
  single := h.single
  kept t n ht := by
    have hkept := h.kept t n ht
    grind [Function.update_apply]
  known n hn := by
    have hknown := h.known n
    grind [Function.update_apply]
  ended n hn := by
    have hended := h.ended n
    have hknown := h.known n
    have hkept := fun t => h.kept t n
    grind [Function.update_apply, ThreadStage.locked?]

/-- A thread that had no lock moves on, and has none. -/
theorem aside {stage' : ThreadStage φ} (h : Locks stage future? ended size) (ht : (stage t).locked? = none)
    (ht' : stage'.locked? = none) : Locks (Function.update stage t stage') future? ended size where
  single t₁ t₂ n := by
    have hsingle := h.single t₁ t₂ n
    grind [Function.update_apply]
  kept t₁ n := by
    have hkept := h.kept t₁ n
    grind [Function.update_apply]
  known := h.known
  ended n hn := by
    rw [exists_update (by grind [ThreadStage.locked?]), h.ended n hn]
    grind [ThreadStage.locked?]

/-- A thread gets the lock of a task nobody has, of which something is left. -/
theorem poll (h : Locks stage future? ended size) (ht : (stage t).locked? = none)
    (hlock : ∀ t', (stage t').locked? ≠ some n) (hsome : (future? n).isSome = true) :
    Locks (Function.update stage t (.polling n)) future? ended size where
  single t₁ t₂ m := by
    have hsingle := h.single t₁ t₂ m
    have hlock₁ := hlock t₁
    have hlock₂ := hlock t₂
    grind [Function.update_apply, ThreadStage.locked?]
  kept t₁ m := by
    have hkept := h.kept t₁ m
    grind [Function.update_apply, ThreadStage.locked?]
  known := h.known
  ended m hm := by
    rw [exists_update (by grind [ThreadStage.locked?]), h.ended m hm]
    grind

/-- The poll comes to its end. -/
theorem polled (h : Locks stage future? ended size) (ht : stage t = .polling n) (rest : Option φ) :
    Locks (Function.update stage t (.polled n rest)) future?
      (if rest.isNone then Function.update ended n true else ended) size where
  single t₁ t₂ m := by
    have hsingle := h.single t₁ t₂ m
    grind [Function.update_apply, ThreadStage.locked?]
  kept t₁ m := by
    have hkept := h.kept t₁ m
    grind [Function.update_apply, ThreadStage.locked?]
  known m := by
    have hknown := h.known m
    have hkept := h.kept t n
    grind [Function.update_apply, ThreadStage.locked?]
  ended m hm := by
    have hended := h.ended m hm
    rw [exists_update (by grind)]
    cases rest with
    | none => grind [Function.update_apply]
    | some f => grind

/-- The thread leaves what is left of the task, and the lock. -/
theorem store {f : φ} (h : Locks stage future? ended size) (ht : stage t = .polled n (some f)) :
    Locks (Function.update stage t .idle) (Function.update future? n (some f)) ended size where
  single t₁ t₂ m := by
    have hsingle := h.single t₁ t₂ m
    grind [Function.update_apply, ThreadStage.locked?]
  kept t₁ m := by
    have hkept := h.kept t₁ m
    grind [Function.update_apply, ThreadStage.locked?]
  known m := by
    have hknown := h.known m
    have hkept := h.kept t n
    grind [Function.update_apply, ThreadStage.locked?]
  ended m hm := by
    have hended := h.ended m hm
    have hkept := h.kept t n
    rw [exists_update (by grind)]
    grind [Function.update_apply, ThreadStage.locked?]

/-- The thread drops the task that has ended, and leaves the lock. -/
theorem finish (h : Locks stage future? ended size) (ht : stage t = .polled n none) :
    Locks (Function.update stage t .idle) (Function.update future? n none) ended size where
  single t₁ t₂ m := by
    have hsingle := h.single t₁ t₂ m
    grind [Function.update_apply, ThreadStage.locked?]
  kept t₁ m := by
    have hkept := h.kept t₁ m
    have hsingle := h.single t t₁ m
    grind [Function.update_apply, ThreadStage.locked?]
  known m := by
    have hknown := h.known m
    grind [Function.update_apply]
  ended m hm := by
    have hended := h.ended m hm
    by_cases hmn : m = n
    · subst hmn
      rw [Function.update_self, hended]
      exact iff_of_true (.inr ⟨t, ht⟩) (.inl rfl)
    · rw [exists_update (by grind)]
      grind [Function.update_apply]

end Locks

/-- Every step leaves the locks with one thread each. -/
theorem Step.locks (hstep : s.Step s') (h : Locks s.stage s.pool.future? s.ended s.pool.tasks.length) :
    Locks s'.stage s'.pool.future? s'.ended s'.pool.tasks.length := by
  cases hstep with
  | spawn future =>
    rw [TaskPool.future?_enroll, TaskPool.length_enroll]
    exact h.enroll future
  | mark =>
    rw [TaskPool.future?_mark, TaskPool.length_mark]
    exact h
  | pass => exact h
  | enqueue => exact h
  | take hidle htake =>
    obtain ⟨queue, -, rfl⟩ := TaskPool.take_eq_some htake
    exact h.aside (by rw [hidle]; rfl) rfl
  | clear hstage =>
    rw [TaskPool.future?_clear, TaskPool.length_clear]
    exact h.aside (by rw [hstage]; rfl) rfl
  | leave hstage => exact h.aside (by rw [hstage]; rfl) rfl
  | poll hstage hlock hsome => exact h.poll (by rw [hstage]; rfl) hlock (by rw [hsome]; rfl)
  | polled rest hstage => exact h.polled hstage rest
  | @store t n f hstage =>
    have hn : n < s.pool.tasks.length := h.lt_of_locked (t := t) (by rw [hstage]; rfl)
    rw [TaskPool.future?_store hn, TaskPool.length_store]
    exact h.store hstage
  | @finish t n hstage =>
    have hn : n < s.pool.tasks.length := h.lt_of_locked (t := t) (by rw [hstage]; rfl)
    rw [TaskPool.future?_finish hn, TaskPool.length_finish]
    exact h.finish hstage

/-- Every step leaves the count of the tasks right. -/
theorem Step.live (hstep : s.Step s') (hlocks : Locks s.stage s.pool.future? s.ended s.pool.tasks.length)
    (h : s.pool.live = s.pool.unended) : s'.pool.live = s'.pool.unended := by
  cases hstep with
  | spawn future =>
    rw [TaskPool.unended_enroll, ← h]
    rfl
  | mark =>
    rw [TaskPool.unended_mark]
    exact h
  | pass => exact h
  | enqueue => exact h
  | take hidle htake =>
    obtain ⟨queue, -, rfl⟩ := TaskPool.take_eq_some htake
    exact h
  | clear =>
    rw [TaskPool.unended_clear]
    exact h
  | leave => exact h
  | poll => exact h
  | polled => exact h
  | @store t n f hstage =>
    obtain ⟨f', hf'⟩ := Option.isSome_iff_exists.1 (hlocks.kept t n (by rw [hstage]; rfl))
    exact h.trans (Nat.add_right_cancel (TaskPool.unended_rest hf' (some f))).symm
  | @finish t n hstage =>
    obtain ⟨f', hf'⟩ := Option.isSome_iff_exists.1 (hlocks.kept t n (by rw [hstage]; rfl))
    have hless : (s.pool.finish n).unended + 1 = s.pool.unended := TaskPool.unended_rest hf' none
    show s.pool.live - 1 = (s.pool.finish n).unended
    omega

/-! ## Wakes -/

/-- A task that was woken since its last poll began and has not ended is marked, or a thread goes for its lock. -/
def Wakes (s : PoolThreads φ) : Prop :=
  ∀ n, s.woken n = true → (s.pool.future? n).isSome = true →
    s.pool.isScheduled n = true ∨ ∃ t, s.stage t = .cleared n

/-- Every step keeps the wakes. -/
theorem Step.wakes (hstep : s.Step s') (hlocks : Locks s.stage s.pool.future? s.ended s.pool.tasks.length)
    (h : s.Wakes) : s'.Wakes := by
  intro n hwoken hsome
  have hn := h n
  cases hstep with
  | spawn future =>
    rw [TaskPool.isScheduled_enroll]
    rw [TaskPool.future?_enroll] at hsome
    grind [Function.update_apply]
  | mark hfree hm =>
    rw [TaskPool.isScheduled_mark hm]
    rw [TaskPool.future?_mark] at hsome
    grind [Function.update_apply]
  | pass => grind [Function.update_apply]
  | enqueue => exact hn hwoken hsome
  | take hidle htake =>
    obtain ⟨queue, -, rfl⟩ := TaskPool.take_eq_some htake
    rw [exists_update (by rw [hidle]; simp)]
    exact (hn hwoken hsome).imp_right .inr
  | clear hstage =>
    rw [TaskPool.isScheduled_clear, exists_update (by rw [hstage]; simp)]
    rw [TaskPool.future?_clear] at hsome
    grind [Function.update_apply]
  | @leave t m hstage hlock hnone =>
    have hne : m ≠ n := by
      rintro rfl
      rw [hnone] at hsome
      cases hsome
    rw [exists_update (by rw [hstage]; simpa using hne)]
    exact (hn hwoken hsome).imp_right .inr
  | @poll t m f hstage =>
    have hne : m ≠ n := by
      rintro rfl
      simp at hwoken
    rw [exists_update (by rw [hstage]; simpa using hne)]
    have hwoken' : s.woken n = true := by rwa [← Function.update_of_ne hne.symm false s.woken]
    exact (hn hwoken' hsome).imp_right .inr
  | polled rest hstage =>
    rw [exists_update (by rw [hstage]; simp)]
    exact (hn hwoken hsome).imp_right .inr
  | @store t m f hstage =>
    have hm := hlocks.kept t m (by rw [hstage]; rfl)
    rw [exists_update (by rw [hstage]; simp), TaskPool.isScheduled_store]
    rw [TaskPool.future?_store (hlocks.known m (.inl hm))] at hsome
    refine (hn hwoken ?_).imp_right .inr
    grind [Function.update_apply]
  | @finish t m hstage =>
    have hm := hlocks.kept t m (by rw [hstage]; rfl)
    rw [exists_update (by rw [hstage]; simp), TaskPool.isScheduled_finish]
    rw [TaskPool.future?_finish (hlocks.known m (.inl hm))] at hsome
    refine (hn hwoken ?_).imp_right .inr
    grind [Function.update_apply]

/-! ## Every step -/

/-- What every step keeps. -/
structure Held (s : PoolThreads φ) : Prop where
  seated : ∃ seat, Seated s.pool.queue (hand s.stage s.calling) s.pool.isScheduled seat
  locks : Locks s.stage s.pool.future? s.ended s.pool.tasks.length
  live : s.pool.live = s.pool.unended
  wakes : s.Wakes

namespace Held

theorem of_start (n : Nat) : Held ({ pool := .start n } : PoolThreads φ) where
  seated := by
    refine ⟨fun _ => .nowhere, .nil, fun n => by simp [TaskPool.start], fun h n => ?_, fun n => ?_⟩
    · cases h <;> simp [hand, ThreadStage.taken?]
    · simp [TaskPool.isScheduled, TaskPool.start]
  locks := by
    refine ⟨fun _ _ _ ht => (nomatch ht), fun _ _ ht => (nomatch ht), fun n hn => ?_, fun _ hn => (nomatch hn)⟩
    simp [TaskPool.future?, TaskPool.start] at hn
  live := rfl
  wakes n hn := by cases hn

theorem step (h : s.Held) (hstep : s.Step s') : s'.Held :=
  ⟨hstep.seated s.pool.isScheduled_length h.seated, hstep.locks h.locks, hstep.live h.locks h.live,
    hstep.wakes h.locks h.wakes⟩

end Held

/-- A pool is in order among its threads and callers. -/
structure Orderly (s : PoolThreads φ) : Prop where
  /-- A task is in the queue once, and is not in a hand at the same time. -/
  queue : s.pool.queue.Nodup ∧ ∀ n ∈ s.pool.queue, (∀ t, s.stage t ≠ .took n) ∧ ∀ k, s.calling k ≠ some n
  /-- A task that was woken since its last poll began is in the queue, or a thread has taken it and is still to poll it,
  or a caller is about to put it into the queue. -/
  woken : ∀ n, n < s.pool.tasks.length → s.woken n = true → s.ended n = false →
    n ∈ s.pool.queue ∨ (∃ t, s.stage t = .took n ∨ s.stage t = .cleared n) ∨ ∃ k, s.calling k = some n
  /-- A wake at once leaves the task in the queue or with a thread that has just taken it. -/
  wake : ∀ n, (∀ k, s.calling k ≠ some n) →
    (s.pool.wake n).queue.Nodup ∧ (n ∈ (s.pool.wake n).queue ∨ ∃ t, s.stage t = .took n)
  /-- A task that is spawned at once is new, counted and queued once. A pool that was stopped takes none. -/
  spawn : ∀ future, if s.pool.stopped then s.pool.spawn future = (.error .spawn, s.pool)
    else ∃ pool, s.pool.spawn future = (.ok s.pool.tasks.length, pool) ∧ pool.queue.Nodup ∧
      s.pool.tasks.length ∈ pool.queue ∧ pool.live = s.pool.live + 1 ∧
      pool.future? = Function.update s.pool.future? s.pool.tasks.length (some future)
  /-- Two threads never poll one task. -/
  single : ∀ t t' n, s.stage t = .polling n → s.stage t' = .polling n → t = t'
  /-- A task that has ended is not polled. -/
  polling : ∀ t n, s.stage t = .polling n → s.ended n = false ∧ (s.pool.future? n).isSome = true
  /-- The pool counts the tasks of which something is left. -/
  live : s.pool.live = (List.range s.pool.tasks.length).countP fun n => (s.pool.future? n).isSome
  /-- These are those that have not ended, and those that have and are being dropped. -/
  left : ∀ n, n < s.pool.tasks.length →
    ((s.pool.future? n).isSome = true ↔ s.ended n = false ∨ ∃ t, s.stage t = .polled n none)

namespace Held

theorem marked (h : s.Held) {n : Nat} (hn : s.pool.isScheduled n = true) :
    n ∈ s.pool.queue ∨ (∃ t, s.stage t = .took n) ∨ ∃ k, s.calling k = some n := by
  obtain ⟨seat, hseat⟩ := h.seated
  cases hs : seat n with
  | nowhere => exact absurd hs ((hseat.marked n).1 hn)
  | queue => exact .inl ((hseat.queued n).2 hs)
  | hand h =>
    have hhand := (hseat.inHand h n).2 hs
    cases h with
    | caller k => exact .inr (.inr ⟨k, hhand⟩)
    | thread t => exact .inr (.inl ⟨t, ThreadStage.taken?_eq_some.1 hhand⟩)

theorem wake (h : s.Held) {n : Nat} (hfree : ∀ k, s.calling k ≠ some n) :
    (s.pool.wake n).queue.Nodup ∧ (n ∈ (s.pool.wake n).queue ∨ ∃ t, s.stage t = .took n) := by
  obtain ⟨seat, hseat⟩ := h.seated
  rw [TaskPool.wake_eq]
  split
  · next hmarked =>
    refine ⟨hseat.nodup, (h.marked hmarked).imp_right fun hhand => hhand.resolve_right ?_⟩
    rintro ⟨k, hk⟩
    exact hfree k hk
  · next hclear =>
    have hnot : n ∉ s.pool.queue := fun hmem =>
      hclear ((hseat.marked n).2 (by rw [(hseat.queued n).1 hmem]; exact Seat.noConfusion))
    have hnodup := hseat.nodup.concat hnot
    rw [List.concat_eq_append] at hnodup
    exact ⟨hnodup, .inl (List.mem_append_right _ (List.mem_singleton_self n))⟩

/-- Nobody waits under a number that no task has. -/
theorem nodup_next (h : s.Held) : (s.pool.queue ++ [s.pool.tasks.length]).Nodup := by
  obtain ⟨seat, hseat⟩ := h.seated
  have hnot : s.pool.tasks.length ∉ s.pool.queue := fun hmem => by
    have hmarked := (hseat.marked _).2 (by rw [(hseat.queued _).1 hmem]; exact Seat.noConfusion)
    rw [s.pool.isScheduled_length] at hmarked
    cases hmarked
  have hnodup := hseat.nodup.concat hnot
  rwa [List.concat_eq_append] at hnodup

theorem spawn (h : s.Held) (future : φ) : if s.pool.stopped then s.pool.spawn future = (.error .spawn, s.pool)
    else ∃ pool, s.pool.spawn future = (.ok s.pool.tasks.length, pool) ∧ pool.queue.Nodup ∧
      s.pool.tasks.length ∈ pool.queue ∧ pool.live = s.pool.live + 1 ∧
      pool.future? = Function.update s.pool.future? s.pool.tasks.length (some future) := by
  cases hstopped : s.pool.stopped with
  | true => exact if_pos hstopped
  | false =>
    exact ⟨_, TaskPool.spawn_eq hstopped future, h.nodup_next, List.mem_append_right _ (List.mem_singleton_self _), rfl,
      s.pool.future?_enroll future⟩

theorem in_order (h : s.Held) : s.Orderly := by
  obtain ⟨seat, hseat⟩ := h.seated
  refine ⟨⟨hseat.nodup, fun n hn => ⟨fun t ht => ?_, fun k hk => ?_⟩⟩, fun n hn hwoken hended => ?_, fun _ => h.wake,
    h.spawn, fun t t' n ht ht' => ?_, fun t n ht => ?_, h.live.trans s.pool.unended_eq, fun _ => h.locks.left⟩
  · have hhand := (hseat.inHand (.thread t) n).1 (by rw [hand, ht]; rfl)
    rw [(hseat.queued n).1 hn] at hhand
    cases hhand
  · have hhand := (hseat.inHand (.caller k) n).1 hk
    rw [(hseat.queued n).1 hn] at hhand
    cases hhand
  · have hsome := (h.locks.left hn).2 (.inl hended)
    rcases h.wakes n hwoken hsome with hmarked | ⟨t, ht⟩
    · exact (h.marked hmarked).imp_right (.imp_left fun ⟨t, ht⟩ => ⟨t, .inl ht⟩)
    · exact .inr (.inl ⟨t, .inr ht⟩)
  · exact h.locks.single t t' n (by rw [ht]; rfl) (by rw [ht']; rfl)
  · exact ⟨h.locks.polling ht, h.locks.kept t n (by rw [ht]; rfl)⟩

end Held

end PoolThreads

/-! ## Every run of a pool -/

/-- A pool came about by steps of its threads and callers, in any order. -/
def PoolRun {φ : Type} (s : PoolThreads φ) : Prop :=
  ∃ n, Relation.ReflTransGen PoolThreads.Step { pool := .start n } s

namespace PoolRun

variable {φ : Type} {s : PoolThreads φ}

theorem held (h : PoolRun s) : s.Held := by
  obtain ⟨n, hsteps⟩ := h
  induction hsteps with
  | refl => exact .of_start n
  | tail _ hstep ih => exact ih.step hstep

/-- A pool is in order, whatever its threads and callers do and whenever they do it. -/
theorem tasks_orderly (h : PoolRun s) : s.Orderly := h.held.in_order

/-- A task is woken while a thread polls it, and another thread takes it. -/
theorem tasks_orderly_twice : ∃ s : PoolThreads Unit, PoolRun s ∧ s.stage 0 = .polling 0 ∧ s.stage 1 = .took 0 ∧
    s.pool.live = 1 ∧ s.Orderly := by
  have hsteps : Relation.ReflTransGen PoolThreads.Step ({ pool := .start 2 } : PoolThreads Unit) _ :=
    .trans (PoolThreads.reaches_spawn (k := 0) rfl rfl ()) <| .head (.take (t := 0) rfl rfl) <|
      .head (.clear (t := 0) rfl) <| .head (.poll (t := 0) rfl (fun t => by cases t <;> nofun) rfl) <|
      .trans (PoolThreads.reaches_wake (k := 0) (n := 0) rfl Nat.one_pos) <| .head (.take (t := 1) rfl rfl) .refl
  have hrun : PoolRun _ := ⟨2, hsteps⟩
  exact ⟨_, hrun, rfl, rfl, rfl, tasks_orderly hrun⟩

end PoolRun

end SlotServer
