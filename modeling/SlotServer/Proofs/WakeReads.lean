import SlotServer.Ring.Queues

/-!
# The wake-up read of a ring

A ring has at most one wake-up read on its way, from the time it is queued until its completion is taken out, and the
ring's own note of that is right. This is kept by every call of the ring and by every answer of the kernel.

- `Ring.entries`, `Ring.answers`: what is on its way to the kernel or in its hands, and what is on its way back;
- `Ring.wakeReads`: how many wake-up reads there are, and `Ring.Tidy`: that there are as many as the ring believes;
- `Ring.Adds`: what is added where entries are queued (`Ring.adds_enter`, `Ring.adds_pushEntry`), and `Ring.fetch`: that
  the kernel takes some of them;
- `Ring.Tidy.push`, `Ring.Tidy.arm`, `Ring.Tidy.complete` and the like: every call and every answer keeps a ring tidy;
- `Ring.Tidy.here`: where a wake-up read is once the queue was handed over.
-/

namespace SlotServer

theorem Context.isWake_ofSlot (i : Nat) : (Context.ofSlot i).isWake = false := by
  refine decide_eq_false fun heq => ?_
  have hraw : (Context.ofSlot i).raw.toNat = 0xffffffffffffffff := by
    rw [heq]
    rfl
  simp only [Context.ofSlot, UInt64.toNat_ofNat'] at hraw
  omega

/-- The entry is a wake-up read. -/
def Entry.isWakeRead (e : Entry) : Bool := e.work = .wakeRead

/-- The entry, where it was queued. -/
def Entry.queued (e : Entry) : Except Error Unit → List Entry
  | .ok _ => [e]
  | .error _ => []

namespace Ring

/-- The entries on their way to the kernel or in its hands. -/
def entries (r : Ring) : List Entry := r.submission ++ r.pending.map Prod.snd

/-- The completions on their way back. -/
def answers (r : Ring) : List Completion := r.completion ++ r.overflow

/-- How many wake-up reads were queued and are not taken out. -/
def wakeReads (r : Ring) : Nat := r.entries.countP (·.isWakeRead) + r.answers.countP (·.ctx.isWake)

/-- The completion of a wake-up read is there. -/
def hasWake (r : Ring) : Bool := r.answers.any (·.ctx.isWake)

/-- The kernel has a wake-up read. -/
def holdsWake (r : Ring) : Bool := r.pending.any (·.2.isWakeRead)

/-- What the kernel has is numbered in order. -/
structure Numbered (r : Ring) : Prop where
  nodup : (r.pending.map Prod.fst).Nodup
  handed : ∀ n ∈ r.pending.map Prod.fst, n < r.handed

/-- The wake-up context is that of wake-up reads, and there are as many of these as the ring believes. -/
structure Tidy (r : Ring) : Prop extends Numbered r where
  wake : ∀ e ∈ r.entries, e.ctx.isWake = e.isWakeRead
  single : r.wakeReads = if r.armed then 1 else 0
  room : 0 < r.completionCapacity

variable {r r' : Ring}

theorem Tidy.le_one (h : r.Tidy) : r.wakeReads ≤ 1 := by
  rw [h.single]
  split <;> simp

/-! ## Queueing -/

/-- Entries were queued, and perhaps the queue was handed over. -/
structure Adds (r : Ring) (l : List Entry) (r' : Ring) : Prop where
  entries : r'.entries.Perm (l ++ r.entries)
  numbered : r.Numbered → r'.Numbered
  completion : r'.completion = r.completion
  overflow : r'.overflow = r.overflow
  room : r'.completionCapacity = r.completionCapacity
  inflight : r'.inflight = r.inflight
  registered : r'.registered = r.registered

namespace Adds

theorem refl (r : Ring) : r.Adds [] r := ⟨.refl _, id, rfl, rfl, rfl, rfl, rfl⟩

theorem trans {l l' : List Entry} {r'' : Ring} (h : r.Adds l r') (h' : r'.Adds l' r'') : r.Adds (l' ++ l) r'' where
  entries := by
    rw [List.append_assoc]
    exact h'.entries.trans (h.entries.append_left l')
  numbered hnumbered := h'.numbered (h.numbered hnumbered)
  completion := h'.completion.trans h.completion
  overflow := h'.overflow.trans h.overflow
  room := h'.room.trans h.room
  inflight := h'.inflight.trans h.inflight
  registered := h'.registered.trans h.registered

theorem hasWake {l : List Entry} (h : r.Adds l r') : r'.hasWake = r.hasWake := by
  rw [Ring.hasWake, Ring.hasWake, answers, answers, h.completion, h.overflow]

/-- What was queued counts, if the ring notes it. -/
theorem tidy {l : List Entry} (h : r.Adds l r') (htidy : r.Tidy) (hwake : ∀ e ∈ l, e.ctx.isWake = e.isWakeRead)
    (hcount : l.countP (·.isWakeRead) + (if r.armed then 1 else 0) = if r'.armed then 1 else 0) : r'.Tidy where
  toNumbered := h.numbered htidy.toNumbered
  wake e he := by
    rcases List.mem_append.1 (h.entries.mem_iff.1 he) with he | he
    · exact hwake e he
    · exact htidy.wake e he
  single := by
    rw [← hcount, ← htidy.single, wakeReads, wakeReads, h.entries.countP_eq, List.countP_append, answers, answers,
      h.completion, h.overflow, Nat.add_assoc]
  room := by
    rw [h.room]
    exact htidy.room

end Adds

/-- The kernel takes the first entries of the submission queue, up to so many. -/
def fetch (r : Ring) (count : Nat) : Ring :=
  { r with
    submission := r.submission.drop count
    pending := r.pending ++ ((r.submission.take count).zipIdx r.handed).map fun (e, n) => (n, e)
    handed := r.handed + min count r.submission.length }

theorem adds_fetch (r : Ring) (count : Nat) : r.Adds [] (r.fetch count) where
  entries := by
    have hentries : (((r.submission.take count).zipIdx r.handed).map fun x => (x.2, x.1)).map Prod.snd =
        r.submission.take count := by
      rw [List.map_map]
      exact List.zipIdx_map_fst ..
    show (r.submission.drop count ++ (r.pending ++ _).map Prod.snd).Perm (r.submission ++ r.pending.map Prod.snd)
    rw [List.map_append, hentries]
    calc r.submission.drop count ++ (r.pending.map Prod.snd ++ r.submission.take count)
        _ |>.Perm (r.submission.drop count ++ (r.submission.take count ++ r.pending.map Prod.snd)) :=
          List.perm_append_comm.append_left _
        _ |>.Perm (r.submission.take count ++ (r.submission.drop count ++ r.pending.map Prod.snd)) :=
          List.perm_append_comm_assoc ..
        _ = r.submission ++ r.pending.map Prod.snd := by rw [← List.append_assoc, List.take_append_drop]
  numbered h := by
    have hnumbers : (((r.submission.take count).zipIdx r.handed).map fun x => (x.2, x.1)).map Prod.fst =
        List.range' r.handed (min count r.submission.length) := by
      rw [List.map_map, ← List.length_take]
      exact List.zipIdx_map_snd ..
    refine ⟨?_, ?_⟩
    · simp only [fetch, List.map_append, hnumbers]
      refine List.nodup_append.2 ⟨h.nodup, List.nodup_range', fun n hn n' hn' => ?_⟩
      have hless := h.handed n hn
      simp only [List.mem_range'_1] at hn'
      omega
    · simp only [fetch, List.map_append, hnumbers, List.mem_append, List.mem_range'_1]
      rintro n (hn | hn)
      · have hless := h.handed n hn
        omega
      · omega
  completion := rfl
  overflow := rfl
  room := rfl
  inflight := rfl
  registered := rfl

/-- A queue that is handed over is taken by the kernel, all of it. -/
theorem enter_eq_fetch (r : Ring) (h : r.refusals r.enters = none) :
    r.enter = (.ok r.submission.length, { r.fetch r.submission.length with enters := r.enters + 1 }) := by
  simp [enter, fetch, h]

/-- Handing the queue over adds nothing. -/
theorem adds_enter (r : Ring) : r.Adds [] r.enter.2 ∧ r.enter.2.armed = r.armed := by
  cases hrefusal : r.refusals r.enters with
  | some e =>
    unfold enter
    dsimp only
    rw [hrefusal]
    exact ⟨⟨.refl _, fun h => ⟨h.nodup, h.handed⟩, rfl, rfl, rfl, rfl, rfl⟩, rfl⟩
  | none =>
    have h := r.adds_fetch r.submission.length
    rw [r.enter_eq_fetch hrefusal]
    exact ⟨{ h with numbered := fun hn => ⟨(h.numbered hn).nodup, (h.numbered hn).handed⟩ }, rfl⟩

theorem submission_enter {n : Nat} (h : r.enter = (.ok n, r')) : r'.submission = [] := by
  unfold enter at h
  dsimp only at h
  cases hrefusal : r.refusals r.enters with
  | some e =>
    rw [hrefusal] at h
    cases h
  | none =>
    rw [hrefusal] at h
    cases h
    rfl

theorem adds_place (r : Ring) (e : Entry) :
    r.Adds (Entry.queued e (r.place e).1) (r.place e).2 ∧ (r.place e).2.armed = r.armed := by
  unfold place
  by_cases hfull : r.isFull = true
  · rw [if_pos hfull]
    exact ⟨.refl r, rfl⟩
  · rw [if_neg hfull]
    refine ⟨⟨?_, fun h => ⟨h.nodup, h.handed⟩, rfl, rfl, rfl, rfl, rfl⟩, rfl⟩
    simp only [entries, Entry.queued, List.append_assoc]
    exact List.perm_middle

theorem adds_pushEntry (r : Ring) (e : Entry) :
    r.Adds (Entry.queued e (r.pushEntry e).1) (r.pushEntry e).2 ∧ (r.pushEntry e).2.armed = r.armed := by
  unfold pushEntry
  by_cases hfull : r.isFull = true
  · rw [if_pos hfull]
    obtain ⟨hadds, harmed⟩ := r.adds_enter
    cases henter : r.enter with
    | mk answer r₁ =>
      rw [henter] at hadds harmed
      cases answer with
      | error e => exact ⟨hadds, harmed⟩
      | ok n =>
        obtain ⟨hadds', harmed'⟩ := r₁.adds_place e
        have hboth := hadds.trans hadds'
        rw [List.append_nil] at hboth
        exact ⟨hboth, harmed'.trans harmed⟩
  · rw [if_neg hfull]
    exact r.adds_place e

/-! ## The calls of a ring -/

namespace Tidy

theorem enter (h : r.Tidy) : r.enter.2.Tidy := by
  obtain ⟨hadds, harmed⟩ := r.adds_enter
  apply hadds.tidy h nofun
  rw [harmed]
  simp

/-- The kernel takes some entries. -/
theorem fetch (h : r.Tidy) (count : Nat) : (r.fetch count).Tidy :=
  (r.adds_fetch count).tidy h nofun (Nat.zero_add _)

/-- An operation is queued, or is not. -/
theorem push (h : r.Tidy) {op : Op} (hop : op.ctx.isWake = false) :
    (r.push op).2.Tidy ∧ (r.push op).2.hasWake = r.hasWake := by
  obtain ⟨hadds, harmed⟩ := r.adds_pushEntry ⟨op.ctx, .op op⟩
  have htidy : (r.pushEntry ⟨op.ctx, .op op⟩).2.Tidy := by
    apply hadds.tidy h
    · intro e he
      cases hanswer : (r.pushEntry ⟨op.ctx, .op op⟩).1 with
      | error _ =>
        rw [hanswer] at he
        cases he
      | ok _ =>
        rw [hanswer] at he
        obtain rfl := List.mem_singleton.1 he
        exact hop
    · rw [harmed]
      cases (r.pushEntry ⟨op.ctx, .op op⟩).1 <;> simp [Entry.queued, Entry.isWakeRead]
  have hsame := hadds.hasWake
  unfold Ring.push
  cases hpush : r.pushEntry ⟨op.ctx, .op op⟩ with
  | mk answer r₁ =>
    rw [hpush] at htidy hsame
    cases answer with
    | error e => exact ⟨htidy, hsame⟩
    | ok _ => exact ⟨⟨⟨htidy.nodup, htidy.handed⟩, htidy.wake, htidy.single, htidy.room⟩, hsame⟩

/-- A wake-up read is left, unless one is outstanding or the queue does not take it. -/
theorem arm (h : r.Tidy) : r.arm.2.Tidy ∧ r.arm.2.hasWake = r.hasWake := by
  unfold Ring.arm
  by_cases harmed : r.armed = true
  · rw [if_pos harmed]
    exact ⟨h, rfl⟩
  · rw [if_neg harmed]
    obtain ⟨hadds, hsame⟩ := r.adds_pushEntry ⟨.wake, .wakeRead⟩
    have hwake := hadds.hasWake
    cases hpush : r.pushEntry ⟨.wake, .wakeRead⟩ with
    | mk answer r₁ =>
      rw [hpush] at hadds hsame hwake
      cases answer with
      | error e =>
        refine ⟨hadds.tidy h nofun ?_, hwake⟩
        rw [hsame]
        simp [Entry.queued]
      | ok _ =>
        have hadds' : r.Adds [⟨.wake, .wakeRead⟩] { r₁ with armed := true } :=
          { hadds with numbered := fun hn => ⟨(hadds.numbered hn).nodup, (hadds.numbered hn).handed⟩ }
        refine ⟨hadds'.tidy h ?_ ?_, hwake⟩
        · intro e he
          obtain rfl := List.mem_singleton.1 he
          rfl
        · rw [if_neg harmed]
          rfl

end Tidy

/-! ## The answers of the kernel -/

theorem answers_post (r : Ring) (c : Completion) : (r.post c).answers = r.answers ++ [c] := by
  unfold post answers
  split
  · rename_i hroom
    simp only [Bool.and_eq_true, List.isEmpty_iff] at hroom
    simp [hroom.1]
  · simp

/-- Completions that move up keep their order. -/
theorem answers_moveUp (r : Ring) : r.moveUp.answers = r.answers := by
  simp only [moveUp, answers, List.append_assoc, List.take_append_drop]

/-- What is found under a number. -/
theorem lookup_of_mem {l : List (Nat × Entry)} {n : Nat} {e : Entry} (hnodup : (l.map Prod.fst).Nodup)
    (h : (n, e) ∈ l) : l.lookup n = some e := by
  induction l with
  | nil => cases h
  | cons x l ih =>
    obtain ⟨k, e'⟩ := x
    simp only [List.map_cons, List.nodup_cons] at hnodup
    rw [List.lookup_cons]
    rcases List.mem_cons.1 h with heq | hmem
    · cases heq
      simp
    · have hne : n ≠ k := by
        rintro rfl
        exact hnodup.1 (List.mem_map_of_mem (f := Prod.fst) hmem)
      rw [beq_eq_false_iff_ne.2 hne]
      exact ih hnodup.2 hmem

/-- Without what has a number, that is what is left. -/
theorem perm_filter_of_mem {l : List (Nat × Entry)} {n : Nat} {e : Entry} (hnodup : (l.map Prod.fst).Nodup)
    (h : (n, e) ∈ l) : l.Perm ((n, e) :: l.filter (·.1 ≠ n)) := by
  induction l with
  | nil => cases h
  | cons x l ih =>
    obtain ⟨k, e'⟩ := x
    simp only [List.map_cons, List.nodup_cons] at hnodup
    rw [List.filter_cons]
    rcases List.mem_cons.1 h with heq | hmem
    · cases heq
      have hrest : l.filter (·.1 ≠ n) = l := by
        apply List.filter_eq_self.2
        intro x hx
        refine decide_eq_true fun heq => hnodup.1 ?_
        have hmem := List.mem_map_of_mem (f := Prod.fst) hx
        rw [heq] at hmem
        exact hmem
      rw [if_neg (by simp), hrest]
    · have hne : k ≠ n := by
        rintro rfl
        exact hnodup.1 (List.mem_map_of_mem (f := Prod.fst) hmem)
      rw [if_pos (by simpa using hne)]
      exact ((ih hnodup.2 hmem).cons _).trans (List.Perm.swap ..)

/-- An entry that is answered is not with the kernel any more, and its completion is behind the others. -/
theorem complete_keeps (h : r.Numbered) {number : Nat} {e : Entry} (he : (number, e) ∈ r.pending) (result : Int32) :
    (r.complete number result).submission = r.submission ∧
      (r.complete number result).pending = r.pending.filter (·.1 ≠ number) ∧
      (r.complete number result).handed = r.handed ∧ (r.complete number result).armed = r.armed ∧
      (r.complete number result).completionCapacity = r.completionCapacity ∧
      (r.complete number result).answers = r.answers ++ [⟨e.ctx, result, 0⟩] := by
  unfold complete
  rw [lookup_of_mem h.nodup he]
  refine ⟨?_, ?_, ?_, ?_, ?_, answers_post ..⟩ <;> (dsimp only [post]; split <;> rfl)

/-- An answer goes past what the ring counts and what is registered with it. -/
theorem complete_aside (r : Ring) (number : Nat) (result : Int32) :
    (r.complete number result).inflight = r.inflight ∧ (r.complete number result).registered = r.registered := by
  unfold complete
  split
  · exact ⟨rfl, rfl⟩
  · constructor <;> (dsimp only [post]; split <;> rfl)

/-- An entry that is answered is the one that is not on its way any more. -/
theorem entries_complete (h : r.Numbered) {number : Nat} {e : Entry} (he : (number, e) ∈ r.pending) (result : Int32) :
    r.entries.Perm (e :: (r.complete number result).entries) := by
  obtain ⟨hsubmission, hpending, -⟩ := complete_keeps h he result
  rw [entries, entries, hsubmission, hpending]
  exact (((perm_filter_of_mem h.nodup he).map Prod.snd).append_left _).trans List.perm_middle

namespace Tidy

/-- The kernel answers an entry. Where that is the wake-up read, its completion is there. -/
theorem complete (h : r.Tidy) {number : Nat} {e : Entry} (he : (number, e) ∈ r.pending) (result : Int32) :
    (r.complete number result).Tidy ∧ (r.complete number result).hasWake = (r.hasWake || e.isWakeRead) := by
  have hmem : e ∈ r.entries := List.mem_append_right _ (List.mem_map_of_mem (f := Prod.snd) he)
  obtain ⟨-, hpending, hhanded, harmed, hcapacity, hanswers⟩ := complete_keeps h.toNumbered he result
  have hleft := entries_complete h.toNumbered he result
  refine ⟨⟨⟨?_, ?_⟩, ?_, ?_, ?_⟩, ?_⟩
  · rw [hpending]
    exact h.nodup.sublist (List.filter_sublist.map _)
  · rw [hpending, hhanded]
    intro n hn
    exact h.handed n ((List.filter_sublist.map _).subset hn)
  · intro e' he'
    exact h.wake e' (hleft.mem_iff.2 (List.mem_cons_of_mem _ he'))
  · have hsingle := h.single
    rw [wakeReads, hleft.countP_eq, List.countP_cons] at hsingle
    rw [harmed, ← hsingle, wakeReads, hanswers, List.countP_append, List.countP_singleton, h.wake e hmem]
    omega
  · rw [hcapacity]
    exact h.room
  · rw [hasWake, hanswers, List.any_append]
    simp [h.wake e hmem, hasWake]

/-- Completions that found no place move up. -/
theorem moveUp (h : r.Tidy) : r.moveUp.Tidy ∧ r.moveUp.hasWake = r.hasWake := by
  have hanswers := r.answers_moveUp
  have hsingle := h.single
  rw [wakeReads, ← hanswers] at hsingle
  refine ⟨⟨⟨h.nodup, h.handed⟩, h.wake, hsingle, h.room⟩, ?_⟩
  rw [hasWake, hanswers, hasWake]

end Tidy

/-! ## Taking completions out -/

/-- Where a wake-up completion was taken out, no read is believed to be outstanding. -/
theorem takeOff_wake (most : Nat) (cs : List Completion) (armed : Bool) : ∃ taken : Nat,
    cs.countP (·.ctx.isWake) = (takeOff most cs armed).2.1.countP (·.ctx.isWake) + taken ∧
      (takeOff most cs armed).2.2 = (armed && taken == 0) := by
  induction cs generalizing most armed with
  | nil => exact ⟨0, by simp [takeOff]⟩
  | cons c cs ih =>
    cases most with
    | zero => exact ⟨0, by simp [takeOff]⟩
    | succ n =>
      unfold takeOff
      by_cases hc : c.ctx.isWake = true
      · rw [if_pos hc, List.countP_cons, if_pos hc]
        obtain ⟨taken, hcount, hafter⟩ := ih (n + 1) false
        exact ⟨taken + 1, by omega, by simp [hafter]⟩
      · rw [if_neg hc, List.countP_cons, if_neg hc]
        exact ih n armed

theorem Tidy.poll (h : r.Tidy) (most : Nat) : (r.poll most).2.Tidy := by
  obtain ⟨taken, hcount, harmed⟩ := takeOff_wake most r.completion r.armed
  have hsingle := h.single
  refine ⟨⟨h.nodup, h.handed⟩, h.wake, ?_, h.room⟩
  simp only [wakeReads, answers, List.countP_append, hcount] at hsingle
  show r.entries.countP (·.isWakeRead) + ((takeOff most r.completion r.armed).2.1 ++ r.overflow).countP (·.ctx.isWake) =
    if (takeOff most r.completion r.armed).2.2 then 1 else 0
  rw [harmed, List.countP_append]
  by_cases htaken : taken = 0
  · subst htaken
    simpa using hsingle
  · rw [beq_eq_false_iff_ne.2 htaken, Bool.and_false]
    split at hsingle <;> simp only [Bool.false_eq_true, if_false] <;> omega

/-- A wake-up read that was handed over is with the kernel, or its completion is there. -/
theorem Tidy.here (h : r.Tidy) (harmed : r.armed = true) (hsubmission : r.submission = []) :
    r.holdsWake = true ∨ r.hasWake = true := by
  have hsingle := h.single
  rw [harmed, if_pos rfl, wakeReads, entries, hsubmission, List.nil_append, List.countP_map] at hsingle
  by_cases hpending : 0 < r.pending.countP ((·.isWakeRead) ∘ Prod.snd)
  · left
    obtain ⟨x, hx, hwake⟩ := List.countP_pos_iff.1 hpending
    exact List.any_eq_true.2 ⟨x, hx, hwake⟩
  · right
    have hanswers : 0 < r.answers.countP (·.ctx.isWake) := by omega
    obtain ⟨c, hc, hwake⟩ := List.countP_pos_iff.1 hanswers
    exact List.any_eq_true.2 ⟨c, hc, hwake⟩

/-! ## Room for completions -/

/-- Where no completion is in its place, none waits for one. -/
def InPlace (r : Ring) : Prop := r.completion = [] → r.overflow = []

theorem inPlace_moveUp (hroom : 0 < r.completionCapacity) : r.moveUp.InPlace := by
  intro hnil
  simp only [moveUp, List.append_eq_nil_iff] at hnil
  obtain ⟨hcompletion, htake⟩ := hnil
  simp only [hcompletion, List.length_nil, Nat.sub_zero, List.take_eq_nil_iff] at htake
  simp only [moveUp]
  rcases htake with hzero | hnone
  · omega
  · simp [hnone]

theorem InPlace.post (h : r.InPlace) (hroom : 0 < r.completionCapacity) (c : Completion) : (r.post c).InPlace := by
  unfold Ring.post
  by_cases hfree : (r.overflow.isEmpty && r.completion.length < r.completionCapacity) = true
  · rw [if_pos hfree]
    intro hnil
    simp at hnil
  · rw [if_neg hfree]
    intro hnil
    have hcompletion : r.completion = [] := hnil
    simp [h hcompletion, hcompletion, hroom] at hfree

theorem InPlace.complete (h : r.InPlace) (hroom : 0 < r.completionCapacity) (number : Nat) (result : Int32) :
    (r.complete number result).InPlace := by
  unfold Ring.complete
  split
  · exact h
  · exact post (r := { r with pending := r.pending.filter (·.1 ≠ number) }) h hroom _

/-! ## New rings -/

theorem roundUp_pos (n : Nat) : 0 < roundUp n := by
  unfold roundUp
  split
  · exact Nat.one_pos
  · rw [Nat.shiftLeft_eq, Nat.one_mul]
    exact Nat.two_pow_pos _

/-- A ring that was just set up is tidy. -/
theorem tidy_of_setup {entries : Nat} {completions : Option Nat} (h : setup entries completions = .ok (.ok r))
    (refusals : Nat → Option Int32) : ({ r with refusals } : Ring).Tidy := by
  unfold setup at h
  cases hdefault : defaultCompletions entries with
  | error fault =>
    rw [hdefault] at h
    cases h
  | ok n =>
    rw [hdefault] at h
    replace h : ofSizes entries (completions.getD n) = .ok r := by
      injection h
    unfold ofSizes at h
    split at h
    · cases h
    · cases h
      exact ⟨⟨List.nodup_nil, nofun⟩, nofun, rfl, roundUp_pos _⟩

end Ring

end SlotServer
