import SlotServer.Proofs.Halves

/-!
# Requests and refusals

Eleven steps of a slot may be refused. One that is granted makes the one change that it is for. One that is refused
names the state it met, or the room that is wanting, and leaves the slot alone; but a receive's end keeps the count of
what it delivered before it is known whether a receive is under way, and so a refused one overwrites the count that the
connection has.

- `Slot.Request`: the eleven steps, with the states they are for (`Request.allowed`), why one is refused
  (`Request.refusal?`), and what one is for (`Request.change`, `Request.answer`);
- `Slot.Request.run_of_granted`, `Slot.Request.run_of_refused`: what becomes of a request;
- `Slot.Request.atomic_iff`: when a request is granted or does nothing;
- `Slot.Use`, `Slot.after`: whatever may be done to a slot, and a row of it;
- `Slot.even_heeded`: a row of uses without the requests in it that are refused comes to the same slot, up to the count;
- `Slot.receivedLength_after`: the count is the last one that came, granted or not;
- `Slot.ruling`: what a request meets with after any row of uses.
-/

namespace SlotServer.Slot

/-- What may be asked of a slot, and refused. -/
inductive Request
  | startAccept (fd : Int) (peer : Option Net.SocketAddress)
  | finishAccept
  | abortAccept
  | startReceive
  | finishReceive (n : Nat)
  | abortReceive (n : Nat)
  | startSend (length : Nat)
  | finishSend
  | abortSend
  | startDisconnect
  | finishDisconnect

section Answering

variable {β γ : Type} {g : β → γ} {f : Step β} {s t : Slot}

/-- A step whose answer is put in another form. -/
def answering (g : β → γ) (f : Step β) : Step γ := fun s => ((f s).1.map g, (f s).2)

theorem answering_ok {b : β} (h : f s = (.ok b, t)) : answering g f s = (.ok (g b), t) := by
  rw [answering, h]
  rfl

theorem answering_error {e : Error} (h : f s = (.error e, t)) : answering g f s = (.error e, t) := by
  rw [answering, h]
  rfl

/-- A step whose answer is only that it was done. -/
abbrev plain : Step Unit → Step (Option Int) := answering fun _ => none

end Answering

theorem finishDisconnect_error {s : Slot} (h : s.state ≠ .disconnecting) :
    s.finishDisconnect = (.error s.wrongState, s) := by
  rw [finishDisconnect, transition_of_not_mem fun hmem => h (List.mem_singleton.1 hmem)]

namespace Request

/-- Make the request. Only the end of a connection answers anything, its descriptor. -/
def run : Request → Step (Option Int)
  | startAccept fd peer => plain (Slot.startAccept fd peer)
  | finishAccept => plain Slot.finishAccept
  | abortAccept => plain Slot.abortAccept
  | startReceive => plain Slot.startReceive
  | finishReceive n => plain (Slot.finishReceive n)
  | abortReceive n => plain (Slot.abortReceive n)
  | startSend length => plain (Slot.startSend length)
  | finishSend => plain Slot.finishSend
  | abortSend => plain Slot.abortSend
  | startDisconnect => plain Slot.startDisconnect
  | finishDisconnect => answering some Slot.finishDisconnect

/-- The states that a request is for. -/
def allowed : Request → List SlotState
  | startAccept .. => [.disconnected]
  | finishAccept | abortAccept => [.accepting]
  | startReceive => [.accepted, .sent]
  | finishReceive _ | abortReceive _ => [.receiving]
  | startSend _ | startDisconnect => [.accepted, .received, .sent]
  | finishSend | abortSend => [.sending]
  | finishDisconnect => [.disconnecting]

/-- The state that a request leads to. -/
def next : Request → SlotState
  | startAccept .. => .accepting
  | finishAccept => .accepted
  | startReceive => .receiving
  | finishReceive _ => .received
  | startSend _ => .sending
  | finishSend => .sent
  | abortAccept | abortReceive _ | abortSend | startDisconnect => .disconnecting
  | finishDisconnect => .disconnected

/-- The room that the slot lacks for a request. -/
def shortage? : Request → Slot → Option Error
  | startSend length, s =>
    if s.sendHalf.length < length then some (.bufferTooSmall length s.sendHalf.length) else none
  | _, _ => none

/-- Why the slot refuses a request. -/
def refusal? (q : Request) (s : Slot) : Option Error :=
  (q.shortage? s).or (if s.state ∈ q.allowed then none else some (.invalidState s.index s.state))

/-- The one change that a request is for. -/
def change (q : Request) (s : Slot) : Slot :=
  match q with
  | startAccept fd peer => s.withSocket fd peer
  | startReceive => s.begin 0 .receive
  | startSend length => s.begin length .send
  | finishReceive n | abortReceive n => { s with state := q.next, receivedLength := n }
  | finishDisconnect => s.unbound
  | finishAccept | abortAccept | finishSend | abortSend | startDisconnect => { s with state := q.next }

/-- What is answered to a request that is granted. -/
def answer : Request → Slot → Option Int
  | finishDisconnect, s => some s.fd
  | _, _ => none

/-- The count that a request is to keep. -/
def count? : Request → Option Nat
  | finishReceive n | abortReceive n => some n
  | _ => none

/-- The slot after a request that was refused: a count that came with it is kept. -/
def leave (q : Request) (s : Slot) : Slot := { s with receivedLength := q.count?.getD s.receivedLength }

/-- The request makes its one change, or is refused and changes nothing. -/
inductive Atomic (q : Request) (s : Slot) : Prop
  | granted (hrun : q.run s = (.ok (q.answer s), q.change s))
  | refused {e : Error} (hrefusal : q.refusal? s = some e) (hrun : q.run s = (.error e, s))

variable {q : Request} {s : Slot} {e : Error}

theorem state_change (q : Request) (s : Slot) : (q.change s).state = q.next := by
  cases q <;> rfl

theorem refusal?_eq_none : q.refusal? s = none ↔ q.shortage? s = none ∧ s.state ∈ q.allowed := by
  rw [refusal?, Option.or_eq_none_iff]
  refine and_congr_right fun _ => ?_
  split <;> simp_all

/-- A request is refused for want of room, or else in the wrong state. -/
theorem refusal?_eq_some (h : q.refusal? s = some e) :
    q.shortage? s = some e ∨ q.shortage? s = none ∧ s.state ∉ q.allowed ∧ e = s.wrongState := by
  rw [refusal?] at h
  cases hshort : q.shortage? s with
  | some e' =>
    rw [hshort] at h
    exact .inl h
  | none =>
    rw [hshort, Option.none_or] at h
    split at h
    · cases h
    · rename_i hstate
      exact .inr ⟨rfl, hstate, (Option.some.inj h).symm⟩

theorem shortage?_eq_some (h : q.shortage? s = some e) :
    ∃ length, q = startSend length ∧ s.sendHalf.length < length ∧ e = .bufferTooSmall length s.sendHalf.length := by
  cases q with
  | startSend length =>
    rw [shortage?] at h
    split at h
    · rename_i hlong
      exact ⟨length, rfl, hlong, (Option.some.inj h).symm⟩
    · cases h
  | _ => cases h

/-- A request that is not refused makes its one change and succeeds. -/
theorem run_of_granted (h : q.refusal? s = none) : q.run s = (.ok (q.answer s), q.change s) := by
  obtain ⟨hshort, hstate⟩ := refusal?_eq_none.1 h
  cases q with
  | startAccept fd peer => exact answering_ok (startAccept_ok (List.mem_singleton.1 hstate) fd peer)
  | finishAccept => exact answering_ok (advance_of_mem hstate)
  | abortAccept => exact answering_ok (advance_of_mem hstate)
  | startReceive => exact answering_ok ((startReceive_eq s).trans (if_pos hstate))
  | finishReceive n => exact answering_ok (finishReceive_ok (List.mem_singleton.1 hstate) n)
  | abortReceive n => exact answering_ok (abortReceive_ok (List.mem_singleton.1 hstate) n)
  | startSend length =>
    have hfits : ¬ s.sendHalf.length < length := fun hlong => by
      rw [shortage?, if_pos hlong] at hshort
      cases hshort
    exact answering_ok ((startSend_eq s length).trans ((if_neg hfits).trans (if_pos hstate)))
  | finishSend => exact answering_ok (advance_of_mem hstate)
  | abortSend => exact answering_ok (advance_of_mem hstate)
  | startDisconnect => exact answering_ok (advance_of_mem hstate)
  | finishDisconnect => exact answering_ok (finishDisconnect_ok (List.mem_singleton.1 hstate))

/-- A request in the wrong state is refused, and the slot is left with the count that came with it. -/
theorem run_of_wrongState (hshort : q.shortage? s = none) (hstate : s.state ∉ q.allowed) :
    q.run s = (.error s.wrongState, q.leave s) := by
  cases q with
  | startAccept fd peer => exact answering_error (startAccept_error (fun h => hstate (List.mem_singleton.2 h)) fd peer)
  | finishAccept => exact answering_error (advance_of_not_mem hstate)
  | abortAccept => exact answering_error (advance_of_not_mem hstate)
  | startReceive => exact answering_error ((startReceive_eq s).trans (if_neg hstate))
  | finishReceive n => exact answering_error (advance_of_not_mem (s := { s with receivedLength := n }) hstate)
  | abortReceive n => exact answering_error (advance_of_not_mem (s := { s with receivedLength := n }) hstate)
  | startSend length =>
    have hfits : ¬ s.sendHalf.length < length := fun hlong => by
      rw [shortage?, if_pos hlong] at hshort
      cases hshort
    exact answering_error ((startSend_eq s length).trans ((if_neg hfits).trans (if_neg hstate)))
  | finishSend => exact answering_error (advance_of_not_mem hstate)
  | abortSend => exact answering_error (advance_of_not_mem hstate)
  | startDisconnect => exact answering_error (advance_of_not_mem hstate)
  | finishDisconnect => exact answering_error (finishDisconnect_error fun h => hstate (List.mem_singleton.2 h))

/-- A request that is refused says why, and the slot is left with the count that came with it. -/
theorem run_of_refused (h : q.refusal? s = some e) : q.run s = (.error e, q.leave s) := by
  obtain hshort | ⟨hshort, hstate, rfl⟩ := refusal?_eq_some h
  · obtain ⟨length, rfl, hlong, rfl⟩ := shortage?_eq_some hshort
    exact answering_error ((startSend_eq s length).trans (if_pos hlong))
  · exact run_of_wrongState hshort hstate

/-- Only the end of a receive comes with a count. -/
theorem allowed_of_count? {n : Nat} (h : q.count? = some n) : q.allowed = [.receiving] ∧ q.shortage? s = none := by
  cases q <;> first | exact ⟨rfl, rfl⟩ | cases h

/-- A request is granted or changes nothing, unless it is the end of a receive that is not under way and its count is
another than the slot's. -/
theorem atomic_iff : q.Atomic s ↔ ∀ n ∈ q.count?, s.state ≠ .receiving → n = s.receivedLength := by
  constructor
  · intro hatomic n hn hstate
    obtain ⟨hallowed, hshort⟩ := allowed_of_count? (s := s) hn
    have hrefused : q.run s = (.error s.wrongState, q.leave s) := by
      refine run_of_wrongState hshort fun hmem => hstate ?_
      rw [hallowed] at hmem
      exact List.mem_singleton.1 hmem
    cases hatomic with
    | granted hrun => cases hrefused.symm.trans hrun
    | refused _ hrun =>
      have hcount := congrArg (fun out => out.2.receivedLength) (hrefused.symm.trans hrun)
      rwa [leave, hn] at hcount
  · intro hsame
    cases hrefusal : q.refusal? s with
    | none => exact .granted (run_of_granted hrefusal)
    | some e =>
      have hleave : q.leave s = s := by
        cases hn : q.count? with
        | none => rw [leave, hn, Option.getD_none]
        | some n =>
          obtain ⟨hallowed, hshort⟩ := allowed_of_count? (s := s) hn
          have hstate : s.state ≠ .receiving := fun hworks => by
            have hmem : s.state ∈ q.allowed := by rw [hallowed, hworks]; exact List.mem_singleton.2 rfl
            rw [refusal?_eq_none.2 ⟨hshort, hmem⟩] at hrefusal
            cases hrefusal
          rw [leave, hn, Option.getD_some, hsame n hn hstate]
      exact .refused hrefusal ((run_of_refused hrefusal).trans (by rw [hleave]))

end Request

/-! ## Rows of uses -/

/-- Whatever may be done to a slot. -/
inductive Use
  | request (q : Request)
  | force
  | attach
  | detach
  | release
  | poll (half : Half) (waker : Waker)
  | complete (half : Half) (outcome : Outcome)

namespace Use

/-- The slot after a use of it. -/
def run : Use → Slot → Slot
  | request q, s => (q.run s).2
  | force, s => s.force.2
  | attach, s => s.attach
  | detach, s => s.detach
  | release, s => s.releaseLease.2
  | poll half waker, s => Connection.setCell s ((Connection.cell s half).poll waker).2 half
  | complete half outcome, s =>
    match s.completeHalf half outcome with
    | .ok (_, t) => t
    | .error _ => s

/-- The use is a request that the slot refuses. -/
def isRefused (u : Use) (s : Slot) : Bool :=
  match u with
  | request q => (q.refusal? s).isSome
  | force | attach | detach | release | poll .. | complete .. => false

/-- The count that a use leaves in the slot, if it leaves one. A new connection has received nothing. -/
def count? (u : Use) (s : Slot) : Option Nat :=
  match u with
  | request (.startAccept ..) => if s.state = .disconnected then some 0 else none
  | request q => q.count?
  | force | attach | detach | release | poll .. | complete .. => none

end Use

/-- The slot after a row of uses. -/
def after (s : Slot) : List Use → Slot
  | [] => s
  | u :: row => (u.run s).after row

/-- The row without the requests that are refused in its course. -/
def heeded (s : Slot) : List Use → List Use
  | [] => []
  | u :: row => if u.isRefused s then (u.run s).heeded row else u :: (u.run s).heeded row

/-- The counts that the uses of a row leave in the slot, one after the other. -/
def counts (s : Slot) : List Use → List Nat
  | [] => []
  | u :: row => (u.count? s).toList ++ (u.run s).counts row

/-- The slots are the same, up to the count of what was received. -/
def Even (s t : Slot) : Prop := ∃ n, t = { s with receivedLength := n }

variable {s t : Slot}

namespace Even

theorem refl (s : Slot) : s.Even s := ⟨s.receivedLength, rfl⟩

theorem symm (h : s.Even t) : t.Even s := by
  obtain ⟨n, rfl⟩ := h
  exact ⟨s.receivedLength, rfl⟩

theorem trans {r : Slot} (h : s.Even t) (h' : t.Even r) : s.Even r := by
  obtain ⟨n, rfl⟩ := h
  obtain ⟨n', rfl⟩ := h'
  exact ⟨n', rfl⟩

theorem leave (q : Request) (s : Slot) : s.Even (q.leave s) := ⟨_, rfl⟩

/-- What is refused does not hang on the count. -/
theorem refusal? (h : s.Even t) (q : Request) : q.refusal? t = q.refusal? s := by
  obtain ⟨n, rfl⟩ := h
  cases q <;> rfl

theorem change (h : s.Even t) (q : Request) : (q.change s).Even (q.change t) := by
  obtain ⟨n, rfl⟩ := h
  cases q <;> exact ⟨_, rfl⟩

/-- What comes of a request does not hang on the count. -/
theorem request (h : s.Even t) (q : Request) : (q.run t).1 = (q.run s).1 ∧ (q.run s).2.Even (q.run t).2 := by
  cases hrefusal : q.refusal? s with
  | none =>
    have hanswer : q.answer t = q.answer s := by
      obtain ⟨n, rfl⟩ := h
      cases q <;> rfl
    rw [Request.run_of_granted hrefusal, Request.run_of_granted ((h.refusal? q).trans hrefusal), hanswer]
    exact ⟨rfl, h.change q⟩
  | some e =>
    rw [Request.run_of_refused hrefusal, Request.run_of_refused ((h.refusal? q).trans hrefusal)]
    exact ⟨rfl, (leave q s).symm.trans (h.trans (leave q t))⟩

theorem force (h : s.Even t) : s.force.2.Even t.force.2 := by
  obtain ⟨n, rfl⟩ := h
  by_cases hfree : s.state = .disconnected
  · rw [force_free hfree, force_free (s := { s with receivedLength := n }) hfree]
    exact ⟨n, rfl⟩
  · rw [force_live hfree, force_live (s := { s with receivedLength := n }) hfree]
    exact ⟨n, rfl⟩

theorem setCell (h : s.Even t) (c : Cell) (half : Half) :
    (Connection.setCell s c half).Even (Connection.setCell t c half) := by
  obtain ⟨n, rfl⟩ := h
  cases half <;> exact ⟨n, rfl⟩

theorem cell (h : s.Even t) (half : Half) : Connection.cell t half = Connection.cell s half := by
  obtain ⟨n, rfl⟩ := h
  cases half <;> rfl

/-- What comes of a use does not hang on the count. -/
theorem use (h : s.Even t) (u : Use) : (u.run s).Even (u.run t) := by
  cases u with
  | request q => exact (h.request q).2
  | force => exact h.force
  | attach | detach | release =>
    obtain ⟨n, rfl⟩ := h
    exact ⟨n, rfl⟩
  | poll half waker =>
    rw [Use.run, Use.run, h.cell half]
    exact h.setCell _ half
  | complete half outcome =>
    rw [Use.run, Use.run, completeHalf, completeHalf, h.cell half]
    cases (Connection.cell s half).complete outcome with
    | ok out => exact h.setCell out.2 half
    | error _ => exact h

theorem isRefused (h : s.Even t) (u : Use) : u.isRefused t = u.isRefused s := by
  cases u with
  | request q => exact congrArg Option.isSome (h.refusal? q)
  | _ => rfl

/-- A use that is refused leaves the slot as it is, up to the count. -/
theorem of_isRefused {u : Use} (hrefused : u.isRefused s = true) : s.Even (u.run s) := by
  cases u with
  | request q =>
    obtain ⟨e, hrefusal⟩ := Option.isSome_iff_exists.1 hrefused
    rw [Use.run, Request.run_of_refused hrefusal]
    exact leave q s
  | _ => cases hrefused

end Even

/-- A row of uses comes to the same slot, up to the count, as the row without the requests that are refused in it. -/
theorem even_heeded (h : s.Even t) (row : List Use) : (s.after row).Even (t.after (s.heeded row)) := by
  induction row generalizing s t with
  | nil => exact h
  | cons u row ih =>
    rw [after, heeded]
    split
    · rename_i hrefused
      exact ih ((Even.of_isRefused hrefused).symm.trans h)
    · exact ih (h.use u)

/-- No request of the row that is left is refused. -/
theorem heeded_heeded (h : s.Even t) (row : List Use) : t.heeded (s.heeded row) = s.heeded row := by
  induction row generalizing s t with
  | nil => rfl
  | cons u row ih =>
    rw [heeded]
    split
    · rename_i hrefused
      exact ih ((Even.of_isRefused hrefused).symm.trans h)
    · rename_i hgranted
      rw [heeded, h.isRefused u, if_neg hgranted, ih (h.use u)]

/-- A use leaves its count in the slot, or the one that was there. -/
theorem Use.receivedLength_run (u : Use) (s : Slot) :
    (u.run s).receivedLength = (u.count? s).getD s.receivedLength := by
  cases u with
  | request q =>
    rw [run]
    cases hrefusal : q.refusal? s with
    | none =>
      have hstate := (Request.refusal?_eq_none.1 hrefusal).2
      rw [Request.run_of_granted hrefusal]
      cases q with
      | startAccept fd peer => rw [count?, if_pos (List.mem_singleton.1 hstate)]; rfl
      | _ => rfl
    | some e =>
      rw [Request.run_of_refused hrefusal]
      cases q with
      | startAccept fd peer =>
        have hbound : s.state ≠ .disconnected := fun hfree => by
          rw [Request.refusal?_eq_none.2 ⟨rfl, List.mem_singleton.2 hfree⟩] at hrefusal
          cases hrefusal
        rw [count?, if_neg hbound]
        rfl
      | _ => rfl
  | force =>
    by_cases hfree : s.state = .disconnected
    · rw [run, force_free hfree]; rfl
    · rw [run, force_live hfree]; rfl
  | attach | detach | release => rfl
  | poll half waker => cases half <;> rfl
  | complete half outcome =>
    rw [run, completeHalf]
    cases (Connection.cell s half).complete outcome with
    | ok out => cases half <;> rfl
    | error _ => rfl

/-- The count after a row is the last one that came with a use of it, granted or not. -/
theorem receivedLength_after (s : Slot) (row : List Use) :
    (s.after row).receivedLength = (s.counts row).getLastD s.receivedLength := by
  induction row generalizing s with
  | nil => rfl
  | cons u row ih =>
    rw [after, counts, ih, u.receivedLength_run]
    cases u.count? s with
    | none => rfl
    | some n => exact (List.getLastD_cons ..).symm

/-- What a request meets with after a row of uses. -/
structure Ruling (s : Slot) (row : List Use) (q : Request) : Prop where
  /-- Where the request is not refused, it makes its one change, from a state that it is for to the next. -/
  granted : q.refusal? (s.after row) = none →
    q.run (s.after row) = (.ok (q.answer (s.after row)), q.change (s.after row)) ∧
      (s.after row).state ∈ q.allowed ∧ (q.change (s.after row)).state = q.next
  /-- Where it is refused, it says why, and keeps only a count that came with it. -/
  refused : ∀ e, q.refusal? (s.after row) = some e → q.run (s.after row) = (.error e, q.leave (s.after row))
  /-- It is granted or does nothing, unless it brings another count to a slot that is not receiving. -/
  atomic_iff : q.Atomic (s.after row) ↔
    ∀ n ∈ q.count?, (s.after row).state ≠ .receiving → n = (s.after row).receivedLength
  /-- The requests that were refused before left no trace but in the count, which is the last one that came with a
  use of the row, whether that was granted or not. -/
  traceless : s.after row =
    { s.after (s.heeded row) with receivedLength := (s.counts row).getLastD s.receivedLength }
  /-- Without them, no request of the row is refused. -/
  heeded : s.heeded (s.heeded row) = s.heeded row

/-- After any row of uses of any slot, a request is granted and makes its one change, or it is refused and says why. A
refused one changes nothing but the count of what was received, and that only if it is the end of a receive. -/
theorem ruling (s : Slot) (row : List Use) (q : Request) : s.Ruling row q where
  granted h := ⟨Request.run_of_granted h, (Request.refusal?_eq_none.1 h).2, q.state_change _⟩
  refused _ h := Request.run_of_refused h
  atomic_iff := Request.atomic_iff
  traceless := by
    obtain ⟨n, hn⟩ := (even_heeded (.refl s) row).symm
    have hcount : n = (s.after row).receivedLength := (congrArg receivedLength hn).symm
    rw [hn, hcount, receivedLength_after]
  heeded := heeded_heeded (.refl s) row

/-- The end of a receive is refused where a connection was just accepted, and still the connection has received
something after it. -/
theorem not_atomic_finishReceive : ∃ s, ofSegment 0 ⟨0, 0, 64⟩ 32 = .ok s ∧
    ¬ (Request.finishReceive 5).Atomic (s.after [.request (.startAccept 7 none), .request .finishAccept]) := by
  refine ⟨_, rfl, fun hatomic => ?_⟩
  have hcount : 5 = 0 := Request.atomic_iff.1 hatomic 5 rfl nofun
  cases hcount

end SlotServer.Slot
