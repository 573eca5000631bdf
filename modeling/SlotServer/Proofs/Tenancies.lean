import Mathlib.Data.List.Basic
import SlotServer.Proofs.Record

/-!
# Tenancies

A slot is used by one socket after the other. A tenancy is one such use: it begins when the socket is bound, and the
handler may be given its connection.

- `tenancies`: the tenancies that a record tells of, and `tenancy?`: the last one of a slot;
- `Tenancy.serve`: what a tenancy is changed to when its connection is given to the handler;
- `ended`: the tenancies that are over, where some slots are in use (`countP_ended`).
-/

namespace SlotServer

/-- One use of a slot by a socket. -/
structure Tenancy where
  slot : Nat
  /-- How often the handler was given the connection. -/
  services : Nat := 0
  deriving DecidableEq, Repr

namespace Tenancy

/-- The handler was given the connection. -/
def isServed (t : Tenancy) : Bool := t.services ≠ 0

/-- The handler is given the connection of a slot. It is that of the slot's last tenancy. -/
def serve (i : Nat) : List Tenancy → List Tenancy
  | [] => []
  | t :: ts => if t.slot = i then { t with services := t.services + 1 } :: ts else t :: serve i ts

/-- How often the handler was given a connection. -/
def served : List Tenancy → Nat
  | [] => 0
  | t :: ts => t.services + served ts

end Tenancy

/-- The tenancies that a record tells of, the latest first. -/
def tenancies : List Event → List Tenancy
  | [] => []
  | e :: h =>
    match e with
    | .bound i _ => { slot := i } :: tenancies h
    | .served i => Tenancy.serve i (tenancies h)
    | _ => tenancies h

/-- The last tenancy of a slot. -/
def tenancy? (i : Nat) (ts : List Tenancy) : Option Tenancy := ts.find? (·.slot = i)

/-- The tenancies that are over, where the slots of a list are in use. The last tenancy of such a slot is not over. -/
def ended (live : List Nat) : List Tenancy → List Tenancy
  | [] => []
  | t :: ts => if t.slot ∈ live then ended (live.erase t.slot) ts else t :: ended live ts

/-! ## Events that tell of tenancies -/

/-- A socket was bound, or a connection was given to the handler. -/
def Event.isService : Event → Bool
  | .bound .. | .served _ => true
  | _ => false

/-- A connection was given to the handler. -/
def Event.isServed : Event → Bool
  | .served _ => true
  | _ => false

theorem tenancies_filter (h : List Event) : tenancies (h.filter (·.isService)) = tenancies h := by
  induction h with
  | nil => rfl
  | cons e h ih =>
    cases e with
    | bound i fd => exact congrArg (Tenancy.mk i 0 :: ·) ih
    | served i => exact congrArg (Tenancy.serve i) ih
    | _ => exact ih

theorem countP_isServed_filter (h : List Event) :
    (h.filter (·.isService)).countP (·.isServed) = h.countP (·.isServed) := by
  rw [List.countP_filter]
  refine List.countP_congr fun e _ => ?_
  cases e <;> simp [Event.isServed, Event.isService]

/-! ## Giving a connection to the handler -/

section Serve

variable {i j : Nat} {t : Tenancy} {ts : List Tenancy}

theorem tenancy?_cons (i : Nat) (t : Tenancy) (ts : List Tenancy) :
    tenancy? i (t :: ts) = if t.slot = i then some t else tenancy? i ts := by
  unfold tenancy?
  rw [List.find?_cons]
  by_cases h : t.slot = i <;> simp [h]

namespace Tenancy

@[simp] theorem map_slot_serve (i : Nat) (ts : List Tenancy) : (serve i ts).map (·.slot) = ts.map (·.slot) := by
  induction ts with
  | nil => rfl
  | cons t ts ih =>
    unfold serve
    split
    · rfl
    · exact congrArg (t.slot :: ·) ih

theorem tenancy?_serve_self (h : tenancy? i ts = some t) :
    tenancy? i (serve i ts) = some { t with services := t.services + 1 } := by
  induction ts with
  | nil => cases h
  | cons t' ts ih =>
    rw [tenancy?_cons] at h
    unfold serve
    split
    · rename_i hi
      rw [if_pos hi] at h
      cases h
      rw [tenancy?_cons, if_pos hi]
    · rename_i hi
      rw [if_neg hi] at h
      rw [tenancy?_cons, if_neg hi]
      exact ih h

theorem tenancy?_serve_of_ne (h : j ≠ i) : tenancy? j (serve i ts) = tenancy? j ts := by
  induction ts with
  | nil => rfl
  | cons t ts ih =>
    unfold serve
    split
    · rename_i hi
      have hj : t.slot ≠ j := fun hj => h (hj.symm.trans hi)
      rw [tenancy?_cons, tenancy?_cons, if_neg hj, if_neg hj]
    · rw [tenancy?_cons, tenancy?_cons, ih]

theorem served_serve (h : tenancy? i ts = some t) : served (serve i ts) = served ts + 1 := by
  induction ts with
  | nil => cases h
  | cons t' ts ih =>
    rw [tenancy?_cons] at h
    unfold serve
    split
    · simp only [served]
      omega
    · rename_i hi
      rw [if_neg hi] at h
      rw [served, served, ih h, Nat.add_assoc]

/-- A tenancy that was not served is served once. -/
theorem serve_once (hall : ∀ t ∈ ts, t.services ≤ 1) (h : tenancy? i ts = some t) (hnone : t.isServed = false) :
    ∀ t ∈ serve i ts, t.services ≤ 1 := by
  induction ts with
  | nil => exact nofun
  | cons t' ts ih =>
    obtain ⟨hfirst, hrest⟩ := List.forall_mem_cons.1 hall
    rw [tenancy?_cons] at h
    unfold serve
    split
    · rename_i hi
      rw [if_pos hi] at h
      cases h
      have hzero : t.services = 0 := by simpa [isServed] using hnone
      exact List.forall_mem_cons.2 ⟨by simp [hzero], hrest⟩
    · rename_i hi
      rw [if_neg hi] at h
      exact List.forall_mem_cons.2 ⟨hfirst, ih hrest h⟩

/-- Tenancies that were served at most once were served as often as they were served at all. -/
theorem countP_isServed (hall : ∀ t ∈ ts, t.services ≤ 1) : ts.countP (·.isServed) = served ts := by
  induction ts with
  | nil => rfl
  | cons t ts ih =>
    obtain ⟨hfirst, hrest⟩ := List.forall_mem_cons.1 hall
    rw [List.countP_cons, ih hrest]
    simp only [served, isServed]
    by_cases hzero : t.services = 0
    · simp [hzero]
    · have hone : t.services = 1 := Nat.le_antisymm hfirst (Nat.pos_of_ne_zero hzero)
      simp [hone, Nat.add_comm]

end Tenancy

end Serve

/-! ## Tenancies that are over -/

/-- Each tenancy is over or the last one of a slot that is in use. -/
theorem countP_ended (p : Tenancy → Bool) {live : List Nat} {ts : List Tenancy} (hnodup : live.Nodup)
    (hlive : ∀ i ∈ live, (tenancy? i ts).isSome = true) :
    (ended live ts).countP p + live.countP (fun i => (tenancy? i ts).any p) = ts.countP p := by
  induction ts generalizing live with
  | nil =>
    obtain rfl : live = [] := List.eq_nil_iff_forall_not_mem.2 fun i hi => by cases hlive i hi
    rfl
  | cons t ts ih =>
    -- for any slot but that of the latest tenancy, this one changes nothing
    have hother : ∀ i, i ≠ t.slot → tenancy? i (t :: ts) = tenancy? i ts := fun i hi => by
      rw [tenancy?_cons, if_neg (Ne.symm hi)]
    unfold ended
    split
    · rename_i hmem
      have hrest : ∀ i ∈ live.erase t.slot, i ≠ t.slot := fun i hi =>
        ((List.Nodup.mem_erase_iff hnodup).1 hi).1
      have hcount := ih (hnodup.erase t.slot) fun i hi => by
        rw [← hother i (hrest i hi)]
        exact hlive i (List.mem_of_mem_erase hi)
      have hsame : (live.erase t.slot).countP (fun i => (tenancy? i (t :: ts)).any p) =
          (live.erase t.slot).countP fun i => (tenancy? i ts).any p :=
        List.countP_congr fun i hi => by rw [hother i (hrest i hi)]
      have hself : tenancy? t.slot (t :: ts) = some t := by rw [tenancy?_cons, if_pos rfl]
      rw [(List.perm_cons_erase hmem).countP_eq, List.countP_cons, List.countP_cons, hsame, hself, ← hcount]
      exact (Nat.add_assoc ..).symm
    · rename_i hnot
      have hne : ∀ i ∈ live, i ≠ t.slot := fun i hi heq => hnot (heq ▸ hi)
      have hcount := ih hnodup fun i hi => by
        rw [← hother i (hne i hi)]
        exact hlive i hi
      have hsame : live.countP (fun i => (tenancy? i (t :: ts)).any p) = live.countP fun i => (tenancy? i ts).any p :=
        List.countP_congr fun i hi => by rw [hother i (hne i hi)]
      rw [List.countP_cons, List.countP_cons, hsame, ← hcount]
      omega

theorem length_ended {live : List Nat} {ts : List Tenancy} (hnodup : live.Nodup)
    (hlive : ∀ i ∈ live, (tenancy? i ts).isSome = true) : (ended live ts).length + live.length = ts.length := by
  have hcount := countP_ended (fun _ => true) hnodup hlive
  have hall : live.countP (fun i => (tenancy? i ts).any fun _ => true) = live.length :=
    List.countP_eq_length.2 fun i hi => by
      obtain ⟨t, ht⟩ := Option.isSome_iff_exists.1 (hlive i hi)
      rw [ht]
      rfl
  rw [hall, List.countP_true] at hcount
  exact hcount

end SlotServer
