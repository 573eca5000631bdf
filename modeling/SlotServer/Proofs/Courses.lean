import SlotServer.Proofs.Turns

/-!
# What begins and ends in turns

Operations, descriptors and leases begin and end. In a log of marks, whatever stands open is read off the log: nothing
may begin while another one of its kind stands open, and only what stands open may end.

- `Course`: a kind of what begins and ends, and `Course.after`: what stands open after a log;
- `operation`, `descriptor`, `lease`: the operations of a cell, the descriptors of a slot, and the leases of a slot's
  sockets;
- `Mark.kind`: what a mark is about, so that whatever else is marked changes nothing;
- `pushedOf`, `poppedOf`: the commands of a slot that were put into the inbox and taken out.
-/

namespace SlotServer

/-- A kind of what begins and ends in turns. -/
structure Course (β : Type) where
  opens : Mark → Option β
  closes : Mark → Option β

namespace Course

variable {β : Type} [DecidableEq β]

/-- What stands open after a log, if all in it began and ended in turns. -/
def after (c : Course β) (init : Option β) : List Mark → Option (Option β)
  | [] => some init
  | e :: log =>
    match c.opens e, c.closes e with
    | some b, _ => if c.after init log = some none then some (some b) else none
    | none, some b => if c.after init log = some (some b) then some none else none
    | none, none => c.after init log

variable {c : Course β} {init : Option β} {log : List Mark} {e : Mark}

theorem after_opens {b : β} (ho : c.opens e = some b) (h : c.after init log = some none) :
    c.after init (e :: log) = some (some b) := by
  simp [after, ho, h]

theorem after_closes {b : β} (ho : c.opens e = none) (hc : c.closes e = some b)
    (h : c.after init log = some (some b)) : c.after init (e :: log) = some none := by
  simp [after, ho, hc, h]

theorem after_other (ho : c.opens e = none) (hc : c.closes e = none) : c.after init (e :: log) = c.after init log := by
  simp [after, ho, hc]

/-- Marks of other things change nothing. -/
theorem after_append {marks : List Mark} (h : ∀ e ∈ marks, c.opens e = none ∧ c.closes e = none) :
    c.after init (marks ++ log) = c.after init log := by
  induction marks with
  | nil => rfl
  | cons e marks ih =>
    obtain ⟨ho, hc⟩ := h e (List.mem_cons_self ..)
    exact (after_other ho hc).trans (ih fun e' he' => h e' (List.mem_cons_of_mem _ he'))

end Course

/-- The operations of a cell. -/
def operation (cell : CellName) : Course Unit where
  opens
    | .began other => if other = cell then some () else none
    | _ => none
  closes
    | .completed other => if other = cell then some () else none
    | _ => none

/-- The descriptors of a slot. -/
def descriptor (i : Nat) : Course Int where
  opens
    | .bound j fd => if j = i then some fd else none
    | _ => none
  closes
    | .closed j fd | .spared j fd => if j = i then some fd else none
    | _ => none

/-- The leases of a slot's sockets. -/
def lease (i : Nat) : Course Unit where
  opens
    | .bound j _ => if j = i then some () else none
    | _ => none
  closes
    | .freed j => if j = i then some () else none
    | _ => none

/-- What a mark is about. -/
inductive MarkKind
  | inbox
  | operation
  | socket
  deriving DecidableEq

/-- What a mark is about. -/
def Mark.kind : Mark → MarkKind
  | .pushed _ | .popped _ => .inbox
  | .began _ | .completed _ => .operation
  | .bound .. | .closed .. | .spared .. | .freed _ => .socket

/-- The command of the slot that was put into the inbox. -/
def Mark.pushed? (i : Nat) : Mark → Option Command
  | .pushed c => if c.slot = i then some c else none
  | _ => none

/-- The command of the slot that was taken out of the inbox. -/
def Mark.popped? (i : Nat) : Mark → Option Command
  | .popped c => if c.slot = i then some c else none
  | _ => none

/-- The commands of a slot that were put into the inbox, the oldest first. -/
def pushedOf (i : Nat) (log : List Mark) : List Command := (log.filterMap (·.pushed? i)).reverse

/-- The commands of a slot that were taken out of the inbox, the oldest first. -/
def poppedOf (i : Nat) (log : List Mark) : List Command := (log.filterMap (·.popped? i)).reverse

section Others

variable {i : Nat} {marks log : List Mark}

theorem operation_append {half : Half} {init : Option Unit} (h : ∀ e ∈ marks, e.slot ≠ i ∨ e.kind ≠ .operation) :
    (operation ⟨i, half⟩).after init (marks ++ log) = (operation ⟨i, half⟩).after init log := by
  refine Course.after_append fun e he => ?_
  have hother := h e he
  cases e <;> simp_all [operation, Mark.slot, Mark.kind] <;> (rintro rfl; exact hother rfl)

theorem descriptor_append {init : Option Int} (h : ∀ e ∈ marks, e.slot ≠ i ∨ e.kind ≠ .socket) :
    (descriptor i).after init (marks ++ log) = (descriptor i).after init log := by
  refine Course.after_append fun e he => ?_
  have hother := h e he
  cases e <;> simp_all [descriptor, Mark.slot, Mark.kind]

theorem lease_append {init : Option Unit} (h : ∀ e ∈ marks, e.slot ≠ i ∨ e.kind ≠ .socket) :
    (lease i).after init (marks ++ log) = (lease i).after init log := by
  refine Course.after_append fun e he => ?_
  have hother := h e he
  cases e <;> simp_all [lease, Mark.slot, Mark.kind]

theorem pushedOf_append (h : ∀ e ∈ marks, e.slot ≠ i ∨ e.kind ≠ .inbox) :
    pushedOf i (marks ++ log) = pushedOf i log := by
  have hnone : marks.filterMap (·.pushed? i) = [] := List.filterMap_eq_nil_iff.2 fun e he => by
    have hother := h e he
    cases e <;> simp_all [Mark.pushed?, Mark.slot, Mark.kind]
  rw [pushedOf, List.filterMap_append, hnone]
  rfl

theorem poppedOf_append (h : ∀ e ∈ marks, e.slot ≠ i ∨ e.kind ≠ .inbox) :
    poppedOf i (marks ++ log) = poppedOf i log := by
  have hnone : marks.filterMap (·.popped? i) = [] := List.filterMap_eq_nil_iff.2 fun e he => by
    have hother := h e he
    cases e <;> simp_all [Mark.popped?, Mark.slot, Mark.kind]
  rw [poppedOf, List.filterMap_append, hnone]
  rfl

theorem pushedOf_pushed {c : Command} (hc : c.slot = i) : pushedOf i (.pushed c :: log) = pushedOf i log ++ [c] := by
  simp [pushedOf, Mark.pushed?, hc]

theorem poppedOf_popped {c : Command} (hc : c.slot = i) : poppedOf i (.popped c :: log) = poppedOf i log ++ [c] := by
  simp [poppedOf, Mark.popped?, hc]

end Others

end SlotServer
