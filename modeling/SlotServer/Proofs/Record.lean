import SlotServer.Proofs.View

/-!
# What the record tells of a slot

Everything below is read off the events of one slot, the latest of which stands first.

- `outstanding`: the operations that were queued and are not answered;
- `ending`: how the operation ended that a half began last, and `waiting`, `woken`: who was left waiting for it and who
  was woken.
-/

namespace SlotServer

/-! ## Operations and answers -/

/-- The half that an operation works on. A close works on none. -/
def Op.half? : Op → Option Half
  | .receive .. => some .receive
  | .send .. => some .send
  | .close .. => none

/-- What a completion tells whoever awaits its operation. -/
def Completion.outcome (c : Completion) : Outcome :=
  if c.result < 0 then .error (.io (-c.result)) else .ok c.result.toInt.toNat

/-- The operations that were queued and are not answered, the oldest first. A completion answers the oldest operation
with its context, and none is left once the kernel's side was let go. -/
def outstanding : List Event → List Op
  | [] => []
  | e :: h =>
    match e with
    | .queued op => outstanding h ++ [op]
    | .answered c => (outstanding h).eraseP fun op => op.ctx = c.ctx
    | .released => []
    | _ => outstanding h

/-- A completion answers an operation of the half. -/
def answersHalf (half : Half) (c : Completion) (h : List Event) : Bool :=
  (outstanding h).any fun op => op.ctx = c.ctx ∧ op.half? = some half

/-- What is outstanding was queued. -/
theorem mem_outstanding {h : List Event} {op : Op} (hop : op ∈ outstanding h) : .queued op ∈ h := by
  induction h with
  | nil => cases hop
  | cons e h ih =>
    cases e with
    | queued op' =>
      rcases List.mem_append.1 hop with hop | hop
      · exact List.mem_cons_of_mem _ (ih hop)
      · obtain rfl := List.mem_singleton.1 hop
        exact List.mem_cons_self ..
    | answered c => exact List.mem_cons_of_mem _ (ih (List.mem_of_mem_eraseP hop))
    | released => cases hop
    | _ => exact List.mem_cons_of_mem _ (ih hop)

/-- What is outstanding for a slot is told by the events of the slot alone. -/
theorem outstanding_concerns (i : Nat) (h : List Event) :
    outstanding (h.filter (·.concerns i)) = (outstanding h).filter (·.ctx.slot = i) := by
  induction h with
  | nil => rfl
  | cons e h ih =>
    rw [List.filter_cons]
    cases e with
    | queued op =>
      by_cases hop : op.ctx.slot = i
      · rw [if_pos (by exact decide_eq_true hop)]
        simp [outstanding, ih, hop]
      · rw [if_neg (by simpa [Event.concerns] using hop)]
        simp [outstanding, ih, hop]
    | answered c =>
      show outstanding _ = ((outstanding h).eraseP fun op => op.ctx = c.ctx).filter _
      by_cases hc : c.ctx.slot = i
      · have hboth : (fun op : Op => decide (op.ctx = c.ctx) && decide (op.ctx.slot = i)) =
            fun op => decide (op.ctx = c.ctx) := by
          funext op
          by_cases hctx : op.ctx = c.ctx <;> simp [hctx, hc]
        rw [if_pos (by exact decide_eq_true hc)]
        show (outstanding (h.filter (·.concerns i))).eraseP _ = _
        rw [ih, List.eraseP_filter, hboth]
      · rw [if_neg (by simpa [Event.concerns] using hc), ih]
        -- what is taken away is of another slot
        obtain hsame | ⟨op, before, after, -, hctx, hl, herase⟩ :=
          List.exists_or_eq_self_of_eraseP (fun op : Op => decide (op.ctx = c.ctx)) (outstanding h)
        · rw [hsame]
        · have hop : ¬ op.ctx.slot = i := fun hop => hc (of_decide_eq_true hctx ▸ hop)
          rw [herase, hl]
          simp [hop]
    | released => rfl
    | _ =>
      show outstanding _ = (outstanding h).filter _
      split
      · exact ih
      · exact ih

/-- A socket is bound to a slot. -/
def Event.isBound : Event → Bool
  | .bound .. => true
  | _ => false

/-! ## The operation that a half began last -/

/-- The half began an operation. -/
def begun (half : Half) : List Event → Bool
  | [] => false
  | e :: h =>
    match e with
    | .began cell => cell.half = half || begun half h
    | _ => begun half h

/-- How the operation ended that the half began last: by its answer, or because the kernel did not take it. -/
def ending (half : Half) : List Event → Option Outcome
  | [] => none
  | e :: h =>
    match e with
    | .began cell => if cell.half = half then none else ending half h
    | .answered c => (ending half h).or (if answersHalf half c h then some c.outcome else none)
    | .refused op e => (ending half h).or (if op.half? = some half then some (.error e) else none)
    | _ => ending half h

/-- Who was last left waiting for the operation that the half began last. -/
def waiting (half : Half) : List Event → Option Waker
  | [] => none
  | e :: h =>
    match e with
    | .began cell => if cell.half = half then none else waiting half h
    | .awaited cell waker => if cell.half = half then some waker else waiting half h
    | _ => waiting half h

/-- Who was woken for the operation that the half began last. -/
def woken (half : Half) : List Event → List Waker
  | [] => []
  | e :: h =>
    match e with
    | .began cell => if cell.half = half then [] else woken half h
    | .woke cell waker => if cell.half = half then waker :: woken half h else woken half h
    | _ => woken half h

/-- What the record tells of the operation that a half began last. -/
structure Told where
  /-- There is such an operation. -/
  begun : Bool
  ending : Option Outcome
  waiting : Option Waker
  woken : List Waker

/-- What the record tells of the operation that a half began last. -/
def told (half : Half) (h : List Event) : Told := ⟨begun half h, ending half h, waiting half h, woken half h⟩

end SlotServer
