/-!
# Rotation

A choice that goes round: 0, 1, …, `size - 1`, 0, ….

- `Rotation.pick`, `Rotation.picks`: the next number, and the next few;
- `Rotation.picks_add`: picks in two goes are the picks in one.
-/

namespace SlotServer

/-- A choice among `size` numbers that goes round. -/
structure Rotation where
  next : Nat
  size : Nat
  deriving DecidableEq, Repr

namespace Rotation

/-- A rotation over `n` numbers, or over one where `n` is zero. -/
def start (n : Nat) : Rotation := ⟨0, max n 1⟩

/-- The next number, and the rotation after it. -/
def pick (r : Rotation) : Nat × Rotation := (r.next, { r with next := (r.next + 1) % r.size })

/-- The next `count` numbers, and the rotation after them. -/
def picks (r : Rotation) : Nat → List Nat × Rotation
  | 0 => ([], r)
  | count + 1 =>
    let (first, r) := r.pick
    let (rest, r) := r.picks count
    (first :: rest, r)

theorem length_picks (r : Rotation) (count : Nat) : (r.picks count).1.length = count := by
  induction count generalizing r with
  | zero => rfl
  | succ count ih => simp [picks, ih]

theorem picks_add (r : Rotation) (m n : Nat) :
    (r.picks (m + n)).1 = (r.picks m).1 ++ ((r.picks m).2.picks n).1 := by
  induction m generalizing r with
  | zero => simp [picks]
  | succ m ih => rw [Nat.succ_add]; simp [picks, ih]

end Rotation

end SlotServer
