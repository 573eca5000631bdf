import SlotServer.Cell

/-!
# Cells on the bench

A row of cells with named futures on them, handled one call at a time, and a count of the wakes of each task.

- `Cells.poll`, `Cells.pollRacing`, `Cells.complete`, `Cells.reset`: the calls of a cell;
- `Cells.pollFuture`: a poll through a future.
-/

namespace SlotServer.Bench

/-- A row of cells, the futures on them by name, and who was woken, in order. -/
structure Cells where
  cells : List Cell
  futures : List (String × Future Nat) := []
  woken : List Waker := []

namespace Cells

/-- A row of `n` fresh cells. -/
def row (n : Nat) : Cells := { cells := List.replicate n {} }

/-- The cell at a place. -/
def cell (b : Cells) (i : Nat) : Cell := b.cells[i]?.getD {}

/-- The row with another cell at a place. -/
def put (b : Cells) (i : Nat) (c : Cell) : Cells := { b with cells := b.cells.set i c }

/-- How often a task was woken. -/
def wakes (b : Cells) (task : Nat) : Nat := b.woken.count (.task task)

/-- Poll a cell for a task. -/
def poll (b : Cells) (i task : Nat) : Poll Outcome × Cells :=
  let (answer, c) := (b.cell i).poll (.task task)
  (answer, b.put i c)

/-- Poll a cell while its outcome arrives. -/
def pollRacing (b : Cells) (i task : Nat) (outcome : Outcome) : Poll Outcome × Cells :=
  let (answer, c) := (b.cell i).pollRacing (.task task) outcome
  (answer, b.put i c)

/-- Complete a cell and wake who waits. -/
def complete (b : Cells) (i : Nat) (outcome : Outcome) : Except Fault Cells :=
  ((b.cell i).complete outcome).map fun (waker, c) =>
    { b.put i c with woken := b.woken ++ waker.toList }

/-- Reset a cell. -/
def reset (b : Cells) (i : Nat) : Cells := b.put i (b.cell i).reset

/-- Give a name to a future. -/
def name (b : Cells) (name : String) (future : Future Nat) : Cells :=
  { b with futures := (name, future) :: b.futures }

/-- Poll a future by name, if there is one. -/
def pollFuture (b : Cells) (name : String) (task : Nat) : Option (Poll Outcome) × Cells :=
  match b.futures.lookup name with
  | none => (none, b)
  | some (.awaiting i) =>
    let (answer, b) := b.poll i task
    (some answer, b)
  | some (.refused error) => (some (.ready (refusal error)), b.name name (.refused none))

end Cells

end SlotServer.Bench
