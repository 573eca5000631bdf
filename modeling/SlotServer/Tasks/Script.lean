/-!
# Scripts

Tasks that follow a script, one step after the other, up to a step that has to wait.
-/

namespace SlotServer

/-- A step of a script. -/
inductive ScriptStep
  /-- Tell something. -/
  | emit (what : String)
  /-- Tell which thread this is. -/
  | name
  /-- Tell how many threads are polling. -/
  | active
  /-- Wake this task so many times and let others go first. -/
  | giveWay (wakes : Nat)
  /-- Wake this task and go on. -/
  | wakeSelf
  /-- Wait for a wake. -/
  | park
  /-- Wait until a gate is open. -/
  | await (gate : String)
  /-- Open a gate and wake who waits at it. -/
  | openGate (gate : String)
  /-- Wake who waits at a gate. -/
  | poke (gate : String)
  /-- Start another task. -/
  | spawn (id : String) (steps : List ScriptStep)
  /-- Fail. -/
  | fail
  deriving Repr, Inhabited

/-- A task that follows a script. -/
structure Script where
  id : String
  steps : List ScriptStep
  deriving Repr, Inhabited

mutual

/-- The count of steps and tasks in a step. -/
def ScriptStep.weight : ScriptStep → Nat
  | .spawn _ steps => 2 + weightAll steps
  | _ => 1

/-- The count of steps and tasks in some steps. -/
def weightAll : List ScriptStep → Nat
  | [] => 0
  | s :: rest => s.weight + weightAll rest

end

end SlotServer
