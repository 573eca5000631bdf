import SlotServer.Program

/-!
# The command line

The program in a network namespace that no route leads to. It serves until a line or the end comes on its standard
input.

- `Program.run`: start, wait, and stop;
- `main`: the arguments and the exit code.
-/

namespace SlotServer.Program

/-- The variables of the environment that matter. -/
def readEnvironment : IO Environment := do
  let found ← Config.variableNames.mapM fun name => return (name, ← IO.getEnv name)
  return ⟨found.filterMap fun (name, value) => value.map fun value => (name, some value)⟩

/-- Write lines. -/
def write (lines : List Line) : IO Unit := lines.forM fun line => IO.eprintln line.text

/-- Start the server, wait for a line, and stop it. The answer is the exit code. -/
def run (config : Config) : IO UInt32 := do
  match launch config machineCores {} with
  | .error fault => throw (IO.userError fault.message)
  | .ok (answer, lines) =>
    write lines
    if let .ok server := answer then
      let begun ← IO.monoMsNow
      discard (← IO.getStdin).getLine
      let tenths := ((← IO.monoMsNow) - begun) / 100
      match farewell server tenths with
      | .error fault => throw (IO.userError fault.message)
      | .ok lines => write lines
    return UInt32.ofNat (exitCode answer)

end SlotServer.Program

/-- The program. -/
def main (args : List String) : IO UInt32 := do
  SlotServer.Program.run (SlotServer.Program.configure (← SlotServer.Program.readEnvironment) args)
