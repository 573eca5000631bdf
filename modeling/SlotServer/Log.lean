import SlotServer.Text.Blank

/-!
# The log

Lines of five levels, of which a threshold lets some through. A line names its level by a letter and the thread that
wrote it.

- `LogLevel.enables`: which lines a threshold lets through;
- `LogLevel.parse?`: levels by name or digit;
- `LogLine.text`: the line as it is written.
-/

namespace SlotServer

/-- The level of a line, and the threshold that lines have to meet. -/
inductive LogLevel
  | off
  | error
  | warn
  | info
  | debug
  | trace
  deriving DecidableEq, Repr, Inhabited

namespace LogLevel

/-- The number of a level. -/
def code : LogLevel → UInt8
  | off => 0
  | error => 1
  | warn => 2
  | info => 3
  | debug => 4
  | trace => 5

/-- The level of a number; everything from five on is the most detailed one. -/
def ofCode (n : UInt8) : LogLevel :=
  match n.toNat with
  | 0 => off
  | 1 => error
  | 2 => warn
  | 3 => info
  | 4 => debug
  | _ => trace

/-- The level's name as a word. -/
def word : LogLevel → String
  | off => "Off"
  | error => "Error"
  | warn => "Warn"
  | info => "Info"
  | debug => "Debug"
  | trace => "Trace"

/-- The letter that a line carries. -/
def tag : LogLevel → String
  | off => ""
  | error => "E"
  | warn => "W"
  | info => "I"
  | debug => "D"
  | trace => "T"

/-- The level of a name or a digit. Blanks around it and the case of ASCII letters do not matter. -/
def parse? (s : String) : Option LogLevel :=
  match Text.lowerAscii (Text.trim s) with
  | "off" | "0" => some off
  | "error" | "1" => some error
  | "warn" | "warning" | "2" => some warn
  | "info" | "3" => some info
  | "debug" | "4" => some debug
  | "trace" | "5" => some trace
  | _ => none

/-- The threshold lets a line of this level through. -/
def enables (threshold level : LogLevel) : Bool :=
  level ≠ off && level.code ≤ threshold.code

@[simp] theorem ofCode_code (level : LogLevel) : ofCode level.code = level := by cases level <;> rfl

@[simp] theorem off_enables (level : LogLevel) : off.enables level = false := by cases level <;> rfl

end LogLevel

/-- What a thread says: a level and a message. -/
abbrev Said := LogLevel × String

/-- One line of the log. -/
structure LogLine where
  level : LogLevel
  thread : String
  message : String
  deriving DecidableEq, Repr

/-- The line as it is written. A thread without a name is a question mark. -/
def LogLine.text (line : LogLine) : String := s!"[{line.level.tag} {line.thread}] {line.message}"

end SlotServer
