import SlotServer.Log
import SlotServer.Net.AddressReader
import SlotServer.Text.Decimal

/-!
# Settings in the environment

Named values from outside. A value that is unset, is no text or does not read as what is asked for gives way to a
default.

- `Environment.read?`: a value of one of the kinds of `Reading`, written in its usual form;
- `Environment.flag`: yes and no in four spellings each;
- `Environment.logLevel`: the threshold of the log.
-/

namespace SlotServer

/-- Named values. A value is missing where its bytes are no text. -/
structure Environment where
  values : List (String × Option String)
  deriving DecidableEq, Repr

namespace Environment

/-- The value is set, text or not. -/
def isSet (env : Environment) (name : String) : Bool := env.values.any (·.1 = name)

/-- The value, if it is set and is text. -/
def text? (env : Environment) (name : String) : Option String := (env.values.lookup name).join

/-- The value, if it is text that reads as `read` asks without the blanks around it. -/
def parse? {α : Type} (env : Environment) (read : String → Option α) (name : String) : Option α :=
  (env.text? name).bind fun s => read (Text.trim s)

/-- A yes or no. -/
def flag (env : Environment) (name : String) (otherwise : Bool) : Bool :=
  match (env.text? name).map fun s => Text.lowerAscii (Text.trim s) with
  | some "1" | some "true" | some "yes" | some "on" => true
  | some "0" | some "false" | some "no" | some "off" => false
  | _ => otherwise

/-- The threshold of the log, `info` where none is set. -/
def logLevel (env : Environment) : LogLevel :=
  ((env.text? "REGIO_LOG_LEVEL").bind LogLevel.parse?).getD .info

end Environment

/-- A kind of value that a setting is read as. -/
inductive Reading
  /-- A number of so many bits without a sign. -/
  | natural (bits : Nat)
  /-- A number of so many bits with a sign. -/
  | integer (bits : Nat)
  /-- One of the words `true` and `false`. -/
  | truth
  /-- Any text. -/
  | text
  /-- A socket address. -/
  | address
  deriving DecidableEq, Repr

/-- The usual form of a text of this kind, if it is one. -/
def Reading.normal? (r : Reading) (s : String) : Option String :=
  match r with
  | .natural bits => (Text.natural? (Text.greatest bits) s).map toString
  | .integer bits => (Text.integer? (-Int.ofNat (1 <<< (bits - 1))) (Int.ofNat (1 <<< (bits - 1)) - 1) s).map toString
  | .truth => if s = "true" || s = "false" then some s else none
  | .text => some s
  | .address => (Net.SocketAddress.read? s).map (·.text)

/-- A setting in the usual form of its kind. -/
def Environment.read? (env : Environment) (r : Reading) (name : String) : Option String :=
  env.parse? r.normal? name

end SlotServer
