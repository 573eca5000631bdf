import SlotServer.Fault

/-!
# Counters

What a worker counts. A worker's own counters wrap at 64 bits; a sum over workers that does not fit is a fault.

- `Counters.bump`: count something;
- `Counters.total`: the sum over workers;
- `Counters.opened`: connections accepted and not yet closed;
- `Counters.text`: the line that shows them.
-/

namespace SlotServer

/-- What a worker counts. -/
structure Counters where
  accepts : UInt64 := 0
  rejected : UInt64 := 0
  receives : UInt64 := 0
  sends : UInt64 := 0
  disconnects : UInt64 := 0
  bytesIn : UInt64 := 0
  bytesOut : UInt64 := 0
  errors : UInt64 := 0
  /-- Completions for a slot that expected none. -/
  violations : UInt64 := 0
  deriving DecidableEq, Repr, Inhabited

/-- One of the counters. -/
inductive Counter
  | accepts
  | rejected
  | receives
  | sends
  | disconnects
  | bytesIn
  | bytesOut
  | errors
  | violations
  deriving DecidableEq, Repr

namespace Counter

/-- Every counter, in the order in which they are shown. -/
def all : List Counter :=
  [accepts, rejected, receives, sends, disconnects, bytesIn, bytesOut, errors, violations]

/-- The name of a counter. -/
def name : Counter → String
  | accepts => "accepts"
  | rejected => "rejected"
  | receives => "receives"
  | sends => "sends"
  | disconnects => "disconnects"
  | bytesIn => "bytes_in"
  | bytesOut => "bytes_out"
  | errors => "errors"
  | violations => "protocol_violations"

/-- The counter of a name. -/
def named? (s : String) : Option Counter := all.find? (·.name = s)

end Counter

namespace Counters

/-- Count `n` more. The counter wraps. -/
def bump (c : Counters) (which : Counter) (n : UInt64) : Counters :=
  match which with
  | .accepts => { c with accepts := c.accepts + n }
  | .rejected => { c with rejected := c.rejected + n }
  | .receives => { c with receives := c.receives + n }
  | .sends => { c with sends := c.sends + n }
  | .disconnects => { c with disconnects := c.disconnects + n }
  | .bytesIn => { c with bytesIn := c.bytesIn + n }
  | .bytesOut => { c with bytesOut := c.bytesOut + n }
  | .errors => { c with errors := c.errors + n }
  | .violations => { c with violations := c.violations + n }

/-- The counters in their order. -/
def toList (c : Counters) : List UInt64 :=
  [c.accepts, c.rejected, c.receives, c.sends, c.disconnects, c.bytesIn, c.bytesOut, c.errors, c.violations]

/-- Connections accepted and not yet closed, none where closes are ahead. -/
def opened (c : Counters) : Nat := c.accepts.toNat - c.disconnects.toNat

/-- The sum of two counters, if it fits. -/
def add64 (a b : UInt64) : Except Fault UInt64 :=
  (checkedAdd a.toNat b.toNat).map UInt64.ofNat

/-- The sum of two workers' counters. -/
def add (a b : Counters) : Except Fault Counters := do
  return {
    accepts := ← add64 a.accepts b.accepts
    rejected := ← add64 a.rejected b.rejected
    receives := ← add64 a.receives b.receives
    sends := ← add64 a.sends b.sends
    disconnects := ← add64 a.disconnects b.disconnects
    bytesIn := ← add64 a.bytesIn b.bytesIn
    bytesOut := ← add64 a.bytesOut b.bytesOut
    errors := ← add64 a.errors b.errors
    violations := ← add64 a.violations b.violations }

/-- The sum over workers. -/
def total (cs : List Counters) : Except Fault Counters := cs.foldlM add {}

/-- The line that shows the counters. -/
def text (c : Counters) : String :=
  s!"open={c.opened} accepts={c.accepts} rejected={c.rejected} recv={c.receives} send={c.sends} " ++
    s!"close={c.disconnects} bytes_in={c.bytesIn} bytes_out={c.bytesOut} err={c.errors} violations={c.violations}"

end Counters

end SlotServer
