import SlotServer.Net.Address

/-!
# Reading socket addresses

`SocketAddress.read?` accepts exactly one address and nothing before or after it. A part is a function from the
characters left to a value and the characters after it.

- IPv4: four numbers of one to three digits below 256, none with a needless leading zero;
- IPv6: in brackets, groups of one to four hexadecimal digits, two colons for at least one zero group, a dotted quad
  in place of the last two groups, an optional zone after a percent sign;
- the number of the service: any count of decimal digits, below 65536.
-/

namespace SlotServer.Net

/-- Reads a value off the front of the characters, or fails. -/
abbrev Part (α : Type) := List Char → Option (α × List Char)

/-- The value of a digit in a base of at most sixteen. -/
def digit? (base : Nat) (c : Char) : Option Nat :=
  let value :=
    if '0' ≤ c && c ≤ '9' then some (c.toNat - '0'.toNat)
    else if 'a' ≤ c && c ≤ 'f' then some (c.toNat - 'a'.toNat + 10)
    else if 'A' ≤ c && c ≤ 'F' then some (c.toNat - 'A'.toNat + 10)
    else none
  value.filter (· < base)

/-- The digits at the front and what follows them. -/
def spanDigits (base : Nat) : List Char → List Nat × List Char
  | [] => ([], [])
  | c :: rest =>
    match digit? base c with
    | none => ([], c :: rest)
    | some d => let (ds, after) := spanDigits base rest; (d :: ds, after)

/-- A number of at least one digit, at most `most`. All digits at the front belong to it. -/
def number (base most : Nat) (maxDigits : Option Nat) (leadingZero : Bool) : Part Nat := fun cs =>
  let (ds, rest) := spanDigits base cs
  let value := ds.foldl (fun n d => base * n + d) 0
  if ds.isEmpty || maxDigits.any (· < ds.length) || (!leadingZero && ds.head? = some 0 && 1 < ds.length) ||
      most < value then none
  else some (value, rest)

/-- One given character. -/
def char (c : Char) : Part Unit
  | d :: rest => if d = c then some ((), rest) else none
  | [] => none

/-- A part after a separator, which the first of a row goes without. -/
def separated {α : Type} (sep : Char) (index : Nat) (part : Part α) : Part α := fun cs =>
  if index = 0 then part cs
  else (char sep cs).bind fun (_, rest) => part rest

/-- A dotted quad. -/
def v4 : Part V4 := fun cs => do
  let octet := fun i => separated '.' i (number 10 255 (some 3) false)
  let (a, cs) ← octet 0 cs
  let (b, cs) ← octet 1 cs
  let (c, cs) ← octet 2 cs
  let (d, cs) ← octet 3 cs
  return (⟨a.toUInt8, b.toUInt8, c.toUInt8, d.toUInt8⟩, cs)

/-- Sixteen bits out of two octets. -/
def pair (high low : UInt8) : UInt16 := high.toUInt16 <<< 8 ||| low.toUInt16

/-- Up to `room` more groups after `index` of them, and whether they end in a dotted quad, which takes two places. -/
def groups (index : Nat) : Nat → List Char → List UInt16 × Bool × List Char
  | 0, cs => ([], false, cs)
  | room + 1, cs =>
    match if room = 0 then none else separated ':' index v4 cs with
    | some (h, rest) => ([pair h.a h.b, pair h.c h.d], true, rest)
    | none =>
      match separated ':' index (number 16 0xffff (some 4) true) cs with
      | none => ([], false, cs)
      | some (g, rest) =>
        let (gs, dotted, rest) := groups (index + 1) room rest
        (g.toUInt16 :: gs, dotted, rest)

/-- An IPv6 host: eight groups, or fewer with two colons in place of the missing ones. -/
def v6 : Part V6 := fun cs =>
  let (head, dotted, rest) := groups 0 8 cs
  if h : head.length = 8 then some (⟨⟨head.toArray, by simpa using h⟩⟩, rest)
  else if dotted then none
  else do
    let (_, rest) ← char ':' rest
    let (_, rest) ← char ':' rest
    let (tail, _, rest) := groups 0 (7 - head.length) rest
    let all := head ++ List.replicate (8 - head.length - tail.length) 0 ++ tail
    if h : all.length = 8 then some (⟨⟨all.toArray, by simpa using h⟩⟩, rest) else none

/-- The number of a service after its colon. -/
def service : Part UInt16 := fun cs => do
  let (_, cs) ← char ':' cs
  let (n, cs) ← number 10 0xffff none true cs
  return (n.toUInt16, cs)

/-- The zone after its percent sign, or zero where there is no well-formed one. -/
def zone (cs : List Char) : UInt32 × List Char :=
  match (char '%' cs).bind fun (_, rest) => number 10 0xffffffff none true rest with
  | some (n, rest) => (n.toUInt32, rest)
  | none => (0, cs)

/-- An IPv4 address. -/
def addressV4 : Part SocketAddress := fun cs => do
  let (host, cs) ← v4 cs
  let (number, cs) ← service cs
  return (.v4 host number, cs)

/-- An IPv6 address. -/
def addressV6 : Part SocketAddress := fun cs => do
  let (_, cs) ← char '[' cs
  let (host, cs) ← v6 cs
  let (scope, cs) := zone cs
  let (_, cs) ← char ']' cs
  let (number, cs) ← service cs
  return (.v6 host number scope, cs)

/-- The address that a text is, if it is one. -/
def SocketAddress.read? (s : String) : Option SocketAddress :=
  match (addressV4 s.toList).orElse fun _ => addressV6 s.toList with
  | some (address, []) => some address
  | _ => none

end SlotServer.Net
