/-!
# Socket addresses

An IPv4 or IPv6 host together with the number of a service on it, and the text of such an address.

- `SocketAddress.text`: a dotted quad and a number, or a bracketed IPv6 host and a number;
- `V6.text`: the longest run of two or more zero groups is written as two colons, the first one of equal runs.
-/

namespace SlotServer.Net

/-- An IPv4 host. -/
structure V4 where
  a : UInt8
  b : UInt8
  c : UInt8
  d : UInt8
  deriving DecidableEq, Repr, Inhabited

/-- An IPv6 host: eight groups of sixteen bits. -/
structure V6 where
  groups : Vector UInt16 8
  deriving DecidableEq, Repr, Inhabited

/-- A service on a host. `scope` is the zone of an IPv6 host, zero where there is none. -/
inductive SocketAddress
  | v4 (host : V4) (service : UInt16)
  | v6 (host : V6) (service : UInt16) (scope : UInt32)
  deriving DecidableEq, Repr, Inhabited

/-- The number of the service. -/
def SocketAddress.service : SocketAddress → UInt16
  | .v4 _ service => service
  | .v6 _ service _ => service

/-- The same host with another service. -/
def SocketAddress.withService (number : UInt16) : SocketAddress → SocketAddress
  | .v4 host _ => .v4 host number
  | .v6 host _ scope => .v6 host number scope

/-- Four decimal numbers with dots. -/
def V4.text (h : V4) : String :=
  String.intercalate "." [toString h.a, toString h.b, toString h.c, toString h.d]

/-- A group in small hexadecimal digits without leading zeros. -/
def groupText (g : UInt16) : String := String.ofList (Nat.toDigits 16 g.toNat)

/-- Groups with colons between them. -/
def groupsText (gs : List UInt16) : String := String.intercalate ":" (gs.map groupText)

/-- The start and length of the longest run of zero groups, the first of equal ones. -/
def longestZeroRun (gs : List UInt16) : Nat × Nat :=
  let step := fun (best, start, length, i) g =>
    if g = (0 : UInt16) then
      let start := if length = 0 then i else start
      let length := length + 1
      (if best.2 < length then (start, length) else best, start, length, i + 1)
    else (best, 0, 0, i + 1)
  (gs.foldl step (((0, 0) : Nat × Nat), 0, 0, 0)).1

/-- The IPv4 host that an IPv6 host stands for, if its first groups are five zeros and `ffff`. -/
def V6.mapped? (h : V6) : Option V4 :=
  match h.groups.toList with
  | [0, 0, 0, 0, 0, 0xffff, x, y] =>
    some ⟨(x >>> 8).toUInt8, x.toUInt8, (y >>> 8).toUInt8, y.toUInt8⟩
  | _ => none

/-- The text of an IPv6 host. -/
def V6.text (h : V6) : String :=
  match h.mapped? with
  | some host => "::ffff:" ++ host.text
  | none =>
    let gs := h.groups.toList
    let (start, length) := longestZeroRun gs
    if 1 < length then groupsText (gs.take start) ++ "::" ++ groupsText (gs.drop (start + length))
    else groupsText gs

/-- The text of the host alone. -/
def SocketAddress.hostText : SocketAddress → String
  | .v4 host _ => host.text
  | .v6 host _ _ => host.text

/-- The text of an address. -/
def SocketAddress.text : SocketAddress → String
  | .v4 host service => s!"{host.text}:{service}"
  | .v6 host service scope =>
    let zone := if scope = 0 then "" else s!"%{scope}"
    s!"[{host.text}{zone}]:{service}"

end SlotServer.Net
