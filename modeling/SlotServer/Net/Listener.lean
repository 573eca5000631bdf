import SlotServer.Config
import SlotServer.Net.Address

/-!
# Listening sockets

A network namespace whose only interface is the loopback one, and that is down: it routes nothing, so no service in it
can be reached. It takes every IPv4 host for one of its own, and no IPv6 host but the unspecified one and those that
stand for an IPv4 host.

- `Namespace.bind`: take an address for a socket;
- `Listener.bind`: the listening socket of a configuration;
- `Namespace.connect`: no client finds a way.
-/

namespace SlotServer.Net

/-- A socket that waits for connections. -/
structure Listener where
  /-- The address, whose number is never zero. -/
  address : SocketAddress
  /-- The address may be taken again as soon as nobody listens there. -/
  reusesAddress : Bool
  /-- Small packets are sent at once, on accepted sockets too. -/
  sendsAtOnce : Bool
  deriving DecidableEq, Repr

/-- The sockets of a network namespace. -/
structure Namespace where
  /-- The addresses where somebody listens. -/
  taken : List SocketAddress := []
  /-- A descriptor can be opened. -/
  hasDescriptors : Bool := true
  deriving Repr

namespace V6

/-- The first group of the host. -/
def first (h : V6) : UInt16 := h.groups[0]

/-- The host stands for every host. -/
def isUnspecified (h : V6) : Bool := h.groups.toList.all (· = 0)

/-- The host stands for a group of hosts. -/
def isMulticast (h : V6) : Bool := h.first &&& 0xff00 = 0xff00

/-- The host has a meaning only on one link. -/
def isLinkLocal (h : V6) : Bool := h.first &&& 0xffc0 = 0xfe80

end V6

namespace Namespace

/-- The system's number for what is not permitted. -/
def notPermitted : Int32 := 13

/-- The system's number for an interface that is not there. -/
def noInterface : Int32 := 19

/-- The system's number for an argument without a meaning. -/
def invalidArgument : Int32 := 22

/-- The system's number for a table of descriptors without room. -/
def tooManyFiles : Int32 := 24

/-- The system's number for an address where somebody listens. -/
def addressInUse : Int32 := 98

/-- The system's number for an address of another machine. -/
def foreignAddress : Int32 := 99

/-- The system's number for a network that no route leads to. -/
def networkUnreachable : Int32 := 101

/-- The least number that everybody may take. -/
def firstFreeService : UInt16 := 1024

/-- The number of the loopback interface. -/
def loopback : UInt32 := 1

/-- The number is kept for those with a privilege. -/
def isReserved (service : UInt16) : Bool := service ≠ 0 && service < firstFreeService

/-- Why an IPv6 host that stands for no IPv4 host is refused. -/
def foreign? (host : V6) (scope : UInt32) : Option Int32 :=
  if host.isUnspecified then none
  else if !host.isLinkLocal then some foreignAddress
  else if scope = 0 then some invalidArgument
  else if scope = loopback then some foreignAddress
  else some noInterface

/-- Why an address cannot be taken, whoever listens there. -/
def refused? : SocketAddress → Option Int32
  | .v4 _ service => if isReserved service then some notPermitted else none
  | .v6 host service scope =>
    if host.isMulticast then some invalidArgument
    else if isReserved service then some notPermitted
    else if host.mapped?.isSome then none
    else foreign? host scope

/-- Somebody listens at a number. -/
def isTaken (ns : Namespace) (service : UInt16) : Bool := ns.taken.any (·.service = service)

/-- The numbers that are given out where none is asked for. -/
def spare : List UInt16 := (List.range 28232).map fun n => UInt16.ofNat (32768 + n)

/-- The address, with the first spare number where it has none. -/
def settle (ns : Namespace) (address : SocketAddress) : Option SocketAddress :=
  if address.service = 0 then (spare.find? (!ns.isTaken ·)).map (address.withService ·)
  else if ns.isTaken address.service then none
  else some address

/-- Take an address for a socket that will listen there. -/
def bind (ns : Namespace) (address : SocketAddress) : Except Int32 (SocketAddress × Namespace) :=
  match refused? address with
  | some e => .error e
  | none =>
    match ns.settle address with
    | none => .error addressInUse
    | some address => .ok (address, { ns with taken := address :: ns.taken })

/-- What a client meets: no route leads anywhere. -/
def connect (_ : Namespace) (_ : SocketAddress) : Except Int32 Unit := .error networkUnreachable

/-- The attempt of a client that gives up for good where it finds no way. -/
def reach (ns : Namespace) (address : SocketAddress) : Except Fault Unit :=
  (ns.connect address).mapError fun _ => .unreachable

/-- A number is taken at most once. -/
theorem not_isTaken_of_settle {ns : Namespace} {a b : SocketAddress} (h : ns.settle a = some b) (ha : a.service ≠ 0) :
    ns.isTaken a.service = false ∧ b = a := by
  simp only [settle, ha, if_false] at h
  split at h
  · cases h
  · cases h
    simp_all

end Namespace

namespace Listener

/-- The listening socket of a configuration. -/
def bind (config : Config) (ns : Namespace) : Except Error (Listener × Namespace) :=
  if !ns.hasDescriptors then .error (.socket Namespace.tooManyFiles)
  else
    match ns.bind config.listen with
    | .error e => .error (.socket e)
    | .ok (address, ns) => .ok (⟨address, true, !config.useNagle⟩, ns)

end Listener

end SlotServer.Net
