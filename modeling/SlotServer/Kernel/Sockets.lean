/-!
# The table of sockets

The sockets that a worker is given, numbered in the order in which they come. Socket `k` has the descriptor
`firstDescriptor + k`; descriptors below that are not in the table, and closing one of them changes nothing.

- `Sockets.add`: a new socket;
- `Sockets.close`, `Sockets.hangUp`: the end of one;
- `Sockets.setNoDelay`: small packets at once, which only a TCP socket knows.
-/

namespace SlotServer

/-- What a socket is. -/
inductive SocketKind
  /-- A TCP socket. -/
  | tcp
  /-- One end of a local pair. -/
  | pair
  /-- The reading end of a pipe, which is no socket at all. -/
  | pipe
  deriving DecidableEq, Repr, Inhabited

/-- What became of a socket. -/
inductive SocketStatus
  | opened
  /-- Both directions were shut, and the descriptor is still open. -/
  | shut
  | closed
  deriving DecidableEq, Repr, Inhabited

/-- What became of a socket, in a word. -/
def SocketStatus.word : SocketStatus → String
  | opened => "open"
  | shut => "shut"
  | closed => "closed"

/-- A socket and what became of it. -/
structure Socket where
  kind : SocketKind
  status : SocketStatus := .opened
  deriving DecidableEq, Repr, Inhabited

/-- The sockets so far. -/
structure Sockets where
  all : List Socket := []
  deriving DecidableEq, Repr, Inhabited

namespace Sockets

/-- The descriptor of the first socket. -/
def firstDescriptor : Nat := 300

/-- The number of the socket of a descriptor. -/
def number? (t : Sockets) (fd : Int) : Option Nat :=
  let k := fd - firstDescriptor
  if 0 ≤ k && k < t.all.length then some k.toNat else none

/-- The socket of a descriptor, if that is open. -/
def live? (t : Sockets) (fd : Int) : Option (Nat × Socket) := do
  let k ← t.number? fd
  let s ← t.all[k]?
  if s.status = .closed then none else some (k, s)

/-- A new socket and its descriptor. -/
def add (t : Sockets) (kind : SocketKind) : Int × Sockets :=
  ((firstDescriptor + t.all.length : Nat), { all := t.all ++ [{ kind }] })

/-- The table with another status for a socket. -/
def mark (t : Sockets) (k : Nat) (status : SocketStatus) : Sockets :=
  { all := t.all.modify k fun s => { s with status } }

/-- Close a descriptor. -/
def close (t : Sockets) (fd : Int) : Sockets :=
  match t.live? fd with
  | some (k, _) => t.mark k .closed
  | none => t

/-- Shut both directions. Only a connected socket can be shut: a TCP socket of the table is not. -/
def hangUp (t : Sockets) (fd : Int) : Sockets :=
  match t.live? fd with
  | some (k, { kind := .pair, .. }) => t.mark k .shut
  | _ => t

/-- The system's number for a descriptor that is not open. -/
def badDescriptor : Int32 := 9

/-- The system's number for a descriptor that is no socket. -/
def notSocket : Int32 := 88

/-- The system's number for a choice that this kind of socket does not have. -/
def notSupported : Int32 := 95

/-- Small packets at once. -/
def setNoDelay (t : Sockets) (fd : Int) : Except Int32 Unit :=
  match t.live? fd with
  | none => .error badDescriptor
  | some (_, s) =>
    match s.kind with
    | .tcp => .ok ()
    | .pair => .error notSupported
    | .pipe => .error notSocket

/-- A descriptor that was closed is not open. -/
theorem live?_close (t : Sockets) (fd : Int) : (t.close fd).live? fd = none := by
  unfold close
  cases hlive : t.live? fd with
  | none => exact hlive
  | some found =>
    obtain ⟨k, socket⟩ := found
    have hnumber : (t.mark k .closed).number? fd = t.number? fd := by
      simp only [number?, mark, List.length_modify]
    unfold live? at hlive
    obtain ⟨k', hk, hfound⟩ := Option.bind_eq_some_iff.1 hlive
    obtain ⟨socket', hsocket, hopen⟩ := Option.bind_eq_some_iff.1 hfound
    split at hopen
    · cases hopen
    cases hopen
    show (((t.mark k .closed).number? fd).bind fun k' => ((t.mark k .closed).all[k']?).bind fun s =>
      if s.status = .closed then none else some (k', s)) = none
    rw [hnumber, hk]
    simp [mark, hsocket]

end Sockets

end SlotServer
