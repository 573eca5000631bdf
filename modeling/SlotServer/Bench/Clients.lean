import SlotServer.Server

/-!
# A server on the bench

A server and those who want to be its clients. No route leads to it, so the first who tries to connect gives up, and
there never is a client.

- `Clients.start`: a server that serves nobody yet;
- `Clients.ask`: what a client asks, and what comes of it;
- `Clients.leave`: the end of the server.
-/

namespace SlotServer.Bench

/-- What is asked of a client, or of the server. -/
inductive ClientCall
  | connect
  /-- Send bytes and wait for them. -/
  | echo
  /-- Send no more, and wait for the end. -/
  | halfClose
  | close
  /-- Wait for the end. -/
  | readEnd
  | shutDown
  deriving DecidableEq, Repr

/-- What comes of it. -/
inductive ClientAnswer
  /-- There is no such client. -/
  | noClient
  /-- There is no such client to close. -/
  | notOpen
  /-- The server has come to its end. -/
  | shutDown
  /-- It had come to its end before. -/
  | stopped
  deriving DecidableEq, Repr

/-- A server and its network. -/
structure Clients where
  server : Server
  network : Net.Namespace := {}
  running : Bool := true

namespace Clients

/-- Try to connect. -/
def connect (b : Clients) : Except Fault Unit := b.network.reach b.server.listener.address

/-- The server comes to its end, if it has not yet. -/
def leave (b : Clients) : Clients :=
  if b.running then { b with server := b.server.stop, running := false } else b

/-- What comes of a call, where the server still runs. -/
def askRunning (b : Clients) : ClientCall → Except Fault (ClientAnswer × Clients)
  | .connect => b.connect.map fun _ => (.noClient, b)
  | .close => .ok (.notOpen, b)
  | .shutDown => .ok (.shutDown, b.leave)
  | _ => .ok (.noClient, b)

/-- What comes of a call. -/
def ask (b : Clients) (call : ClientCall) : Except Fault (ClientAnswer × Clients) :=
  if b.running then b.askRunning call
  else .ok (if call = .readEnd then .noClient else .stopped, b)

end Clients

end SlotServer.Bench
