import Mprpc.Client.Sockets
import Mprpc.Deployment.RemoteCalls
import Mprpc.Rpc.Server
import Mprpc.Transition.Exchange

/-!
# A client, its servers and the connections between them

The client process with its pool, the event loop of the server at each address, and
the bytes that are in flight between them.  A wire is the connection of an open socket
of the client.  The server accepts it at some time and may lose it at any time; what
the client sends and what the server's socket takes crosses the wire in order.  Other
clients connect to the servers, too: their connections have no wire, and the servers
receive anything from them.
-/

namespace Mprpc.Deployment

open Mprpc.Client
open Mprpc.Net
open Mprpc.Rpc
open Mprpc.Transition

universe u

variable {Msg : Type u}

/-- The server's end of a wire. -/
inductive Peer
  /-- not accepted yet -/
  | waiting
  | linked (connfd : Fd)
  /-- the server has closed its end -/
  | gone
  deriving DecidableEq, Repr

/-- The connection of a socket of the client. -/
structure Wire where
  fd : Fd
  endpoint : Endpoint
  peer : Peer := .waiting
  stream : Exchange UInt8 := {}
  deriving DecidableEq, Repr

namespace Wire

/-- The wire after a `send` of the client. -/
def sent (handed : Option (Fd × Bytes)) (wire : Wire) : Wire :=
  match handed with
  | some (fd, bytes) =>
      if fd = wire.fd then { wire with stream := wire.stream.send bytes } else wire
  | none => wire

/-- A server receives from a wire only what is in flight there. -/
def CanServe (endpoint : Endpoint) (before after : Rpc.Server) (wire : Wire) : Prop :=
  match wire.peer with
  | .linked connfd =>
      wire.endpoint = endpoint →
        (after.sessions connfd).received <+:
          (before.sessions connfd).received ++ wire.stream.requests
  | _ => True

/-- A server takes nothing from a wire, or all that is in flight. -/
def ServesWhole (endpoint : Endpoint) (before after : Rpc.Server) (wire : Wire) : Prop :=
  match wire.peer with
  | .linked connfd =>
      wire.endpoint = endpoint →
        (after.sessions connfd).received = (before.sessions connfd).received ∨
          (after.sessions connfd).received =
            (before.sessions connfd).received ++ wire.stream.requests
  | _ => True

instance (endpoint : Endpoint) (before after : Rpc.Server) :
    (wire : Wire) → Decidable (wire.CanServe endpoint before after)
  | ⟨_, _, .linked _, _⟩ => inferInstanceAs (Decidable (_ → _))
  | ⟨_, _, .waiting, _⟩ | ⟨_, _, .gone, _⟩ => isTrue trivial

instance (endpoint : Endpoint) (before after : Rpc.Server) :
    (wire : Wire) → Decidable (wire.ServesWhole endpoint before after)
  | ⟨_, _, .linked _, _⟩ => inferInstanceAs (Decidable (_ → _))
  | ⟨_, _, .waiting, _⟩ | ⟨_, _, .gone, _⟩ => isTrue trivial

/-- The wire after a step of the server at an address. -/
def served (endpoint : Endpoint) (before after : Rpc.Server) (wire : Wire) : Wire :=
  if wire.endpoint = endpoint then
    match wire.peer with
    | .linked connfd =>
        let stream := wire.stream.serve
          ((after.sessions connfd).received.length - (before.sessions connfd).received.length)
          ((after.sessions connfd).accepted.drop (before.sessions connfd).accepted.length)
        if after.reactor.fds.live connfd then { wire with stream := stream }
        else { wire with peer := .gone, stream := stream.abandon }
    | _ => wire
  else wire

/-- An accepted connection from which nothing has been received may be the other end of
the wire. -/
def CanLink (server : Rpc.Server) (connfd : Fd) (wire : Wire) : Prop :=
  wire.peer = .waiting ∧ server.reactor.fds.live connfd = true ∧
    (server.sessions connfd).received = [] ∧ (server.sessions connfd).batches = [] ∧
      (server.sessions connfd).accepted = []

instance (server : Rpc.Server) (connfd : Fd) (wire : Wire) :
    Decidable (wire.CanLink server connfd) :=
  inferInstanceAs (Decidable (_ ∧ _ ∧ _ ∧ _ ∧ _))

/-- The next bytes are the last that are owed. -/
def completes (servers : Servers Msg) (count : Nat) (wire : Wire) : Bool :=
  (wire.stream.deliver count).arrived ==
    wire.stream.frames.flatMap (servers.serve wire.endpoint)

end Wire

/-- A client and the servers at all addresses. -/
structure System (Msg : Type u) where
  client : ClientState Msg
  server : Endpoint → Rpc.Server
  wires : List Wire := []

/-- A step of the client, of a server, or of the network between them. -/
inductive SystemAction (Msg : Type u)
  | client (action : ClientAction Msg)
  | server (endpoint : Endpoint) (action : ReactorAction)
  /-- a connection that a server accepted turns out to be that of a socket -/
  | link (fd connfd : Fd)
  | deliver (fd : Fd) (count : Nat)

namespace System

/-- The wire of a connection that is established. -/
def opened (client : ClientState Msg) : ClientAction Msg → List Wire
  | .connected i fd =>
      (client.calls[i]?).toList.map fun call => { fd := fd, endpoint := call.endpoint }
  | _ => []

/-- The client has taken a step.  Wires end with the client's sockets. -/
def afterClient (s : System Msg) (action : ClientAction Msg) (client : ClientState Msg) :
    System Msg :=
  { s with
    client := client
    wires := ((s.wires.filter fun wire => (client.sockets wire.fd).isSome).map
      (Wire.sent (s.client.handedOver action))) ++ opened s.client action }

/-- A server has taken a step. -/
def afterServer (s : System Msg) (endpoint : Endpoint) (server : Rpc.Server) : System Msg :=
  { s with
    server := Function.update s.server endpoint server
    wires := s.wires.map (Wire.served endpoint (s.server endpoint) server) }

/-- Wires of one socket change. -/
def setWire (s : System Msg) (fd : Fd) (change : Wire → Wire) : System Msg :=
  { s with wires := s.wires.map fun wire => if wire.fd = fd then change wire else wire }

/-- One step.  What the client's sockets receive comes over their wires. -/
def next (servers : Servers Msg) (s : System Msg) : SystemAction Msg → Option (System Msg)
  | .client (.deliver ..) => none
  | .client action => (s.client.next action).map (s.afterClient action)
  | .server endpoint action =>
      ((s.server endpoint).next (servers.provider endpoint) (servers.service endpoint)
        action).bind fun server =>
          if ∀ wire ∈ s.wires, wire.CanServe endpoint (s.server endpoint) server then
            some (s.afterServer endpoint server)
          else none
  | .link fd connfd =>
      (s.wires.find? fun wire => wire.fd = fd).bind fun wire =>
        if wire.CanLink (s.server wire.endpoint) connfd ∧
            ∀ other ∈ s.wires, other.endpoint = wire.endpoint → other.peer ≠ .linked connfd then
          some (s.setWire fd fun wire => { wire with peer := .linked connfd })
        else none
  | .deliver fd count =>
      (s.wires.find? fun wire => wire.fd = fd).bind fun wire =>
        if 0 < count ∧ count ≤ wire.stream.answers.length then
          (s.client.next (.deliver fd (wire.stream.answers.take count)
            (wire.completes servers count))).map fun client =>
              { s with client := client }.setWire fd fun wire =>
                { wire with stream := wire.stream.deliver count }
        else none

/-- The system before the first call. -/
def start (maxConnections maxIdleTime : Int) (serverFd pipeRead : Fd) (inUse : Fd → Bool) :
    System Msg where
  client := .start maxConnections maxIdleTime
  server := fun _ => .start serverFd pipeRead inUse

/-- Requests and answers cross the network whole: `send` takes all of a request, which a
server reads at once, and `recv` returns all of an answer. -/
def Whole (servers : Servers Msg) (s : System Msg) : SystemAction Msg → Prop
  | .client (.send i count _) =>
      ∀ call ∈ s.client.calls[i]?, 0 < count ∧ count = call.sendRpcStr.length
  | .client (.recv i count) => ClientState.Served servers.serve s.client (.recv i count)
  | .server endpoint action =>
      ∀ server ∈ (s.server endpoint).next (servers.provider endpoint)
        (servers.service endpoint) action,
          ∀ wire ∈ s.wires, wire.ServesWhole endpoint (s.server endpoint) server
  | _ => True

instance (servers : Servers Msg) (s : System Msg) :
    (action : SystemAction Msg) → Decidable (Whole servers s action)
  | .client (.send i _ _) => inferInstanceAs (Decidable (∀ call ∈ s.client.calls[i]?, _))
  | .client (.recv i count) =>
      inferInstanceAs (Decidable (ClientState.Served servers.serve s.client (.recv i count)))
  | .server endpoint action =>
      inferInstanceAs (Decidable (∀ server ∈ (s.server endpoint).next _ _ action, _))
  | .client (.spawn ..) | .client (.enter _) | .client (.wakeSpuriously _)
  | .client (.connected ..) | .client (.connectFailed ..) | .client (.sendError ..)
  | .client (.recvError ..) | .client (.release _) | .client (.notify ..) | .client (.sweep _)
  | .client (.elapse _) | .client (.deliver ..) | .client (.peerClose _) | .link ..
  | .deliver .. => isTrue trivial

end System

end Mprpc.Deployment
