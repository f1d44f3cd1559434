import Mprpc.Client.Process
import Mprpc.Net.Reactor

/-!
# A client and a server

The connection pool of a client and the event loop of a server run side by side
and read one clock.  A link joins a socket of the client to the connection that
the server accepted for it, and records the server's last accept, read or write
event of it and how the server lost it.  Other clients connect to the server,
too, and the client to other servers; their connections have no link.
-/

namespace Mprpc.Deployment

open Mprpc.Client
open Mprpc.Net
open Mprpc.Transition

universe u

/-- How a server loses a connection. -/
inductive Ending
  /-- a tick found it idle for three time slots -/
  | expired
  | other
  deriving DecidableEq, Repr

/-- A connection, with the descriptors of its two ends. -/
structure Link where
  fd : Fd
  connfd : Fd
  lastEvent : Int
  ended : Option Ending := none
  deriving DecidableEq, Repr

structure ClientServer (Msg : Type u) where
  client : ClientState Msg
  server : Reactor
  links : List Link := []
  /-- the time of the server's last tick -/
  lastTick : Option Int := none
  /-- the links of the connections that `GetConnection` took from a queue, as they
  were at that time -/
  taken : List Link := []

/-- A step of the client or the server, or a connection becomes a link. -/
inductive ClientServerAction (Msg : Type u)
  | client (action : ClientAction Msg)
  | server (action : ReactorAction)
  | link (fd connfd : Fd)

/-- The step ends with a tick. -/
def ticks (server : Reactor) : ReactorAction → Bool
  | .finish => server.timeout
  | _ => false

/-- The link after a step of the server. -/
def Link.observe (action : ReactorAction) (server server' : Reactor) (link : Link) : Link :=
  if link.ended.isSome then link
  else if server'.fds.live link.connfd then
    { link with lastEvent := server'.fds.lastEvent link.connfd }
  else if ticks server action ∧ link.lastEvent + 3 * timeslot ≤ server.now then
    { link with ended := some .expired }
  else { link with ended := some .other }

theorem Link.observe_of_ended {link : Link} {ending : Ending} (ended : link.ended = some ending)
    (action : ReactorAction) (server server' : Reactor) :
    link.observe action server server' = link := by
  unfold observe
  rw [ended]
  exact if_pos rfl

/-- The server reads the common clock, which the client sets. -/
def Clocked (server : Reactor) : ReactorAction → Prop
  | .handle results => ∀ accepted ∈ results.accepts, accepted.2 = server.now
  | .clock _ => False
  | _ => True

instance (server : Reactor) : (action : ReactorAction) → Decidable (Clocked server action)
  | .handle results => inferInstanceAs (Decidable (∀ accepted ∈ results.accepts, _))
  | .clock _ => isFalse id
  | .wait _ | .finish | .send .. => isTrue trivial

/-- The clock of the pool in whole seconds. -/
def seconds (now : Nat) : Int :=
  (now / 1000000000 : Nat)

namespace ClientServer

variable {Msg : Type u}

def start (maxConnections maxIdleTime : Int) (serverFd pipeRead : Fd) (inUse : Fd → Bool) :
    ClientServer Msg where
  client := .start maxConnections maxIdleTime
  server := .start serverFd pipeRead inUse

/-- The descriptor that `GetConnection` takes from an idle queue. -/
def reused (client : ClientState Msg) : ClientAction Msg → Option Fd
  | .enter i =>
      (client.calls[i]?).bind fun call =>
        match client.pool.getConnection call.endpoint.key with
        | .reused fd _ => some fd
        | _ => none
  | _ => none

/-- The client has taken a step.  Links end with the client's sockets. -/
def afterClient (d : ClientServer Msg) (action : ClientAction Msg) (client : ClientState Msg) :
    ClientServer Msg :=
  { d with
    client := client
    server := { d.server with now := seconds client.now }
    links := d.links.filter fun link => (client.sockets link.fd).isSome
    taken := d.taken ++ d.links.filter fun link => reused d.client action = some link.fd }

/-- The server has taken a step. -/
def afterServer (d : ClientServer Msg) (action : ReactorAction) (server : Reactor) :
    ClientServer Msg :=
  { d with
    server := server
    links := d.links.map (Link.observe action d.server server)
    lastTick := if ticks d.server action then some d.server.now else d.lastTick }

/-- The two ends may be a link: both are open and belong to no other link. -/
def CanLink (d : ClientServer Msg) (fd connfd : Fd) : Prop :=
  (d.client.sockets fd).isSome = true ∧ d.server.fds.live connfd = true ∧
    ∀ link ∈ d.links, link.fd ≠ fd ∧ (link.ended = none → link.connfd ≠ connfd)

instance (d : ClientServer Msg) (fd connfd : Fd) : Decidable (d.CanLink fd connfd) :=
  inferInstanceAs (Decidable (_ ∧ _ ∧ _))

/-- One step. -/
def next (d : ClientServer Msg) : ClientServerAction Msg → Option (ClientServer Msg)
  | .client action => (d.client.next action).map (d.afterClient action)
  | .server action =>
      if Clocked d.server action then (d.server.next action).map (d.afterServer action)
      else none
  | .link fd connfd =>
      if d.CanLink fd connfd then
        some { d with links := d.links ++ [⟨fd, connfd, d.server.fds.lastEvent connfd, none⟩] }
      else none

/-- The effect of one step. -/
inductive Stepped (d : ClientServer Msg) : ClientServerAction Msg → ClientServer Msg → Prop
  | client {action : ClientAction Msg} {client : ClientState Msg}
      (step : d.client.next action = some client) :
      Stepped d (.client action) (d.afterClient action client)
  | server {action : ReactorAction} {server : Reactor} (clocked : Clocked d.server action)
      (step : d.server.next action = some server) :
      Stepped d (.server action) (d.afterServer action server)
  | link {fd connfd : Fd} (canLink : d.CanLink fd connfd) :
      Stepped d (.link fd connfd)
        { d with links := d.links ++ [⟨fd, connfd, d.server.fds.lastEvent connfd, none⟩] }

theorem stepped_of_next {d d' : ClientServer Msg} {action : ClientServerAction Msg}
    (step : d.next action = some d') : Stepped d action d' := by
  cases action with
  | client action =>
      rcases Option.map_eq_some_iff.mp step with ⟨client, clientStep, rfl⟩
      exact .client clientStep
  | server action =>
      unfold next at step
      dsimp only at step
      split at step
      · rename_i clocked
        rcases Option.map_eq_some_iff.mp step with ⟨server, serverStep, rfl⟩
        exact .server clocked serverStep
      · cases step
  | link fd connfd =>
      unfold next at step
      dsimp only at step
      split at step
      · rename_i canLink
        cases step
        exact .link canLink
      · cases step

end ClientServer

end Mprpc.Deployment
