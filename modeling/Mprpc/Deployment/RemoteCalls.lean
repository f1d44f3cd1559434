import Mprpc.Client.Answers
import Mprpc.Deployment.Naming
import Mprpc.Example.Login
import Mprpc.Rpc.Serving

/-!
# A remote call is a call of the service

The two sides put together.  A server hands the request of one `HandleRead` to
`OnMessage`, calls the service and sends the serialized response; a client
shares its pool of connections among any number of calls.  When every request
arrives in one piece and every response is there when it is read, a call that is
answered has the response that the service makes of the caller's request:
connections that are reused, calls that wait and sweeps in between change
nothing.
-/

namespace Mprpc.Deployment

open Mprpc.Client
open Mprpc.Example
open Mprpc.Net
open Mprpc.Protobuf
open Mprpc.Rpc
open Mprpc.Transition

universe u

variable {Msg : Type u}

/-- What the client and a provider agree on: the names of a call lead to this
service and to the method that the stub was generated for. -/
structure Provides (provider : RpcProvider Msg) (info : ServiceInfo Msg) (stub : StubCall Msg) :
    Prop where
  service : provider.serviceMap.lookup stub.service.name = some info
  method : info.methodMap.lookup stub.method.name = some stub.method

/-- The call that `OnMessage` makes of a stub's request. -/
theorem onMessage_of_provides {provider : RpcProvider Msg} {info : ServiceInfo Msg}
    {stub : StubCall Msg} {sendRpcStr : Bytes} (provides : Provides provider info stub)
    (lawful : stub.method.input.Lawful) (built : stub.marshal = .ok sendRpcStr) :
    ∃ target, provider.onMessage sendRpcStr =
      .dispatched ⟨info.service, stub.method, target, stub.request⟩ := by
  rcases onMessage_of_marshal lawful built provider with ⟨argsStr, parsed, routed⟩
  refine ⟨stub.rpcRequest argsStr, routed.trans ?_⟩
  exact RpcProvider.route_eq_dispatched_iff.mpr
    ⟨info, stub.method, stub.request, provides.service, provides.method, parsed, rfl⟩

/-- The servers of a deployment: at each address a provider and what its
services do. -/
structure Servers (Msg : Type u) where
  provider : Endpoint → RpcProvider Msg
  service : Endpoint → Dispatch Msg → Msg

/-- What the server at an address sends in answer to a request. -/
def Servers.serve (servers : Servers Msg) (endpoint : Endpoint) (sendRpcStr : Bytes) : Bytes :=
  (servers.provider endpoint).answer (servers.service endpoint) sendRpcStr

/-- A call that has parsed the answer to its own request has the response that its
service makes of this request. -/
theorem answered_of_endsBy {servers : Servers Msg} {call : Call Msg} {stub : StubCall Msg}
    {info : ServiceInfo Msg} {exit : TaskExit Msg}
    (built : stub.marshal = .ok call.sendRpcStr) (output : call.output = stub.method.output)
    (lawful : stub.method.input.Lawful ∧ stub.method.output.Lawful)
    (provides : Provides (servers.provider call.endpoint) info stub)
    (ends : call.EndsBy servers.serve exit) (released : exit.disposal = some .release) :
    ∃ target, exit = .answered
      (servers.service call.endpoint ⟨info.service, stub.method, target, stub.request⟩) := by
  rcases ends released with ⟨nonempty, parsed⟩
  rcases onMessage_of_provides provides lawful.1 built with ⟨target, dispatched⟩
  refine ⟨target, ?_⟩
  have sent : call.answer servers.serve = (stub.method.output.serialize (servers.service
      call.endpoint ⟨info.service, stub.method, target, stub.request⟩)).getD [] := by
    unfold Call.answer Servers.serve RpcProvider.answer
    rw [dispatched]
  rw [sent] at parsed nonempty
  cases serialized : stub.method.output.serialize (servers.service call.endpoint
      ⟨info.service, stub.method, target, stub.request⟩) with
  | none =>
      rw [serialized] at nonempty
      exact absurd rfl nonempty
  | some responseStr =>
      rw [serialized, output, Option.getD_some, afterRecv,
        lawful.2.parse_serialize serialized] at parsed
      exact parsed

/-- In every run against these servers, a call that does not fail on its socket
ends with the response that its service makes of its own request. -/
theorem answered_by_service {servers : Servers Msg} {maxConnections maxIdleTime : Int}
    {s : ClientState Msg}
    (reached : Reachable ClientState.next (ClientState.Served servers.serve)
      (ClientState.start maxConnections maxIdleTime) s)
    {i : Nat} {call : Call Msg} {stub : StubCall Msg} {info : ServiceInfo Msg}
    {exit : TaskExit Msg} (found : s.calls[i]? = some call)
    (built : stub.marshal = .ok call.sendRpcStr) (output : call.output = stub.method.output)
    (lawful : stub.method.input.Lawful ∧ stub.method.output.Lawful)
    (provides : Provides (servers.provider call.endpoint) info stub)
    (leaves : call.pc.exit? = some exit) (released : exit.disposal = some .release) :
    ∃ target, exit = .answered
      (servers.service call.endpoint ⟨info.service, stub.method, target, stub.request⟩) :=
  answered_of_endsBy built output lawful provides
    ((ClientState.answering_of_served reached).ended found leaves) released

/-- A user service at every address. -/
def userServers : Servers UserMessage where
  provider := fun _ => registerAll [UserService.registered 0]
  service := fun _ => UserService.run

/-- The request of a login. -/
def loginRequest (name : Bytes) : Bytes :=
  match (UserServiceRpc.stubLogin { name := name, pwd := Bytes.ofString "1" }).marshal with
  | .ok sendRpcStr => sendRpcStr
  | .error _ => []

/-- Two logins on one connection, the second answered in two pieces. -/
theorem second_login_answered :
    ∃ (s : ClientState UserMessage) (call : Call UserMessage) (target : RpcRequest),
      Reachable ClientState.next (ClientState.Served userServers.serve)
        (ClientState.start 5000 60) s ∧
      s.calls[1]? = some call ∧
      call.pc.exit? = some (.answered (.loginResponse (UserService.respond {}))) ∧
      TaskExit.answered (.loginResponse (UserService.respond {})) =
        .answered (userServers.service call.endpoint
          ⟨UserService.registered 0, UserServiceRpc.login, target,
            .loginRequest { name := Bytes.ofString "bc", pwd := Bytes.ofString "1" }⟩) := by
  have run : ∃ s : ClientState UserMessage, Reachable ClientState.next
      (ClientState.Served userServers.serve) (ClientState.start 5000 60) s ∧
        ∃ call, s.calls[1]? = some call ∧
          (UserServiceRpc.stubLogin
            { name := Bytes.ofString "bc", pwd := Bytes.ofString "1" }).marshal =
              .ok call.sendRpcStr ∧
          call.output = UserServiceRpc.login.output ∧
          call.pc.exit? = some (.answered (.loginResponse (UserService.respond {}))) := by
    apply exists_reachable [
      .spawn localEndpoint (loginRequest (Bytes.ofString "a")) UserServiceRpc.login.output,
      .enter 0, .connected 0 7, .send 0 35 [], .deliver 7 [10, 0, 16, 1] true, .recv 0 4,
      .release 0, .notify 0 none,
      .spawn localEndpoint (loginRequest (Bytes.ofString "bc")) UserServiceRpc.login.output,
      .enter 1, .send 1 36 [], .deliver 7 [10, 0] false, .deliver 7 [16, 1] true, .recv 1 4]
    · decide +kernel
    · exact ⟨_, rfl, _, rfl, rfl, rfl, rfl⟩
  rcases run with ⟨s, reached, call, found, built, output, answered⟩
  rcases answered_by_service reached found built output UserServiceRpc.login_lawful
    ⟨rfl, rfl⟩ answered rfl with ⟨target, responded⟩
  exact ⟨s, call, target, reached, found, answered, responded⟩

end Mprpc.Deployment
