import Mprpc.Net.Output
import Mprpc.Rpc.Framing

/-!
# Which requests are answered

After a request the client waits in `recv` until bytes come or the connection
ends.  `OnMessage` ends no connection: it answers a request with the response of
the service, if there is one and it serializes to anything, and says nothing to
the client otherwise.
-/

namespace Mprpc.Rpc

open Mprpc.Net
open Mprpc.Protobuf

universe u

namespace RpcProvider

variable {Msg : Type u}

/-- The same replies when the socket takes nothing. -/
def held (replies : Replies Msg) : Replies Msg :=
  replies.map fun (response, _) => (response, .error EAGAIN)

/-- The response bytes that `OnMessage` and the service hand to `Send`: what the callback
leaves behind the waiting output of a connection whose socket takes nothing. -/
def handed (provider : RpcProvider Msg) (replies : Replies Msg) (conn : TcpConnection) : Bytes :=
  (provider.messageCallback (held replies) conn).1.outputBuffer.readable.drop
    conn.outputBuffer.readable.length

/-- What the client can notice when `OnMessage` and the service have returned: a
byte of a response, or the end of the connection. -/
def Answered (provider : RpcProvider Msg) (replies : Replies Msg) (conn : TcpConnection) : Prop :=
  provider.handed replies conn ≠ [] ∨
    (provider.messageCallback replies conn).1.state ≠ .kConnected

/-- The named method is registered and accepts the arguments, and the response
serializes to at least one byte. -/
def Answerable (provider : RpcProvider Msg) (request : RpcRequest) (response : Msg) : Prop :=
  ∃ info method message byte responseStr,
    provider.serviceMap.lookup request.serviceName = some info ∧
      info.methodMap.lookup request.methodName = some method ∧
        method.input.parse request.args = some message ∧
          method.output.serialize response = some (byte :: responseStr)

/-! ## The bytes of a response -/

/-- The calls of `Send` that the responses to a call lead to. -/
def sends (call : Dispatch Msg) (replies : Replies Msg) : List (Bytes × SendRet) :=
  replies.filterMap fun (response, ret) =>
    (call.method.output.serialize response).map fun responseStr => (responseStr, ret)

theorem sends_cons (call : Dispatch Msg) (response : Msg) (ret : SendRet) (replies : Replies Msg) :
    sends call ((response, ret) :: replies) =
      ((call.method.output.serialize response).map fun responseStr =>
        (responseStr, ret)).toList ++ sends call replies := by
  unfold sends
  rw [List.filterMap_cons]
  dsimp only
  cases call.method.output.serialize response with
  | none => rfl
  | some responseStr => rfl

theorem reply_eq_foldl_sends (conn : TcpConnection) (call : Dispatch Msg)
    (replies : Replies Msg) :
    reply conn call replies =
      (sends call replies).foldl (fun conn (responseStr, ret) => conn.send responseStr ret)
        conn := by
  unfold reply
  induction replies generalizing conn with
  | nil => rfl
  | cons first replies inductionHypothesis =>
      rcases first with ⟨response, ret⟩
      rw [List.foldl_cons, inductionHypothesis, sends_cons]
      dsimp only [sendRpcResponse]
      cases call.method.output.serialize response with
      | none => rfl
      | some responseStr => rfl

/-- `Send` queues its bytes behind those that wait, and the socket takes some
from the front. -/
theorem readable_foldl_send {conn : TcpConnection} (connected : conn.connected = true)
    (sent : List (Bytes × SendRet)) :
    ∃ taken, conn.outputBuffer.readable ++ sent.flatMap Prod.fst =
      taken ++ (sent.foldl (fun conn (responseStr, ret) => conn.send responseStr ret)
        conn).outputBuffer.readable := by
  induction sent generalizing conn with
  | nil => exact ⟨[], by simp⟩
  | cons first sent inductionHypothesis =>
      rcases first with ⟨responseStr, ret⟩
      have stays : (conn.send responseStr ret).connected = true := by
        rw [TcpConnection.connected, TcpConnection.send_state]
        exact connected
      rcases inductionHypothesis stays with ⟨later, taken⟩
      rw [TcpConnection.readable_send connected] at taken
      refine ⟨(conn.outputBuffer.readable ++ responseStr).take ret.taken ++ later, ?_⟩
      rw [List.foldl_cons, List.append_assoc, ← taken, List.flatMap_cons, ← List.append_assoc,
        ← List.append_assoc, List.take_append_drop]

/-- A socket that takes nothing leaves all of it in the output buffer. -/
theorem readable_foldl_held {conn : TcpConnection} (connected : conn.connected = true)
    (call : Dispatch Msg) (replies : Replies Msg) :
    ((sends call (held replies)).foldl (fun conn (responseStr, ret) => conn.send responseStr ret)
        conn).outputBuffer.readable =
      conn.outputBuffer.readable ++ (sends call replies).flatMap Prod.fst := by
  induction replies generalizing conn with
  | nil => exact (List.append_nil _).symm
  | cons first replies inductionHypothesis =>
      rcases first with ⟨response, ret⟩
      have same : held ((response, ret) :: replies) =
          (response, .error EAGAIN) :: held replies := rfl
      rw [same, sends_cons, sends_cons]
      cases call.method.output.serialize response with
      | none => exact inductionHypothesis connected
      | some responseStr =>
          have stays : (conn.send responseStr (.error EAGAIN)).connected = true := by
            rw [TcpConnection.connected, TcpConnection.send_state]
            exact connected
          have queued := TcpConnection.readable_send connected responseStr (.error EAGAIN)
          refine (inductionHypothesis stays).trans ?_
          rw [queued]
          exact List.append_assoc ..

/-- What a called service hands over. -/
theorem handed_of_dispatched {provider : RpcProvider Msg} {conn : TcpConnection}
    {call : Dispatch Msg} (connected : conn.connected = true)
    (dispatched : provider.onMessage conn.inputBuffer.readable = .dispatched call)
    (replies : Replies Msg) :
    provider.handed replies conn = (sends call replies).flatMap Prod.fst := by
  have stays : { conn with inputBuffer := conn.inputBuffer.retrieveAll }.connected = true :=
    connected
  unfold handed messageCallback Buffer.retrieveAllAsString
  simp only [dispatched]
  rw [reply_eq_foldl_sends, readable_foldl_held stays, List.drop_left]

/-- Nothing is handed over when no service is called. -/
theorem handed_of_silent {provider : RpcProvider Msg} {conn : TcpConnection}
    (silent : ∀ call, provider.onMessage conn.inputBuffer.readable ≠ .dispatched call)
    (replies : Replies Msg) : provider.handed replies conn = [] := by
  unfold handed messageCallback Buffer.retrieveAllAsString
  dsimp only
  split
  · rename_i call dispatched
    exact absurd dispatched (silent call)
  · exact List.drop_length

/-- Whatever the socket takes: what is handed over goes to it or stays in the output
buffer. -/
theorem readable_messageCallback {conn : TcpConnection} (connected : conn.connected = true)
    (provider : RpcProvider Msg) (replies : Replies Msg) :
    ∃ taken, conn.outputBuffer.readable ++ provider.handed replies conn =
      taken ++ (provider.messageCallback replies conn).1.outputBuffer.readable := by
  cases outcome : provider.onMessage conn.inputBuffer.readable with
  | dispatched call =>
      have stays : { conn with inputBuffer := conn.inputBuffer.retrieveAll }.connected = true :=
        connected
      rw [handed_of_dispatched connected outcome]
      unfold messageCallback Buffer.retrieveAllAsString
      simp only [outcome]
      rw [reply_eq_foldl_sends]
      exact readable_foldl_send stays _
  | _ =>
      rw [handed_of_silent (by simp [outcome])]
      unfold messageCallback Buffer.retrieveAllAsString
      simp only [outcome]
      exact ⟨[], List.append_nil _⟩

/-- `OnMessage` leaves a connection connected. -/
theorem messageCallback_connected (provider : RpcProvider Msg) (replies : Replies Msg)
    {conn : TcpConnection} (connected : conn.state = .kConnected) :
    (provider.messageCallback replies conn).1.state = .kConnected := by
  obtain ⟨next, idle, result⟩ := messageCallback_spec provider replies connected
  rw [result]
  exact idle.1

/-! ## Answered requests -/

/-- What a called service hands over when it runs `done` once. -/
theorem flatMap_sends_singleton (call : Dispatch Msg) (response : Msg) (ret : SendRet) :
    (sends call [(response, ret)]).flatMap Prod.fst =
      (call.method.output.serialize response).getD [] := by
  rw [sends_cons]
  cases call.method.output.serialize response with
  | none => rfl
  | some responseStr => exact List.append_nil responseStr

/-- Whatever arrives behind the frame of a request, the request is answered
exactly if it is answerable. -/
theorem answered_iff {provider : RpcProvider Msg} {conn : TcpConnection} {request : RpcRequest}
    {frame rest : Bytes} {response : Msg} {ret : SendRet} (connected : conn.state = .kConnected)
    (argsBound : request.args.length < sizeLimit) (built : request.frame = some frame)
    (arrived : conn.inputBuffer.readable = frame ++ rest) :
    provider.Answered [(response, ret)] conn ↔ provider.Answerable request response := by
  have isConnected : conn.connected = true := beq_iff_eq.mpr connected
  have routed : provider.onMessage conn.inputBuffer.readable = provider.route request := by
    rw [arrived]
    exact onMessage_of_unpack (unpack_frame_append argsBound built rest)
  constructor
  · rintro (bytes | ended)
    · cases outcome : provider.route request with
      | dispatched call =>
          obtain ⟨info, method, message, service, found, parsed, rfl⟩ :=
            route_eq_dispatched_iff.mp outcome
          rw [handed_of_dispatched isConnected (routed.trans outcome),
            flatMap_sends_singleton] at bytes
          cases serialized : method.output.serialize response with
          | none => simp [serialized] at bytes
          | some responseStr =>
              cases responseStr with
              | nil => simp [serialized] at bytes
              | cons byte responseStr =>
                  exact ⟨info, method, message, byte, responseStr, service, found, parsed,
                    serialized⟩
      | _ => exact absurd (handed_of_silent (by simp [routed, outcome]) _) bytes
    · exact absurd (messageCallback_connected provider [(response, ret)] connected) ended
  · rintro ⟨info, method, message, byte, responseStr, service, found, parsed, serialized⟩
    have outcome : provider.route request = .dispatched ⟨info.service, method, request, message⟩ :=
      route_eq_dispatched_iff.mpr ⟨info, method, message, service, found, parsed, rfl⟩
    left
    rw [handed_of_dispatched isConnected (routed.trans outcome), flatMap_sends_singleton,
      serialized]
    exact List.cons_ne_nil byte responseStr

/-! ## Silence -/

/-- A new connection that has received this text. -/
def receivedBy (recvBuf : Bytes) : TcpConnection :=
  { TcpConnection.new 5 with inputBuffer := Buffer.new.append recvBuf }

theorem readable_receivedBy (recvBuf : Bytes) :
    (receivedBy recvBuf).inputBuffer.readable = recvBuf :=
  Buffer.readable_append Buffer.new recvBuf

theorem not_answered_of_handed_nil {provider : RpcProvider Msg} {replies : Replies Msg}
    {recvBuf : Bytes} (nothing : provider.handed replies (receivedBy recvBuf) = []) :
    ¬ provider.Answered replies (receivedBy recvBuf) := by
  rintro (bytes | ended)
  · exact bytes nothing
  · exact ended (messageCallback_connected provider replies rfl)

/-- A login to a provider whose service sends an empty response, and a login to a
provider without services: neither is answered. -/
theorem silent_login :
    ∃ frame, loginRequest.frame = some frame ∧
      (receivedBy frame).inputBuffer.readable = frame ∧
      ¬ userProvider.Answered [({}, .sent 0)] (receivedBy frame) ∧
      ¬ ({} : RpcProvider RpcHeader).Answered [({}, .sent 0)] (receivedBy frame) := by
  refine ⟨_, rfl, readable_receivedBy _, not_answered_of_handed_nil ?_,
    not_answered_of_handed_nil ?_⟩
  · decide +kernel
  · decide +kernel

/-- A login that is answered. -/
theorem login_answered :
    ∃ frame, loginRequest.frame = some frame ∧
      (userProvider.Answered [({ serviceName := [97] }, .sent 3)] (receivedBy frame) ↔
        userProvider.Answerable loginRequest { serviceName := [97] }) := by
  have built : ∃ frame, loginRequest.frame = some frame := ⟨_, rfl⟩
  obtain ⟨frame, built⟩ := built
  have arrived : (receivedBy frame).inputBuffer.readable = frame ++ [] := by
    rw [readable_receivedBy, List.append_nil]
  exact ⟨frame, built, answered_iff rfl (by decide) built arrived⟩

end RpcProvider

end Mprpc.Rpc
