import Mprpc.Client.Channel

/-!
# What a finished call tells its caller

Two contracts of `CallMethod`.  A call that does not fail should have sent the
whole request and received the whole response; the task takes every prefix that
parses for the response.  A callback should run once whatever happens; the
returns before the task do not run it.  Each contract is stated with the exact
condition under which the code keeps it.
-/

namespace Mprpc.Client

open Mprpc.Net
open Mprpc.Protobuf
open Mprpc.Rpc

universe u

variable {Msg : Type u}

/-! ## Success -/

/-- The calls of one task against a server that answers with `responseStr`, on
a connection with nothing left to read: `send` takes at most what it is given,
and `recv` returns the first piece of the delivered part of the response, cut
in any way, or nothing when the server closes before the first byte. -/
structure Delivers (env : TaskEnv) (sendRpcStr responseStr : Bytes) : Prop where
  send_le : ∀ {count}, env.sendRet = .sent count → count ≤ sendRpcStr.length
  recv_division : ∀ {recvBuf}, env.recvRet = .received recvBuf →
    ∃ division : List Bytes,
      (∀ piece ∈ division, piece ≠ [] ∧ piece.length ≤ recvBufSize) ∧
        division.flatten <+: responseStr ∧ recvBuf = division.headD []

/-- If `Failed()` is false at the end of the task, then the socket took the
whole request and the response is the server's message. -/
def SuccessIsWholeAnswer (output : MessageCodec Msg) (controller : MprpcController)
    (env : TaskEnv) (sendRpcStr : Bytes) (message : Msg) : Prop :=
  ((rpcTask output env).setController controller).failed = false →
    env.handed sendRpcStr = sendRpcStr ∧ (rpcTask output env).response = some message

/-- Whenever the task gets a connection, neither `send` nor `recv` fails and
the received bytes parse, `send` took the whole request and the bytes are the
whole response. -/
def WholeWhenParsed (output : MessageCodec Msg) (env : TaskEnv)
    (sendRpcStr responseStr : Bytes) : Prop :=
  ∀ {fd count recvBuf response}, env.clientfd = some fd → env.sendRet = .sent count →
    env.recvRet = .received recvBuf → output.parse recvBuf = some response →
      count = sendRpcStr.length ∧ recvBuf = responseStr

theorem Delivers.prefix_of_received {env : TaskEnv} {sendRpcStr responseStr recvBuf : Bytes}
    (delivers : Delivers env sendRpcStr responseStr)
    (received : env.recvRet = .received recvBuf) : recvBuf <+: responseStr := by
  rcases delivers.recv_division received with ⟨division, -, delivered, rfl⟩
  cases division with
  | nil => exact List.nil_prefix
  | cons piece pieces => exact (List.prefix_append piece pieces.flatten).trans delivered

/-- The one way to a response: connected, sent without an error, and the first
bytes received parse. -/
theorem rpcTask_eq_answered_iff {output : MessageCodec Msg} {env : TaskEnv} {response : Msg} :
    rpcTask output env = .answered response ↔
      ∃ fd count recvBuf, env.clientfd = some fd ∧ env.sendRet = .sent count ∧
        env.recvRet = .received recvBuf ∧ output.parse recvBuf = some response := by
  cases connected : env.clientfd with
  | none => simp [rpcTask, connected]
  | some fd =>
      cases sent : env.sendRet with
      | error errno => simp [rpcTask, connected, sent, afterSend]
      | sent count =>
          cases received : env.recvRet with
          | error errno => simp [rpcTask, connected, sent, received, afterSend, afterRecv]
          | received recvBuf =>
              cases parsed : output.parse recvBuf with
              | none => simp [rpcTask, connected, sent, received, parsed, afterSend, afterRecv]
              | some found =>
                  simp [rpcTask, connected, sent, received, parsed, afterSend, afterRecv]

/-- Every exit but a parsed response fails the controller. -/
theorem TaskExit.failed_setController (exit : TaskExit Msg) (controller : MprpcController) :
    (exit.setController controller).failed = false ↔
      controller.failed = false ∧ ∃ response, exit = .answered response := by
  cases exit <;> simp [setController, reason, MprpcController.setFailed]

/-- A task reports success for the server's whole answer only, exactly when on
a controller that had not failed before it parses nothing but the whole response
to a request that was taken whole. -/
theorem successIsWholeAnswer_iff {output : MessageCodec Msg} (lawful : output.Lawful)
    (prefixExact : output.PrefixExact) {controller : MprpcController} {env : TaskEnv}
    {sendRpcStr responseStr : Bytes} {message : Msg}
    (serialized : output.serialize message = some responseStr)
    (delivers : Delivers env sendRpcStr responseStr) :
    SuccessIsWholeAnswer output controller env sendRpcStr message ↔
      (controller.failed = false → WholeWhenParsed output env sendRpcStr responseStr) := by
  constructor
  · intro claimed fresh fd count recvBuf response connected sent received parsed
    have answered : rpcTask output env = .answered response :=
      rpcTask_eq_answered_iff.mpr ⟨fd, count, recvBuf, connected, sent, received, parsed⟩
    have succeeded : ((rpcTask output env).setController controller).failed = false :=
      (TaskExit.failed_setController _ _).mpr ⟨fresh, response, answered⟩
    rcases claimed succeeded with ⟨handed, responded⟩
    have whole : sendRpcStr.take count = sendRpcStr := by
      simpa [TaskEnv.handed, connected, sent] using handed
    have same : response = message := by
      simpa [answered, TaskExit.response] using responded
    constructor
    · exact Nat.le_antisymm (delivers.send_le sent) (List.take_eq_self_iff _ |>.mp whole)
    · rw [same] at parsed
      exact prefixExact serialized (delivers.prefix_of_received received) parsed
  · intro whole succeeded
    rcases (TaskExit.failed_setController _ _).mp succeeded with ⟨fresh, response, answered⟩
    rcases rpcTask_eq_answered_iff.mp answered with
      ⟨fd, count, recvBuf, connected, sent, received, parsed⟩
    rcases whole fresh connected sent received parsed with ⟨rfl, rfl⟩
    have same : response = message :=
      Option.some.inj (parsed.symm.trans (lawful.parse_serialize serialized))
    constructor
    · simp [TaskEnv.handed, connected, sent]
    · rw [answered, same]
      rfl

/-- The login of one user, for runs on fixed inputs; names and password are the
fields 1 and 2 of its messages. -/
def loginCall : StubCall RpcHeader where
  service := ⟨Bytes.ofString "UserServiceRpc", Bytes.ofString "fixbug.UserServiceRpc", []⟩
  method := ⟨Bytes.ofString "Login", RpcHeader.codec, RpcHeader.codec⟩
  request := { serviceName := Bytes.ofString "ab", methodName := Bytes.ofString "123456" }
  nameField := some (Bytes.ofString "ab")

/-- The answer to it. -/
def loginResponse : RpcHeader where
  serviceName := Bytes.ofString "ok"
  methodName := Bytes.ofString "welcome"

/-- The server closes before it answers: `recv` returns 0, the empty string
parses, and the call succeeds with an empty response. -/
theorem closed_unanswered_succeeds :
    ∃ frame responseStr,
      loginCall.marshal = .ok frame ∧
        RpcHeader.codec.serialize loginResponse = some responseStr ∧
          Delivers ⟨some 7, .sent frame.length, .received []⟩ frame responseStr ∧
            ¬ SuccessIsWholeAnswer RpcHeader.codec {}
              ⟨some 7, .sent frame.length, .received []⟩ frame loginResponse := by
  refine ⟨_, _, rfl, rfl, ?_, ?_⟩
  · constructor
    · intro count sent
      cases sent
      exact Nat.le_refl _
    · intro recvBuf received
      cases received
      exact ⟨[], by simp⟩
  · intro claimed
    rcases claimed rfl with ⟨-, responded⟩
    revert responded
    decide

/-- A request sent whole, and its response received in one piece. -/
theorem whole_answer_succeeds :
    ∃ frame responseStr,
      loginCall.marshal = .ok frame ∧
        RpcHeader.codec.serialize loginResponse = some responseStr ∧
          SuccessIsWholeAnswer RpcHeader.codec {}
            ⟨some 7, .sent frame.length, .received responseStr⟩ frame loginResponse := by
  refine ⟨_, _, rfl, rfl, (successIsWholeAnswer_iff RpcHeader.codec_lawful
    RpcHeader.codec_prefixExact rfl ?_).mpr ?_⟩
  · constructor
    · intro count sent
      cases sent
      exact Nat.le_refl _
    · intro recvBuf received
      cases received
      exact ⟨[loginResponse.encode], by decide, by simp, rfl⟩
  · intro fresh fd count recvBuf response connected sent received parsed
    cases sent
    cases received
    exact ⟨rfl, rfl⟩

/-! ## Callbacks -/

/-- What a caller with a callback relies on: `done` runs once, and unless a
response was parsed, `Failed()` is true by then. -/
def CallRecord.CompletesOnce (record : CallRecord Msg) : Prop :=
  ∃ failed, record.doneRuns = [failed] ∧ (record.response = none → failed = true)

/-- The ring that a call routes by: the cached one, or one built from a listing
with at least one host. -/
def RoutesBy (hash : Bytes → UInt32) (env : CallEnv) (ch : ConsistentHash) : Prop :=
  env.cached = some ch ∨
    env.cached = none ∧ ∃ hostList, env.children = some hostList ∧ hostList ≠ [] ∧
      ch = ({} : ConsistentHash).addNodes hash hostList

/-- The calls that get as far as the task: request and header serialize, the
path is cached or has providers, and the ring leads to a host string with a
colon in it. -/
def ReachesTask (hash : Bytes → UInt32) (call : StubCall Msg) (env : CallEnv) : Prop :=
  (∃ argsStr, call.method.input.serialize call.request = some argsStr ∧
    (call.rpcRequest argsStr).header.encode.length < sizeLimit) ∧
  ∃ ch, RoutesBy hash env ch ∧ 58 ∈ ch.getTargetHost hash call.hashKey

theorem StubCall.marshal_eq_ok_iff {call : StubCall Msg} :
    (∃ sendRpcStr, call.marshal = .ok sendRpcStr) ↔
      ∃ argsStr, call.method.input.serialize call.request = some argsStr ∧
        (call.rpcRequest argsStr).header.encode.length < sizeLimit := by
  cases serialized : call.method.input.serialize call.request with
  | none => simp [marshal, serialized]
  | some argsStr =>
      cases framed : (call.rpcRequest argsStr).frame with
      | none =>
          have oversized : ¬ (call.rpcRequest argsStr).header.encode.length < sizeLimit := by
            intro bound
            rw [RpcRequest.frame_eq_some_iff.mpr ⟨bound, rfl⟩] at framed
            cases framed
          simp [marshal, serialized, framed, oversized]
      | some sendRpcStr =>
          have bound := (RpcRequest.frame_eq_some_iff.mp framed).1
          simp [marshal, serialized, framed, bound]

theorem lookupRoute_eq_ok_iff (hash : Bytes → UInt32) (methodPath : Bytes) (env : CallEnv)
    (ch : ConsistentHash) :
    lookupRoute hash methodPath env.cached env.children = .ok ch ↔ RoutesBy hash env ch := by
  cases cached : env.cached with
  | some known => simp [lookupRoute, RoutesBy, cached]
  | none =>
      cases listed : env.children with
      | none => simp [lookupRoute, fetchRoute, RoutesBy, cached, listed]
      | some hostList =>
          cases hostList with
          | nil => simp [lookupRoute, fetchRoute, RoutesBy, cached, listed]
          | cons host hosts =>
              simp [lookupRoute, fetchRoute, RoutesBy, cached, listed, eq_comm]

theorem parseAddress_eq_ok_iff (methodPath hostData : Bytes) :
    (∃ endpoint, parseAddress methodPath hostData = .ok endpoint) ↔ 58 ∈ hostData := by
  cases found : hostData.idxOf? 58 with
  | none => simp [parseAddress, found, List.idxOf?_eq_none_iff.mp found]
  | some idx =>
      have member : (58 : UInt8) ∈ hostData := by
        by_contra missing
        rw [List.idxOf?_eq_none_iff.mpr missing] at found
        cases found
      simp [parseAddress, found, member]

theorem not_completesOnce_rejected (controller : MprpcController)
    (routeCache : Option ConsistentHash) (reason : Bytes) :
    ¬ (CallRecord.rejected controller routeCache reason : CallRecord Msg).CompletesOnce := by
  rintro ⟨failed, ran, -⟩
  cases ran

theorem completesOnce_completed (controller : MprpcController)
    (routeCache : Option ConsistentHash) (endpoint : Endpoint) (sendRpcStr : Bytes)
    (exit : TaskExit Msg) :
    (CallRecord.completed controller routeCache endpoint sendRpcStr exit true).CompletesOnce := by
  refine ⟨_, rfl, ?_⟩
  intro unanswered
  by_contra succeeded
  have succeeds := (exit.failed_setController controller).mp (by simpa using succeeded)
  rcases succeeds with ⟨-, response, rfl⟩
  cases unanswered

/-- The callback runs once, with every failure recorded before, exactly for the
calls that reach the task. -/
theorem completesOnce_callMethod_iff (hash : Bytes → UInt32) (controller : MprpcController)
    (call : StubCall Msg) (env : CallEnv) :
    (callMethod hash controller call env true).CompletesOnce ↔ ReachesTask hash call env := by
  simp only [ReachesTask, ← StubCall.marshal_eq_ok_iff,
    ← lookupRoute_eq_ok_iff hash call.methodPath, ← parseAddress_eq_ok_iff call.methodPath]
  cases marshalled : call.marshal with
  | error reason => simp [callMethod, marshalled, not_completesOnce_rejected]
  | ok sendRpcStr =>
      cases routed : lookupRoute hash call.methodPath env.cached env.children with
      | error reason => simp [callMethod, marshalled, routed, not_completesOnce_rejected]
      | ok ch =>
          cases parsed : parseAddress call.methodPath (ch.getTargetHost hash call.hashKey) with
          | error reason =>
              simp [callMethod, marshalled, routed, parsed, not_completesOnce_rejected]
          | ok endpoint =>
              simp [callMethod, marshalled, routed, parsed, completesOnce_completed]

/-- A service without providers: `CallMethod` returns and the callback never
runs. -/
theorem unprovided_call_hangs :
    ¬ (callMethod (fun _ => 0) {} loginCall ⟨none, some [], ⟨none, .sent 0, .received []⟩⟩
      true).CompletesOnce := by
  rintro ⟨failed, ran, -⟩
  cases ran

end Mprpc.Client
