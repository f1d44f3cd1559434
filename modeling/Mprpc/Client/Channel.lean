import Mprpc.Client.ConsistentHash
import Mprpc.Net.Socket
import Mprpc.Rpc.Provider

/-!
# The client side of a call: `MprpcChannel::CallMethod`

`callMethod` follows the function from the serialization of the request to the
last line of the detached task.  What ZooKeeper and the socket calls return is
an argument, and the record of a call lists the values of `Failed()` at each
run of the caller's `done`.
-/

namespace Mprpc.Client

open Mprpc.Net
open Mprpc.Protobuf
open Mprpc.Rpc

universe u

/-- `class MprpcController`. -/
structure MprpcController where
  failed : Bool := false
  errText : Bytes := []
  deriving DecidableEq, Repr

namespace MprpcController

/-- `Reset`. -/
def reset (_ : MprpcController) : MprpcController where
  failed := false
  errText := []

/-- `SetFailed`. -/
def setFailed (_ : MprpcController) (reason : Bytes) : MprpcController where
  failed := true
  errText := reason

end MprpcController

/-- The address of a provider. -/
structure Endpoint where
  ip : Bytes
  port : UInt16
  deriving DecidableEq, Repr

/-- The pool's key for an address. -/
def Endpoint.key (endpoint : Endpoint) : Bytes :=
  endpoint.ip ++ Bytes.ofString ":" ++ Bytes.ofNat endpoint.port.toNat

/-- The key tells addresses apart: the port stands behind the last colon. -/
theorem Endpoint.key_injective {first second : Endpoint} (same : first.key = second.key) :
    first = second := by
  rcases first with ⟨ip, port⟩
  rcases second with ⟨ip', port'⟩
  have colon : Bytes.ofString ":" = [58] := rfl
  unfold key at same
  rw [colon, List.append_assoc, List.append_assoc, List.singleton_append,
    List.singleton_append] at same
  rcases Bytes.split_last (Bytes.colon_notMem_ofNat _) (Bytes.colon_notMem_ofNat _) same with
    ⟨sameIp, samePort⟩
  have ports : port = port' := UInt16.toNat_inj.mp (Bytes.ofNat_injective samePort)
  dsimp only at sameIp
  rw [sameIp, ports]

/-- A call as a stub makes it.  `nameField` is the value that reflection finds
in a field `name` of the request, when its type has one. -/
structure StubCall (Msg : Type u) where
  service : ServiceDescriptor Msg
  method : MethodDescriptor Msg
  request : Msg
  nameField : Option Bytes

namespace StubCall

variable {Msg : Type u}

/-- `method_path`. -/
def methodPath (call : StubCall Msg) : Bytes :=
  Bytes.ofString "/" ++ call.service.name ++ Bytes.ofString "/" ++ call.method.name

/-- `hash_key`: the method name, or the user that a login names. -/
def hashKey (call : StubCall Msg) : Bytes :=
  if call.service.name = Bytes.ofString "UserServiceRpc" ∧
      call.method.name = Bytes.ofString "Login" then
    call.nameField.getD call.method.name
  else call.method.name

/-- The request frame of a call with its argument string. -/
def rpcRequest (call : StubCall Msg) (argsStr : Bytes) : RpcRequest where
  serviceName := call.service.name
  methodName := call.method.name
  args := argsStr

/-- Sections 1 to 3 of `CallMethod`: `send_rpc_str`, or the text for
`SetFailed`. -/
def marshal (call : StubCall Msg) : Except Bytes Bytes :=
  match call.method.input.serialize call.request with
  | none => .error (Bytes.ofString "serialize request error!")
  | some argsStr =>
      match (call.rpcRequest argsStr).frame with
      | none => .error (Bytes.ofString "serialize rpc header error!")
      | some sendRpcStr => .ok sendRpcStr

end StubCall

/-! ## Routing -/

/-- The ring built from what `zoo_wget_children` returned, `none` being any
code but `ZOK`. -/
def fetchRoute (hash : Bytes → UInt32) (methodPath : Bytes) :
    Option (List Bytes) → Except Bytes ConsistentHash
  | none => .error (methodPath ++ Bytes.ofString " get children error!")
  | some [] => .error (methodPath ++ Bytes.ofString " is not exist or no provider!")
  | some hostList => .ok (({} : ConsistentHash).addNodes hash hostList)

/-- Sections 4.2 and 4.3: the cached ring, or a new one. -/
def lookupRoute (hash : Bytes → UInt32) (methodPath : Bytes) (cached : Option ConsistentHash)
    (children : Option (List Bytes)) : Except Bytes ConsistentHash :=
  match cached with
  | some ch => .ok ch
  | none => fetchRoute hash methodPath children

/-- The address in a host string `ip:port`. -/
def parseAddress (methodPath hostData : Bytes) : Except Bytes Endpoint :=
  match hostData.idxOf? 58 with
  | none => .error (methodPath ++ Bytes.ofString " address is invalid!")
  | some idx =>
      .ok ⟨hostData.take idx, UInt16.ofInt (Bytes.atoi (hostData.drop (idx + 1)))⟩

/-! ## The task -/

/-- How `rpc_task` ends. -/
inductive TaskExit (Msg : Type u)
  | noConnection
  | sendError (errno : Errno)
  | recvError (errno : Errno)
  | parseError
  | answered (response : Msg)

/-- What becomes of a descriptor that a task got from the pool. -/
inductive Disposal
  | close
  | release
  deriving DecidableEq, Repr

namespace TaskExit

variable {Msg : Type u}

/-- The text that `SetFailed` gets before the task returns. -/
def reason : TaskExit Msg → Option Bytes
  | .noConnection => some (Bytes.ofString "get connection from pool error!")
  | .sendError errno => some (Bytes.ofString "send error! errno:" ++ Bytes.ofNat errno)
  | .recvError errno => some (Bytes.ofString "recv error! errno:" ++ Bytes.ofNat errno)
  | .parseError => some (Bytes.ofString "parse response error!")
  | .answered _ => none

/-- An error of a socket call closes the descriptor; a response that does not
parse still returns it to the pool. -/
def disposal : TaskExit Msg → Option Disposal
  | .noConnection => none
  | .sendError _ | .recvError _ => some .close
  | .parseError | .answered _ => some .release

def response : TaskExit Msg → Option Msg
  | .answered response => some response
  | _ => none

/-- The controller when `done` runs. -/
def setController (exit : TaskExit Msg) (controller : MprpcController) : MprpcController :=
  match exit.reason with
  | none => controller
  | some reason => controller.setFailed reason

end TaskExit

/-- The results of the calls that one `rpc_task` makes; `clientfd` is `none`
for the `-1` of `GetConnection`. -/
structure TaskEnv where
  clientfd : Option Fd
  sendRet : SendRet
  recvRet : RecvRet

/-- The size of `recv_buf`. -/
def recvBufSize : Nat :=
  1024

/-- The bytes of the request that the socket took. -/
def TaskEnv.handed (env : TaskEnv) (sendRpcStr : Bytes) : Bytes :=
  match env.clientfd, env.sendRet with
  | some _, .sent count => sendRpcStr.take count
  | _, _ => []

variable {Msg : Type u}

/-- The exit that a `send` leads to; any count of bytes is taken as success. -/
def afterSend : SendRet → Option (TaskExit Msg)
  | .error errno => some (.sendError errno)
  | .sent _ => none

/-- The exit that the one `recv` leads to. -/
def afterRecv (output : MessageCodec Msg) : RecvRet → TaskExit Msg
  | .error errno => .recvError errno
  | .received recvBuf =>
      match output.parse recvBuf with
      | none => .parseError
      | some response => .answered response

/-- `rpc_task`. -/
def rpcTask (output : MessageCodec Msg) (env : TaskEnv) : TaskExit Msg :=
  match env.clientfd with
  | none => .noConnection
  | some _ =>
      match afterSend env.sendRet with
      | some exit => exit
      | none => afterRecv output env.recvRet

/-! ## The whole call -/

/-- What one `CallMethod` meets: the cache entry of its path, the listing of
the path, and the results of the task's calls. -/
structure CallEnv where
  cached : Option ConsistentHash
  children : Option (List Bytes)
  task : TaskEnv

/-- What one `CallMethod` leaves behind, its task included.  `doneRuns` holds
the value of `Failed()` at each run of `done`. -/
structure CallRecord (Msg : Type u) where
  controller : MprpcController
  routeCache : Option ConsistentHash
  launched : Option (Endpoint × Bytes) := none
  response : Option Msg := none
  doneRuns : List Bool := []

/-- A return before the task: `SetFailed` and nothing else. -/
def CallRecord.rejected (controller : MprpcController) (routeCache : Option ConsistentHash)
    (reason : Bytes) : CallRecord Msg where
  controller := controller.setFailed reason
  routeCache := routeCache

/-- The end of a task.  Every exit of `rpc_task` runs `done` when there is
one. -/
def CallRecord.completed (controller : MprpcController) (routeCache : Option ConsistentHash)
    (endpoint : Endpoint) (sendRpcStr : Bytes) (exit : TaskExit Msg) (hasDone : Bool) :
    CallRecord Msg where
  controller := exit.setController controller
  routeCache := routeCache
  launched := some (endpoint, sendRpcStr)
  response := exit.response
  doneRuns := if hasDone then [(exit.setController controller).failed] else []

/-- `CallMethod`. -/
def callMethod (hash : Bytes → UInt32) (controller : MprpcController) (call : StubCall Msg)
    (env : CallEnv) (hasDone : Bool) : CallRecord Msg :=
  match call.marshal with
  | .error reason => .rejected controller env.cached reason
  | .ok sendRpcStr =>
      match lookupRoute hash call.methodPath env.cached env.children with
      | .error reason => .rejected controller env.cached reason
      | .ok ch =>
          match parseAddress call.methodPath (ch.getTargetHost hash call.hashKey) with
          | .error reason => .rejected controller (some ch) reason
          | .ok endpoint =>
              .completed controller (some ch) endpoint sendRpcStr
                (rpcTask call.method.output env.task) hasDone

end Mprpc.Client
