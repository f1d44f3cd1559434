import Mprpc.Data.AssocMap
import Mprpc.Net.Connection
import Mprpc.Rpc.Frame

/-!
# The server side of a call: `RpcProvider`

`onMessage` is the function that unpacks and dispatches whatever the connection
has read.  Its result records how it ended: the exception that
`std::string::substr` throws, one of the four logged errors, or the service
method it called.  Descriptors carry the codecs of their messages, so a request
is parsed the way the service's prototype would parse it.
-/

namespace Mprpc.Rpc

open Mprpc.Net
open Mprpc.Protobuf

universe u

/-- A method descriptor with its request and response prototypes. -/
structure MethodDescriptor (Msg : Type u) where
  name : Bytes
  input : MessageCodec Msg
  output : MessageCodec Msg

/-- A service descriptor.  `fullName` includes the package, `name` does not. -/
structure ServiceDescriptor (Msg : Type u) where
  name : Bytes
  fullName : Bytes
  methods : List (MethodDescriptor Msg)

/-- A registered service object; `object` is its identity. -/
structure Service (Msg : Type u) where
  object : Nat
  descriptor : ServiceDescriptor Msg

/-- `RpcProvider::ServiceInfo`. -/
structure ServiceInfo (Msg : Type u) where
  service : Service Msg
  methodMap : AssocMap Bytes (MethodDescriptor Msg)

/-- `class RpcProvider`. -/
structure RpcProvider (Msg : Type u) where
  serviceMap : AssocMap Bytes (ServiceInfo Msg) := []

/-- A call of `service->CallMethod`, with the argument string that the request
was parsed from. -/
structure Dispatch (Msg : Type u) where
  service : Service Msg
  method : MethodDescriptor Msg
  target : RpcRequest
  request : Msg

/-- How one `OnMessage` ends. -/
inductive MessageOutcome (Msg : Type u)
  /-- `std::out_of_range` leaves the function. -/
  | outOfRange
  /-- "rpc_header_str:%s parse error!" -/
  | headerError (rpcHeaderStr : Bytes)
  /-- "%s is not exist!" -/
  | noService (serviceName : Bytes)
  /-- "%s:%s is not exist!" -/
  | noMethod (serviceName methodName : Bytes)
  /-- "request parse error, content:%s" -/
  | requestError (argsStr : Bytes)
  | dispatched (call : Dispatch Msg)

/-- The request that a service method was called for, if any. -/
def MessageOutcome.target? {Msg : Type u} : MessageOutcome Msg → Option RpcRequest
  | .dispatched call => some call.target
  | _ => none

namespace RpcProvider

variable {Msg : Type u}

/-- `NotifyService`: neither map replaces an entry it already has. -/
def notifyService (provider : RpcProvider Msg) (service : Service Msg) : RpcProvider Msg :=
  let methodMap := service.descriptor.methods.foldl
    (fun map method => AssocMap.insertNew method.name method map) []
  { serviceMap := AssocMap.insertNew service.descriptor.name ⟨service, methodMap⟩
      provider.serviceMap }

/-- The routing part of `OnMessage`, once header and argument string are cut
out. -/
def route (provider : RpcProvider Msg) (target : RpcRequest) : MessageOutcome Msg :=
  match provider.serviceMap.lookup target.serviceName with
  | none => .noService target.serviceName
  | some info =>
      match info.methodMap.lookup target.methodName with
      | none => .noMethod target.serviceName target.methodName
      | some method =>
          match method.input.parse target.args with
          | none => .requestError target.args
          | some request => .dispatched ⟨info.service, method, target, request⟩

/-- `OnMessage` on the text it retrieves.  `4 + header_size` is 32-bit unsigned
arithmetic. -/
def onMessage (provider : RpcProvider Msg) (recvBuf : Bytes) : MessageOutcome Msg :=
  let headerSize := recvBuf.toUInt32
  match recvBuf.substr 4 headerSize with
  | none => .outOfRange
  | some rpcHeaderStr =>
      match RpcHeader.parse rpcHeaderStr with
      | none => .headerError rpcHeaderStr
      | some rpcHeader =>
          match recvBuf.substr (uint32 (4 + headerSize)) rpcHeader.argsSize.toNat with
          | none => .outOfRange
          | some argsStr =>
              provider.route ⟨rpcHeader.serviceName, rpcHeader.methodName, argsStr⟩

/-- `SendRpcResponse`. -/
def sendRpcResponse (conn : TcpConnection) (output : MessageCodec Msg) (response : Msg)
    (ret : SendRet) : TcpConnection :=
  match output.serialize response with
  | some responseStr => conn.send responseStr ret
  | none => conn

/-- What the service does when it is called: the responses it passes to `done`,
each with the result of the `send` that follows. -/
abbrev Replies (Msg : Type u) := List (Msg × SendRet)

/-- Run the response callback once for each reply. -/
def reply (conn : TcpConnection) (call : Dispatch Msg) (replies : Replies Msg) :
    TcpConnection :=
  replies.foldl (fun conn (response, ret) => sendRpcResponse conn call.method.output response ret)
    conn

/-- `OnMessage` as the connection's message callback. -/
def messageCallback (provider : RpcProvider Msg) (replies : Replies Msg)
    (conn : TcpConnection) : TcpConnection × Option (MessageOutcome Msg) :=
  let (recvBuf, inputBuffer) := conn.inputBuffer.retrieveAllAsString
  let conn := { conn with inputBuffer := inputBuffer }
  match provider.onMessage recvBuf with
  | .dispatched call => (reply conn call replies, some (.dispatched call))
  | outcome => (conn, some outcome)

/-! ## Routing -/

/-- A request that names a registered method and carries a serialized message
of its request type. -/
def Registered (provider : RpcProvider Msg) (target : RpcRequest) : Prop :=
  ∃ info method request,
    provider.serviceMap.lookup target.serviceName = some info ∧
      info.methodMap.lookup target.methodName = some method ∧
        method.input.serialize request = some target.args

/-- The method that a request is routed to accepts its arguments. -/
def Accepts (provider : RpcProvider Msg) (target : RpcRequest) : Prop :=
  ∃ info method request,
    provider.serviceMap.lookup target.serviceName = some info ∧
      info.methodMap.lookup target.methodName = some method ∧
        method.input.parse target.args = some request

theorem route_eq_dispatched_iff {provider : RpcProvider Msg} {target : RpcRequest}
    {call : Dispatch Msg} :
    provider.route target = .dispatched call ↔
      ∃ info method request,
        provider.serviceMap.lookup target.serviceName = some info ∧
          info.methodMap.lookup target.methodName = some method ∧
            method.input.parse target.args = some request ∧
              call = ⟨info.service, method, target, request⟩ := by
  unfold route
  cases service : provider.serviceMap.lookup target.serviceName with
  | none => simp
  | some info =>
      cases found : info.methodMap.lookup target.methodName with
      | none => simp [found]
      | some method =>
          cases parsed : method.input.parse target.args with
          | none => simp [found, parsed]
          | some request => simp [found, parsed, eq_comm]

/-- A method is called exactly for the requests that some registered method
accepts. -/
theorem accepts_iff {provider : RpcProvider Msg} {target : RpcRequest} :
    provider.Accepts target ↔ ∃ call, provider.route target = .dispatched call := by
  constructor
  · rintro ⟨info, method, request, service, found, parsed⟩
    exact ⟨_, route_eq_dispatched_iff.mpr
      ⟨info, method, request, service, found, parsed, rfl⟩⟩
  · rintro ⟨call, routed⟩
    obtain ⟨info, method, request, service, found, parsed, -⟩ :=
      route_eq_dispatched_iff.mp routed
    exact ⟨info, method, request, service, found, parsed⟩

theorem target_of_route {provider : RpcProvider Msg} {target : RpcRequest} {call : Dispatch Msg}
    (routed : provider.route target = .dispatched call) : call.target = target := by
  obtain ⟨_, _, _, _, _, _, rfl⟩ := route_eq_dispatched_iff.mp routed
  rfl

theorem route_ne_outOfRange (provider : RpcProvider Msg) (target : RpcRequest) :
    provider.route target ≠ .outOfRange := by
  unfold route
  split
  · simp
  · split
    · simp
    · split <;> simp

/-! ## Unpacking -/

/-- `OnMessage` throws in two places only: when fewer than four bytes arrived,
and when the computed start of the arguments lies behind the end. -/
theorem onMessage_eq_outOfRange_iff {provider : RpcProvider Msg} {recvBuf : Bytes} :
    provider.onMessage recvBuf = .outOfRange ↔
      recvBuf.length < 4 ∨
        (∃ rpcHeader, RpcHeader.parse ((recvBuf.drop 4).take recvBuf.toUInt32) = some rpcHeader) ∧
          recvBuf.length < uint32 (4 + recvBuf.toUInt32) := by
  unfold onMessage Bytes.substr
  by_cases long : 4 ≤ recvBuf.length
  · have notShort : ¬ recvBuf.length < 4 := Nat.not_lt.mpr long
    simp only [if_pos long, notShort, false_or]
    cases parsed : RpcHeader.parse ((recvBuf.drop 4).take recvBuf.toUInt32) with
    | none => simp
    | some rpcHeader =>
        by_cases inside : uint32 (4 + recvBuf.toUInt32) ≤ recvBuf.length
        · simp [route_ne_outOfRange, inside]
        · simp [if_neg inside, Nat.lt_of_not_le inside]
  · simp [if_neg long, Nat.lt_of_not_le long]

/-- The request that `OnMessage` cuts out of a text, when it gets that far. -/
def unpack (recvBuf : Bytes) : Option RpcRequest := do
  let rpcHeaderStr ← recvBuf.substr 4 recvBuf.toUInt32
  let rpcHeader ← RpcHeader.parse rpcHeaderStr
  let argsStr ← recvBuf.substr (uint32 (4 + recvBuf.toUInt32)) rpcHeader.argsSize.toNat
  pure ⟨rpcHeader.serviceName, rpcHeader.methodName, argsStr⟩

theorem unpack_eq_some_iff {recvBuf : Bytes} {target : RpcRequest} :
    unpack recvBuf = some target ↔
      ∃ rpcHeader, 4 ≤ recvBuf.length ∧
        RpcHeader.parse ((recvBuf.drop 4).take recvBuf.toUInt32) = some rpcHeader ∧
        uint32 (4 + recvBuf.toUInt32) ≤ recvBuf.length ∧
        target = ⟨rpcHeader.serviceName, rpcHeader.methodName,
          (recvBuf.drop (uint32 (4 + recvBuf.toUInt32))).take rpcHeader.argsSize.toNat⟩ := by
  simp only [unpack, Option.bind_eq_bind, Option.bind_eq_some_iff, Bytes.substr_eq_some_iff,
    Option.pure_def, Option.some.injEq]
  constructor
  · rintro ⟨_, ⟨long, rfl⟩, rpcHeader, parsed, _, ⟨inside, rfl⟩, rfl⟩
    exact ⟨rpcHeader, long, parsed, inside, rfl⟩
  · rintro ⟨rpcHeader, long, parsed, inside, rfl⟩
    exact ⟨_, ⟨long, rfl⟩, rpcHeader, parsed, _, ⟨inside, rfl⟩, rfl⟩

/-- `OnMessage` calls a method exactly when it unpacks a request that is routed
to one. -/
theorem onMessage_eq_dispatched_iff {provider : RpcProvider Msg} {recvBuf : Bytes}
    {call : Dispatch Msg} :
    provider.onMessage recvBuf = .dispatched call ↔
      ∃ target, unpack recvBuf = some target ∧ provider.route target = .dispatched call := by
  cases header : recvBuf.substr 4 recvBuf.toUInt32 with
  | none => simp [onMessage, unpack, header]
  | some rpcHeaderStr =>
      cases parsed : RpcHeader.parse rpcHeaderStr with
      | none => simp [onMessage, unpack, header, parsed]
      | some rpcHeader =>
          cases args : recvBuf.substr (uint32 (4 + recvBuf.toUInt32)) rpcHeader.argsSize.toNat with
          | none => simp [onMessage, unpack, header, parsed, args]
          | some argsStr => simp [onMessage, unpack, header, parsed, args]

/-- A text that unpacks is treated as its request. -/
theorem onMessage_of_unpack {provider : RpcProvider Msg} {recvBuf : Bytes} {target : RpcRequest}
    (unpacked : unpack recvBuf = some target) :
    provider.onMessage recvBuf = provider.route target := by
  simp only [unpack, Option.bind_eq_bind, Option.bind_eq_some_iff, Option.pure_def,
    Option.some.injEq] at unpacked
  obtain ⟨rpcHeaderStr, cut, rpcHeader, parsed, argsStr, args, rfl⟩ := unpacked
  simp only [onMessage, cut, parsed, args]

end RpcProvider

/-- A provider with the example service `fixbug.UserServiceRpc`.  Its request
has the two `bytes` fields that the header starts with, so the header's codec
stands for it. -/
def userProvider : RpcProvider RpcHeader :=
  ({} : RpcProvider RpcHeader).notifyService
    { object := 0
      descriptor :=
        { name := Bytes.ofString "UserServiceRpc"
          fullName := Bytes.ofString "fixbug.UserServiceRpc"
          methods := [⟨Bytes.ofString "Login", RpcHeader.codec, RpcHeader.codec⟩] } }

end Mprpc.Rpc
