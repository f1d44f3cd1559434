import Mprpc.Client.Channel
import Mprpc.Rpc.Framing

/-!
# The names that calls travel under

A stub writes the names of its service and method into the request header, and
the provider looks both up again.  Both use `name()`, which leaves out the
package, and the provider keeps the first service of a name.  So a call reaches
its service unless another one of that name was registered before it.
-/

namespace Mprpc.Deployment

open Mprpc.Client
open Mprpc.Protobuf
open Mprpc.Rpc

universe u

variable {Msg : Type u}

/-- A provider after the calls of `NotifyService` for these services. -/
def registerAll (services : List (Service Msg)) : RpcProvider Msg :=
  services.foldl RpcProvider.notifyService {}

/-- What `NotifyService` stores for a service. -/
def serviceInfo (service : Service Msg) : ServiceInfo Msg where
  service := service
  methodMap := service.descriptor.methods.foldl
    (fun map method => AssocMap.insertNew method.name method map) []

/-- The provider has the service that was registered first under a name. -/
theorem lookup_registerAll (services : List (Service Msg)) (name : Bytes) :
    (registerAll services).serviceMap.lookup name =
      (services.find? fun service => service.descriptor.name = name).map serviceInfo := by
  have maps : ∀ provider : RpcProvider Msg,
      (services.foldl RpcProvider.notifyService provider).serviceMap =
        services.foldl (fun map service =>
          AssocMap.insertNew service.descriptor.name (serviceInfo service) map)
            provider.serviceMap := by
    induction services with
    | nil => intro _; rfl
    | cons service services inductionHypothesis => exact fun _ => inductionHypothesis _
  rw [registerAll, maps, AssocMap.lookup_foldl_insertNew]
  rfl

/-- A service's map has all its methods, when their names differ. -/
theorem lookup_methodMap {service : Service Msg} {method : MethodDescriptor Msg}
    (distinct : (service.descriptor.methods.map MethodDescriptor.name).Nodup)
    (member : method ∈ service.descriptor.methods) :
    (serviceInfo service).methodMap.lookup method.name = some method := by
  have first : (service.descriptor.methods.find? fun other => other.name = method.name) =
      some method := by
    rcases List.append_of_mem member with ⟨before, after, split⟩
    rw [split, List.map_append, List.map_cons] at distinct
    rw [split]
    apply List.find?_eq_some_iff_append.mpr
    refine ⟨by simp, before, after, rfl, ?_⟩
    intro other earlier
    have apart := (List.nodup_append.mp distinct).2.2 other.name
      (List.mem_map_of_mem earlier) method.name List.mem_cons_self
    simp [apart]
  unfold serviceInfo
  dsimp only
  rw [AssocMap.lookup_foldl_insertNew, first]
  rfl

/-- A request that a provider unpacks and hands to one of its services, with
this method. -/
def ReachesService (services : List (Service Msg)) (service : Service Msg)
    (method : MethodDescriptor Msg) (sendRpcStr : Bytes) : Prop :=
  ∃ call, (registerAll services).onMessage sendRpcStr = .dispatched call ∧
    call.service = service ∧ call.method = method

/-- The parts of a request that `CallMethod` built. -/
theorem marshal_eq_ok_iff {call : StubCall Msg} {sendRpcStr : Bytes} :
    call.marshal = .ok sendRpcStr ↔
      ∃ argsStr, call.method.input.serialize call.request = some argsStr ∧
        (call.rpcRequest argsStr).frame = some sendRpcStr := by
  unfold StubCall.marshal
  cases call.method.input.serialize call.request with
  | none => simp
  | some argsStr =>
      cases framed : (call.rpcRequest argsStr).frame with
      | none => simp [framed]
      | some bytes => simp [framed]

/-- What a provider makes of a stub's request: it looks up the two names. -/
theorem onMessage_of_marshal {call : StubCall Msg} {sendRpcStr : Bytes}
    (lawful : call.method.input.Lawful) (built : call.marshal = .ok sendRpcStr)
    (provider : RpcProvider Msg) :
    ∃ argsStr, call.method.input.parse argsStr = some call.request ∧
      provider.onMessage sendRpcStr = provider.route (call.rpcRequest argsStr) := by
  rcases marshal_eq_ok_iff.mp built with ⟨argsStr, serialized, framed⟩
  refine ⟨argsStr, lawful.parse_serialize serialized, ?_⟩
  have unpacked : RpcProvider.unpack (sendRpcStr ++ []) = some (call.rpcRequest argsStr) :=
    RpcProvider.unpack_frame_append (lawful.serialize_length serialized) framed []
  rw [List.append_nil] at unpacked
  exact RpcProvider.onMessage_of_unpack unpacked

/-- A call of a service's method reaches that service and that method exactly if
no service was registered before it under the same short name. -/
theorem reachesService_iff {before after : List (Service Msg)} {service : Service Msg}
    {call : StubCall Msg} {sendRpcStr : Bytes}
    (fullNames : (before ++ service :: after).Pairwise fun first second =>
      first.descriptor.fullName ≠ second.descriptor.fullName)
    (methodNames : (service.descriptor.methods.map MethodDescriptor.name).Nodup)
    (ofService : call.service = service.descriptor)
    (member : call.method ∈ service.descriptor.methods) (lawful : call.method.input.Lawful)
    (built : call.marshal = .ok sendRpcStr) :
    ReachesService (before ++ service :: after) service call.method sendRpcStr ↔
      ∀ earlier ∈ before, earlier.descriptor.name ≠ service.descriptor.name := by
  rcases onMessage_of_marshal lawful built (registerAll (before ++ service :: after)) with
    ⟨argsStr, parsed, onMessage⟩
  have lookedUp := lookup_registerAll (before ++ service :: after) call.service.name
  rw [ofService] at lookedUp
  unfold ReachesService
  rw [onMessage]
  constructor
  · rintro ⟨dispatch, routed, toService, -⟩ earlier inside sameName
    rcases RpcProvider.route_eq_dispatched_iff.mp routed with
      ⟨info, _, _, service', -, -, rfl⟩
    dsimp only [StubCall.rpcRequest] at service'
    rw [ofService] at service'
    rcases Option.map_eq_some_iff.mp (lookedUp.symm.trans service') with ⟨first, found, rfl⟩
    have firstInside : first ∈ before := by
      rw [List.find?_append] at found
      cases early : before.find? fun other => other.descriptor.name = service.descriptor.name with
      | none => exact absurd sameName (by simpa using List.find?_eq_none.mp early earlier inside)
      | some other =>
          rw [early, Option.some_or] at found
          cases found
          exact List.mem_of_find?_eq_some early
    have apart := (List.pairwise_append.mp fullNames).2.2 first firstInside service
      List.mem_cons_self
    exact apart (congrArg (fun service => service.descriptor.fullName) toService)
  · intro unshadowed
    have found : ((before ++ service :: after).find? fun other =>
        other.descriptor.name = service.descriptor.name) = some service := by
      apply List.find?_eq_some_iff_append.mpr
      exact ⟨by simp, before, after, rfl, fun earlier inside => by simp [unshadowed earlier inside]⟩
    rw [found, ← ofService] at lookedUp
    exact ⟨_, RpcProvider.route_eq_dispatched_iff.mpr ⟨serviceInfo service, call.method,
      call.request, lookedUp, lookup_methodMap methodNames member, parsed, rfl⟩, rfl, rfl⟩

/-! ## Two services of one short name -/

/-- The one method of the two services. -/
def loginMethod : MethodDescriptor RpcHeader :=
  ⟨Bytes.ofString "Login", RpcHeader.codec, RpcHeader.codec⟩

/-- `UserServiceRpc` in some package. -/
def usersOf (object : Nat) (package : String) : Service RpcHeader where
  object := object
  descriptor :=
    { name := Bytes.ofString "UserServiceRpc"
      fullName := Bytes.ofString package ++ Bytes.ofString ".UserServiceRpc"
      methods := [loginMethod] }

/-- A call of `Login` for the user "ab". -/
def loginCall (service : Service RpcHeader) : StubCall RpcHeader where
  service := service.descriptor
  method := loginMethod
  request := { serviceName := [97, 98] }
  nameField := some [97, 98]

/-- The request of a call to the second of two services goes to the first. -/
theorem same_short_name_misrouted :
    ([usersOf 0 "shop", usersOf 1 "fixbug"].Pairwise fun first second =>
        first.descriptor.fullName ≠ second.descriptor.fullName) ∧
      ∃ sendRpcStr, (loginCall (usersOf 1 "fixbug")).marshal = .ok sendRpcStr ∧
        ¬ ReachesService [usersOf 0 "shop", usersOf 1 "fixbug"] (usersOf 1 "fixbug") loginMethod
          sendRpcStr := by
  refine ⟨by decide, _, rfl, ?_⟩
  rintro ⟨call, dispatched, toService, -⟩
  cases dispatched
  exact absurd (congrArg Service.object toService) (by decide)

/-- A service of another name, with a method of the same name. -/
def visitors : Service RpcHeader where
  object := 2
  descriptor :=
    { name := Bytes.ofString "VisitorServiceRpc"
      fullName := Bytes.ofString "shop.VisitorServiceRpc"
      methods := [loginMethod] }

/-- The first of the two is reached, also behind a service of another name. -/
theorem first_of_short_name_reached :
    ∃ sendRpcStr, (loginCall (usersOf 0 "shop")).marshal = .ok sendRpcStr ∧
      ReachesService ([visitors] ++ usersOf 0 "shop" :: [usersOf 1 "fixbug"])
        (usersOf 0 "shop") loginMethod sendRpcStr := by
  have built : ∃ sendRpcStr, (loginCall (usersOf 0 "shop")).marshal = .ok sendRpcStr := ⟨_, rfl⟩
  rcases built with ⟨sendRpcStr, built⟩
  have reaches : ReachesService ([visitors] ++ usersOf 0 "shop" :: [usersOf 1 "fixbug"])
      (usersOf 0 "shop") loginMethod sendRpcStr ↔
        ∀ earlier ∈ [visitors], earlier.descriptor.name ≠ (usersOf 0 "shop").descriptor.name :=
    reachesService_iff (by decide) (by decide) rfl List.mem_cons_self RpcHeader.codec_lawful built
  exact ⟨sendRpcStr, built, reaches.mpr (by decide)⟩

end Mprpc.Deployment
