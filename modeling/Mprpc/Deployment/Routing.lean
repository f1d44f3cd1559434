import Mprpc.Client.Nearest
import Mprpc.Client.RouteCache
import Mprpc.Deployment.Discovery
import Mprpc.Deployment.Naming
import Mprpc.Rpc.Sessions

/-!
# Calls go to providers of their method

Providers register in ZooKeeper's tree, come and go, and a client mirrors the
children of the paths that it calls.  The two sides share nothing but the tree,
and what the client's server shows may lag behind it.  Still every ring of the
client, in the cache or on its way there, has hosts only that registered the
method of its path, and the address that a call gets out of it is theirs.
-/

namespace Mprpc.Deployment

open Mprpc.Client
open Mprpc.Protobuf
open Mprpc.Rpc
open Mprpc.Transition
open Mprpc.Zookeeper

universe u

variable {Msg : Type u}

/-- A provider that is started: the services that `NotifyService` was called
for, and the address that it registers. -/
structure Host (Msg : Type u) where
  session : SessionId
  services : List (Service Msg)
  ip : IpText
  port : UInt16

namespace Host

def endpoint (host : Host Msg) : Endpoint where
  ip := host.ip.text
  port := host.port

def name (host : Host Msg) : Bytes :=
  hostName host.ip.text host.port

def enrolment (host : Host Msg) : Enrolment Msg where
  session := host.session
  provider := registerAll host.services
  host := host.name

/-- `OnMessage` finds the service and the method. -/
def Offers (host : Host Msg) (serviceName methodName : Bytes) : Prop :=
  ∃ info method, (registerAll host.services).serviceMap.lookup serviceName = some info ∧
    info.methodMap.lookup methodName = some method

end Host

/-- The names on a path, as ZooKeeper takes it apart. -/
def zkPath (path : Bytes) : Path :=
  (path.splitOn 47).tail

/-- The providers with their tree, and the routes of a client. -/
structure Cluster where
  providers : Sessions
  routes : RouteState

inductive ClusterAction
  | provider (action : SessionAction)
  | route (action : RouteAction)

namespace Cluster

def start (hosts : List (Host Msg)) : Cluster where
  providers := .start .empty (hosts.map Host.enrolment)
  routes := .start fun _ => []

/-- One step of either side. -/
def next (hash : Bytes → UInt32) (c : Cluster) : ClusterAction → Option Cluster
  | .provider action => (c.providers.next action).map fun providers =>
      { c with providers := providers }
  | .route action => (c.routes.next hash action).map fun routes => { c with routes := routes }

/-- The client's server shows children that are in the tree, now or when it
learned of them: not those that nobody created. -/
def Shows (c : Cluster) : ClusterAction → Prop
  | .route (.provide methodPath hosts) => ∀ host ∈ hosts,
      (c.providers.registration.tree.nodes (zkPath methodPath ++ [host])).isSome = true
  | _ => True

instance (c : Cluster) : (action : ClusterAction) → Decidable (c.Shows action)
  | .route (.provide _ hosts) => inferInstanceAs (Decidable (∀ host ∈ hosts, _))
  | .route (.call _) | .route (.lookup _) | .route (.fetch ..) | .route (.store _)
  | .route .sessionEvent | .route .deliver | .route (.refetch _) | .route .update
  | .provider _ => isTrue trivial

end Cluster

/-! ## Names in the tree -/

/-- A method path without further slashes has two names. -/
theorem zkPath_methodPath {call : StubCall Msg} (noSlash : 47 ∉ call.service.name)
    (noSlash' : 47 ∉ call.method.name) :
    zkPath call.methodPath = [call.service.name, call.method.name] := by
  have text : call.methodPath = [] ++ 47 :: (call.service.name ++ 47 :: call.method.name) := by
    have slash : Bytes.ofString "/" = [47] := rfl
    rw [StubCall.methodPath, slash]
    simp
  rw [zkPath, text, List.splitOn_append_cons_self_of_not_mem (by simp),
    List.splitOn_append_cons_self_of_not_mem noSlash, List.splitOn_eq_singleton noSlash']
  rfl

/-- What a provider iterates over when it registers is what it finds later. -/
theorem Host.offers_of_mem (host : Host Msg) {sp : Bytes × ServiceInfo Msg}
    (service : sp ∈ (registerAll host.services).serviceMap) {mp : Bytes × MethodDescriptor Msg}
    (method : mp ∈ sp.2.methodMap) : host.Offers sp.1 mp.1 := by
  have services : AssocMap.Functional (registerAll host.services).serviceMap := by
    have built : ∀ provider : RpcProvider Msg, AssocMap.Functional provider.serviceMap →
        AssocMap.Functional
          (host.services.foldl RpcProvider.notifyService provider).serviceMap := by
      induction host.services with
      | nil => exact fun _ functional => functional
      | cons service rest inductionHypothesis =>
          exact fun provider functional =>
            inductionHypothesis _ (functional.insertNew _ (serviceInfo service))
    exact built {} AssocMap.Functional.nil
  have found := services sp service
  have info : ∃ service, serviceInfo service = sp.2 := by
    rw [lookup_registerAll] at found
    rcases Option.map_eq_some_iff.mp found with ⟨service, -, same⟩
    exact ⟨service, same⟩
  rcases info with ⟨registered, same⟩
  have methods : AssocMap.Functional sp.2.methodMap := by
    rw [← same]
    exact AssocMap.Functional.nil.foldl_insertNew MethodDescriptor.name id _
  exact ⟨sp.2, mp.2, found, methods mp method⟩

/-- A node is the host node of a provider that offers the method. -/
def Provided (hosts : List (Host Msg)) (path : Path) : Prop :=
  ∀ {serviceName methodName name : Bytes}, path = [serviceName, methodName, name] →
    ∃ host ∈ hosts, host.name = name ∧ host.Offers serviceName methodName

theorem provided_of_mem {hosts : List (Host Msg)} {host : Host Msg} (member : host ∈ hosts)
    {call : CreateCall} (creates : call ∈ host.enrolment.createCalls) :
    Provided hosts call.path := by
  intro serviceName methodName name path
  rcases List.mem_flatMap.mp creates with ⟨sp, service, inside⟩
  rcases List.mem_cons.mp inside with rfl | inside
  · cases path
  · rcases List.mem_flatMap.mp inside with ⟨mp, method, inside⟩
    simp only [List.mem_cons, List.not_mem_nil, or_false] at inside
    rcases inside with rfl | rfl
    · cases path
    · cases path
      exact ⟨host, member, rfl, host.offers_of_mem service method⟩

/-- The nodes that are there and those that are still to be created. -/
structure Rightful (hosts : List (Host Msg)) (s : Sessions) : Prop where
  nodes : ∀ {path}, s.registration.tree.nodes path ≠ none → Provided hosts path
  todo : ∀ r ∈ s.registration.registrars, ∀ call ∈ r.pc.todo, Provided hosts call.path

namespace Rightful

variable {hosts : List (Host Msg)} {s t : Sessions}

theorem setPc (rightful : Rightful hosts s) {i : Nat} {r : Registrar} {pc : RegistrarPc}
    (runs : s.registration.registrars[i]? = some r)
    (fewer : ∀ call ∈ pc.todo, call ∈ r.pc.todo) :
    Rightful hosts { s with registration := s.registration.setPc i r pc } where
  nodes := rightful.nodes
  todo := by
    apply forall_mem_set rightful.todo
    intro call member
    exact rightful.todo r (List.mem_of_getElem? runs) call (fewer call member)

theorem of_stepped (rightful : Rightful hosts s) {action : SessionAction}
    (stepped : Sessions.Stepped s action t) : Rightful hosts t := by
  cases stepped with
  | answered stepped lives =>
      cases stepped with
      | found runs asks isThere =>
          apply rightful.setPc runs
          rw [asks]
          exact fun call member => List.mem_cons_of_mem _ member
      | missing runs asks isMissing =>
          apply rightful.setPc runs
          rw [asks]
          exact fun call member => member
      | @created i r call rest runs creates allowed =>
          have own : Provided hosts call.path := by
            apply rightful.todo r (List.mem_of_getElem? runs)
            rw [creates]
            exact List.mem_cons_self
          have grown : Rightful hosts { s with registration := { s.registration with
              tree := s.registration.tree.insert call.path (call.node r.session) allowed } } := by
            constructor
            · intro path isThere
              dsimp only at isThere
              rw [ZTree.insert_nodes] at isThere
              by_cases same : path = call.path
              · rw [same]
                exact own
              · rw [Function.update_of_ne same] at isThere
                exact rightful.nodes isThere
            · exact rightful.todo
          apply grown.setPc (i := i) runs
          rw [creates]
          exact fun call member => List.mem_cons_of_mem _ member
      | refused runs creates denied =>
          apply rightful.setPc runs
          intro call member
          cases member
  | @refused request r pc runs isExpired refuses =>
      apply rightful.setPc runs
      intro call member
      unfold RegistrarPc.refuse at refuses
      split at refuses
      · rename_i asks
        cases refuses
        rw [asks]
        exact List.mem_cons_of_mem _ member
      · cases refuses
        cases member
      · cases refuses
  | expired session =>
      constructor
      · intro path isThere
        apply rightful.nodes
        intro absent
        apply isThere
        change (s.registration.tree.nodes path).filter _ = none
        rw [absent]
        rfl
      · exact rightful.todo

end Rightful

/-! ## Hosts on the rings -/

/-- A ring of hosts that meet a condition. -/
def RingOf (hash : Bytes → UInt32) (fits : Bytes → Prop) (ch : ConsistentHash) : Prop :=
  ∃ hosts, (∀ host ∈ hosts, fits host) ∧ ch = ({} : ConsistentHash).addNodes hash hosts

/-- A ring leads to one of its hosts, or to none when it is empty. -/
theorem RingOf.getTargetHost {hash : Bytes → UInt32} {fits : Bytes → Prop} {ch : ConsistentHash}
    (ring : RingOf hash fits ch) (key : Bytes) :
    fits (ch.getTargetHost hash key) ∨ ch.getTargetHost hash key = [] := by
  rcases ring with ⟨hosts, fit, rfl⟩
  rw [ConsistentHash.getTargetHost_eq]
  cases next : (({} : ConsistentHash).addNodes hash hosts).ring.successor (hash key).toNat with
  | none => exact .inr rfl
  | some entry =>
      left
      have member := (OrderedMap.successor_eq_some_iff.mp next).1
      rcases ConsistentHash.mem_addNodes_iff.mp member with ⟨before, node, after, split, rfl, -⟩
      have inside : node ∈ ConsistentHash.virtualNodes hash 150 hosts := by
        change node ∈ ConsistentHash.virtualNodes hash ({} : ConsistentHash).virtualNodeNum hosts
        rw [split]
        simp
      rcases List.mem_flatMap.mp inside with ⟨host, listed, made⟩
      rcases List.mem_map.mp made with ⟨i, -, rfl⟩
      exact fit host listed

/-- Listings, rings in the cache, rings that are being written and rings that
calls go by. -/
structure Sourced (hash : Bytes → UInt32) (fits : Bytes → Bytes → Prop) (s : RouteState) :
    Prop where
  children : ∀ {path host}, host ∈ s.children path → fits path host
  cached : ∀ {path ch}, s.routeCache.lookup path = some ch → RingOf hash (fits path) ch
  updating : ∀ {path ch}, s.watcher = some (.updating path ch) → RingOf hash (fits path) ch
  called : ∀ caller ∈ s.callers, ∀ {ch}, caller.pc = .storing ch ∨ caller.pc = .done (.ok ch) →
    RingOf hash (fits caller.methodPath) ch

namespace Sourced

variable {hash : Bytes → UInt32} {fits : Bytes → Bytes → Prop} {s t : RouteState}

theorem currentRing (sourced : Sourced hash fits s) (path : Bytes) :
    RingOf hash (fits path) (s.currentRing hash path) :=
  ⟨s.children path, fun _ member => sourced.children member, rfl⟩

theorem watch (sourced : Sourced hash fits s) (path : Bytes) :
    Sourced hash fits (s.watch path) :=
  ⟨sourced.children, sourced.cached, sourced.updating, sourced.called⟩

theorem setCaller (sourced : Sourced hash fits s) (i : Nat) {caller : RouteCaller}
    (self : ∀ {ch}, caller.pc = .storing ch ∨ caller.pc = .done (.ok ch) →
      RingOf hash (fits caller.methodPath) ch) : Sourced hash fits (s.setCaller i caller) :=
  ⟨sourced.children, sourced.cached, sourced.updating,
    forall_mem_set sourced.called fun {_} => self⟩

theorem setWatcher (sourced : Sourced hash fits s) {watcher : Option Watcher}
    (updating : ∀ {path ch}, watcher = some (.updating path ch) → RingOf hash (fits path) ch) :
    Sourced hash fits (s.setWatcher watcher) :=
  ⟨sourced.children, sourced.cached, updating, sourced.called⟩

theorem write (sourced : Sourced hash fits s) {path : Bytes} {ch : ConsistentHash}
    (ring : RingOf hash (fits path) ch) : Sourced hash fits (s.write path ch) := by
  refine ⟨sourced.children, ?_, sourced.updating, sourced.called⟩
  intro other found cached
  change (s.routeCache.set path ch).lookup other = some found at cached
  rw [AssocMap.lookup_set] at cached
  split at cached
  · rename_i same
    cases cached
    rw [same]
    exact ring
  · exact sourced.cached cached

/-- A `CallMethod` looks its path up. -/
theorem lookedUp (sourced : Sourced hash fits s) (i : Nat) (caller : RouteCaller) :
    Sourced hash fits (s.lookedUp i caller) := by
  unfold RouteState.lookedUp
  cases cached : s.routeCache.lookup caller.methodPath with
  | some ch =>
      apply sourced.setCaller
      rintro other (storing | done)
      · cases storing
      · cases done
        exact sourced.cached cached
  | none =>
      apply sourced.setCaller
      rintro other (storing | done)
      · cases storing
      · cases done

theorem of_next (sourced : Sourced hash fits s) {action : RouteAction}
    (provided : ∀ {path hosts}, action = .provide path hosts → ∀ host ∈ hosts, fits path host)
    (step : s.next hash action = some t) : Sourced hash fits t := by
  have failed : ∀ {path reason ch}, (⟨path, .done (.error reason)⟩ : RouteCaller).pc =
      .storing ch ∨ (⟨path, .done (.error reason)⟩ : RouteCaller).pc = .done (.ok ch) →
        RingOf hash (fits path) ch := by
    rintro path reason ch (storing | done)
    · cases storing
    · cases done
  by_cases lookup : ∃ i, action = .lookup i
  · rcases lookup with ⟨i, rfl⟩
    rcases Option.bind_eq_some_iff.mp step with ⟨caller, found, step⟩
    split at step
    · cases step
      exact sourced.lookedUp i caller
    · cases step
  · cases RouteState.stepped_of_next step with
    | called methodPath =>
        refine ⟨sourced.children, sourced.cached, sourced.updating, ?_⟩
        intro caller member
        rcases List.mem_append.mp member with before | isNew
        · exact sourced.called caller before
        · rw [List.mem_singleton.mp isNew]
          rintro ch (storing | done)
          · cases storing
          · cases done
    | hit ch found => exact absurd ⟨_, rfl⟩ lookup
    | missed found => exact absurd ⟨_, rfl⟩ lookup
    | fetched found =>
        apply (sourced.watch _).setCaller
        rintro ch (storing | done)
        · cases storing
          exact sourced.currentRing _
        · cases done
    | fetchedNone reason found => exact (sourced.watch _).setCaller _ failed
    | fetchFailed reason found => exact sourced.setCaller _ failed
    | stored found =>
        have ring := sourced.called _ (List.mem_of_getElem? found) (.inl rfl)
        apply (sourced.write ring).setCaller
        rintro ch (storing | done)
        · cases storing
        · cases done
          exact ring
    | provided methodPath hosts =>
        refine ⟨?_, sourced.cached, sourced.updating, sourced.called⟩
        intro path host member
        by_cases same : path = methodPath
        · subst same
          apply provided rfl host
          change host ∈ Function.update s.children path hosts path at member
          rwa [Function.update_self] at member
        · apply sourced.children
          change host ∈ Function.update s.children methodPath hosts path at member
          rwa [Function.update_of_ne same] at member
    | sessionEvent => exact ⟨sourced.children, sourced.cached, sourced.updating, sourced.called⟩
    | delivered queued idle => exact ⟨sourced.children, sourced.cached, nofun, sourced.called⟩
    | ignored queued => exact ⟨sourced.children, sourced.cached, sourced.updating, sourced.called⟩
    | refetched fetching =>
        apply (sourced.watch _).setWatcher
        intro path ch updating
        cases updating
        exact sourced.currentRing _
    | refetchFailed fetching => exact sourced.setWatcher nofun
    | updated updating => exact (sourced.write (sourced.updating updating)).setWatcher nofun

end Sourced

/-! ## Both sides -/

/-- A host name that some provider of the path's method registered. -/
def Registered (hosts : List (Host Msg)) (methodPath name : Bytes) : Prop :=
  Provided hosts (zkPath methodPath ++ [name])

theorem sourced_of_reachable {hash : Bytes → UInt32} {hosts : List (Host Msg)} {c : Cluster}
    (reached : Reachable (Cluster.next hash) Cluster.Shows (.start hosts) c) :
    Sourced hash (Registered hosts) c.routes := by
  have kept : Rightful hosts c.providers ∧ Sourced hash (Registered hosts) c.routes := by
    apply reached.invariant
    · constructor
      · constructor
        · intro path isThere serviceName methodName name same
          subst same
          exact absurd rfl isThere
        · intro r member call todo
          rcases List.mem_map.mp member with ⟨_, enrolled, rfl⟩
          rcases List.mem_map.mp enrolled with ⟨host, started, rfl⟩
          exact provided_of_mem started todo
      · constructor
        · intro path host member
          cases member
        · intro path ch found
          cases found
        · nofun
        · intro caller member
          cases member
    · rintro state action successor ⟨rightful, sourced⟩ shows step
      cases action with
      | provider action =>
          rcases Option.map_eq_some_iff.mp step with ⟨providers, moved, rfl⟩
          exact ⟨rightful.of_stepped (Sessions.stepped_of_next moved), sourced⟩
      | route action =>
          rcases Option.map_eq_some_iff.mp step with ⟨routes, moved, rfl⟩
          refine ⟨rightful, sourced.of_next ?_ moved⟩
          rintro path listed rfl host member
          exact rightful.nodes (Option.isSome_iff_ne_none.mp (shows host member))
  exact kept.2

/-- A ring that a call goes by leads to a provider of its method. -/
theorem Sourced.host_of_routed {hash : Bytes → UInt32} {hosts : List (Host Msg)}
    {routes : RouteState} (sourced : Sourced hash (Registered hosts) routes) {i : Nat}
    {call : StubCall Msg} {ch : ConsistentHash} {endpoint : Endpoint}
    (noSlash : 47 ∉ call.service.name ∧ 47 ∉ call.method.name)
    (routed : routes.callers[i]? = some ⟨call.methodPath, .done (.ok ch)⟩)
    (parsed : parseAddress call.methodPath (ch.getTargetHost hash call.hashKey) = .ok endpoint) :
    ∃ host ∈ hosts, host.endpoint = endpoint ∧ host.Offers call.service.name call.method.name := by
  have ring := sourced.called _ (List.mem_of_getElem? routed) (.inr rfl)
  rcases ring.getTargetHost call.hashKey with registered | none
  · have path := zkPath_methodPath noSlash.1 noSlash.2
    rcases registered (congrArg (· ++ [_]) path) with ⟨host, member, named, offers⟩
    refine ⟨host, member, ?_, offers⟩
    rw [← named, Host.name, host.ip.parseAddress_hostName] at parsed
    exact Except.ok.inj parsed
  · rw [none] at parsed
    cases parsed

/-- In every run of providers and a client, the address that a routed call
connects to is that of a provider whose `OnMessage` finds the call's service and
method. -/
theorem routed_to_provider {hash : Bytes → UInt32} {hosts : List (Host Msg)} {c : Cluster}
    (reached : Reachable (Cluster.next hash) Cluster.Shows (.start hosts) c)
    {i : Nat} {call : StubCall Msg} {ch : ConsistentHash} {endpoint : Endpoint}
    (noSlash : 47 ∉ call.service.name ∧ 47 ∉ call.method.name)
    (routed : c.routes.callers[i]? = some ⟨call.methodPath, .done (.ok ch)⟩)
    (parsed : parseAddress call.methodPath (ch.getTargetHost hash call.hashKey) = .ok endpoint) :
    ∃ host ∈ hosts, host.endpoint = endpoint ∧ host.Offers call.service.name call.method.name :=
  (sourced_of_reachable reached).host_of_routed noSlash routed parsed

/-- The ring that a `CallMethod` goes by. -/
def routeOf : RoutePc → Option ConsistentHash
  | .done (.ok ch) => some ch
  | _ => none

theorem routeOf_eq_some_iff {pc : RoutePc} {ch : ConsistentHash} :
    routeOf pc = some ch ↔ pc = .done (.ok ch) := by
  unfold routeOf
  split
  · simp
  · rename_i other
    exact ⟨nofun, fun same => absurd same (other ch)⟩

/-- A provider of the example service. -/
def userHost : Host RpcHeader where
  session := 1
  services := [usersOf 0 "fixbug"]
  ip := localHost
  port := 8000

/-- The provider registers, and a login finds it. -/
theorem login_routed :
    ∃ c, Reachable (Cluster.next fun _ => 0) Cluster.Shows (.start [userHost]) c ∧
      ∃ host ∈ [userHost], host.endpoint = ⟨Bytes.ofString "127.0.0.1", 8000⟩ ∧
        host.Offers (loginCall (usersOf 0 "fixbug")).service.name
          (loginCall (usersOf 0 "fixbug")).method.name := by
  have run : ∃ c, Reachable (Cluster.next fun _ => 0) Cluster.Shows (.start [userHost]) c ∧
      ∃ caller ∈ c.routes.callers[0]?,
        caller.methodPath = (loginCall (usersOf 0 "fixbug")).methodPath ∧
          ∃ ch ∈ routeOf caller.pc,
            parseAddress (loginCall (usersOf 0 "fixbug")).methodPath
              (ch.getTargetHost (fun _ => 0) (loginCall (usersOf 0 "fixbug")).hashKey) =
                .ok ⟨Bytes.ofString "127.0.0.1", 8000⟩ := by
    apply exists_reachable [.provider (.request (.zooExists 0)),
      .provider (.request (.zooCreate 0)), .provider (.request (.zooExists 0)),
      .provider (.request (.zooCreate 0)), .provider (.request (.zooExists 0)),
      .provider (.request (.zooCreate 0)),
      .route (.call (loginCall (usersOf 0 "fixbug")).methodPath), .route (.lookup 0),
      .route (.provide (loginCall (usersOf 0 "fixbug")).methodPath
        [Bytes.ofString "127.0.0.1:8000"]),
      .route (.fetch 0 true), .route (.store 0)]
    · decide +kernel
    · decide +kernel
  rcases run with ⟨c, reached, ⟨methodPath, pc⟩, found, rfl, ch, ring, parsed⟩
  have routed : pc = .done (.ok ch) := routeOf_eq_some_iff.mp ring
  rw [routed] at found
  exact ⟨c, reached, routed_to_provider reached (by decide +kernel) found parsed⟩

end Mprpc.Deployment
