import Mprpc.Deployment.EndToEnd
import Mprpc.Deployment.Routing

/-!
# From `CallMethod` to the answer

All the parts together: providers that register in ZooKeeper, a client that looks its
routes up there and caches them, and the network between the client's tasks and the
servers of the providers.  `CallMethod` joins the two: once it has a ring it starts a
task with the address that the ring leads to.  So the response that a call ends with
is made by a provider of its method out of its own request, and nobody has to know
beforehand who that is.
-/

namespace Mprpc.Deployment

open Mprpc.Client
open Mprpc.Example
open Mprpc.Net
open Mprpc.Protobuf
open Mprpc.Rpc
open Mprpc.Transition

universe u

variable {Msg : Type u}

/-- The whole deployment.  `stubs` lists the calls whose `CallMethod` has got to its
section 4, in the order of the route's callers, and `tasks` the one that each task of
the client belongs to. -/
structure World (Msg : Type u) where
  cluster : Cluster
  system : System Msg
  stubs : List (StubCall Msg) := []
  tasks : List Nat := []

inductive WorldAction (Msg : Type u)
  | cluster (action : ClusterAction)
  | system (action : SystemAction Msg)
  /-- sections 1 to 3 of `CallMethod` -/
  | callMethod (stub : StubCall Msg)
  /-- `CallMethod` behind section 4 -/
  | launch (i : Nat)

namespace World

/-- The address on the ring, and the task with it. -/
def launched (hash : Bytes → UInt32) (servers : Servers Msg) (w : World Msg) (i : Nat)
    (stub : StubCall Msg) (sendRpcStr : Bytes) (ch : ConsistentHash) : Option (World Msg) :=
  match parseAddress stub.methodPath (ch.getTargetHost hash stub.hashKey) with
  | .error _ => some w
  | .ok endpoint =>
      (w.system.next servers (.client (.spawn endpoint sendRpcStr stub.method.output))).map
        fun system => { w with system := system, tasks := w.tasks ++ [i] }

/-- One step.  Routes are asked for and tasks are started by `CallMethod` only, and each
`CallMethod` starts one task at most. -/
def next (hash : Bytes → UInt32) (servers : Servers Msg) (w : World Msg) :
    WorldAction Msg → Option (World Msg)
  | .cluster (.route (.call _)) => none
  | .cluster action => (w.cluster.next hash action).map fun cluster =>
      { w with cluster := cluster }
  | .system (.client (.spawn ..)) => none
  | .system action => (w.system.next servers action).map fun system =>
      { w with system := system }
  | .callMethod stub =>
      match stub.marshal with
      | .error _ => some w
      | .ok _ =>
          (w.cluster.next hash (.route (.call stub.methodPath))).map fun cluster =>
            { w with cluster := cluster, stubs := w.stubs ++ [stub] }
  | .launch i =>
      (w.stubs[i]?).bind fun stub =>
        (w.cluster.routes.callers[i]?).bind fun caller =>
          match caller.pc, stub.marshal with
          | .done (.ok ch), .ok sendRpcStr =>
              if i ∈ w.tasks then none else w.launched hash servers i stub sendRpcStr ch
          | _, _ => none

/-- The deployment before the first provider has registered. -/
def start (hosts : List (Host Msg)) (maxConnections maxIdleTime : Int) (serverFd pipeRead : Fd)
    (inUse : Fd → Bool) : World Msg where
  cluster := .start hosts
  system := .start maxConnections maxIdleTime serverFd pipeRead inUse

/-- ZooKeeper shows children that are in the tree, and requests and answers cross the
network whole. -/
def Admits (servers : Servers Msg) (w : World Msg) : WorldAction Msg → Prop
  | .cluster action => w.cluster.Shows action
  | .system action => w.system.Whole servers action
  | _ => True

instance (servers : Servers Msg) (w : World Msg) :
    (action : WorldAction Msg) → Decidable (w.Admits servers action)
  | .cluster action => inferInstanceAs (Decidable (w.cluster.Shows action))
  | .system action => inferInstanceAs (Decidable (w.system.Whole servers action))
  | .callMethod _ | .launch _ => isTrue trivial

end World

/-! ## What each task was started for -/

/-- The names of a method have no slash. -/
def PlainNames (stub : StubCall Msg) : Prop :=
  47 ∉ stub.service.name ∧ 47 ∉ stub.method.name

instance (stub : StubCall Msg) : Decidable (PlainNames stub) :=
  inferInstanceAs (Decidable (_ ∧ _))

/-- A task carries the request of its stub, to a provider of the stub's method. -/
structure StartedFor (hosts : List (Host Msg)) (stub : StubCall Msg) (task : CapturedTask Msg) :
    Prop where
  built : stub.marshal = .ok task.sendRpcStr
  output : task.output = stub.method.output
  host : PlainNames stub → ∃ host ∈ hosts, host.endpoint = task.endpoint ∧
    host.Offers stub.service.name stub.method.name

/-- The ring that the `i`-th `CallMethod` got leads to this address. -/
def Cluster.LeadsTo (hash : Bytes → UInt32) (c : Cluster) (i : Nat) (stub : StubCall Msg)
    (endpoint : Endpoint) : Prop :=
  ∃ ch, c.routes.callers[i]? = some ⟨stub.methodPath, .done (.ok ch)⟩ ∧
    parseAddress stub.methodPath (ch.getTargetHost hash stub.hashKey) = .ok endpoint

theorem Cluster.LeadsTo.of_next {hash : Bytes → UInt32} {c d : Cluster} {i : Nat}
    {stub : StubCall Msg} {endpoint : Endpoint} (leads : c.LeadsTo hash i stub endpoint)
    {action : ClusterAction} (step : c.next hash action = some d) :
    d.LeadsTo hash i stub endpoint := by
  obtain ⟨ch, routed, parsed⟩ := leads
  refine ⟨ch, ?_, parsed⟩
  cases action with
  | provider action =>
      obtain ⟨providers, -, rfl⟩ := Option.map_eq_some_iff.mp step
      exact routed
  | route action =>
      obtain ⟨routes, moved, rfl⟩ := Option.map_eq_some_iff.mp step
      exact RouteState.done_of_stepped (RouteState.stepped_of_next moved) routed

/-- The tasks that an action starts. -/
def SystemAction.launches : SystemAction Msg → List (CapturedTask Msg)
  | .client action => action.launches
  | _ => []

theorem SystemAction.launches_eq_nil {action : SystemAction Msg}
    (own : ∀ endpoint sendRpcStr output,
      action ≠ .client (.spawn endpoint sendRpcStr output)) : action.launches = [] := by
  cases action with
  | client action =>
      cases action with
      | spawn endpoint sendRpcStr output => exact absurd rfl (own _ _ _)
      | _ => rfl
  | _ => rfl

/-- The method paths that an action asks for. -/
def ClusterAction.calls : ClusterAction → List Bytes
  | .route action => action.calls
  | .provider _ => []

theorem ClusterAction.calls_eq_nil {action : ClusterAction}
    (own : ∀ path, action ≠ .route (.call path)) : action.calls = [] := by
  cases action with
  | provider action => rfl
  | route action =>
      cases action with
      | call path => exact absurd rfl (own path)
      | _ => rfl

namespace System

/-- What the tasks of the client captured, after a step of the system. -/
theorem tasks_of_next {servers : Servers Msg} {s t : System Msg} {action : SystemAction Msg}
    (step : s.next servers action = some t) :
    t.client.calls.map Call.task = s.client.calls.map Call.task ++ action.launches := by
  cases action with
  | client action =>
      have own : ∀ fd bytes final, action ≠ .deliver fd bytes final := by
        rintro fd bytes final rfl
        cases step
      rw [next_client own] at step
      obtain ⟨client, moved, rfl⟩ := Option.map_eq_some_iff.mp step
      exact ClientState.tasks_of_stepped (ClientState.stepped_of_next moved)
  | server endpoint action =>
      obtain ⟨server, -, step⟩ := Option.bind_eq_some_iff.mp step
      split at step
      · cases step
        exact (List.append_nil _).symm
      · cases step
  | link fd connfd =>
      obtain ⟨wire, -, step⟩ := Option.bind_eq_some_iff.mp step
      split at step
      · cases step
        exact (List.append_nil _).symm
      · cases step
  | deliver fd count =>
      obtain ⟨wire, -, step⟩ := Option.bind_eq_some_iff.mp step
      split at step
      · obtain ⟨client, moved, rfl⟩ := Option.map_eq_some_iff.mp step
        exact ClientState.tasks_of_stepped (ClientState.stepped_of_next moved)
      · cases step

end System

namespace World

variable {hash : Bytes → UInt32} {servers : Servers Msg} {hosts : List (Host Msg)}
  {maxConnections maxIdleTime : Int} {serverFd pipeRead : Fd} {inUse : Fd → Bool}
  {w v : World Msg}

theorem next_cluster {action : ClusterAction} (own : ∀ path, action ≠ .route (.call path)) :
    w.next hash servers (.cluster action) =
      (w.cluster.next hash action).map fun cluster => { w with cluster := cluster } := by
  cases action with
  | provider action => rfl
  | route action =>
      cases action with
      | call path => exact absurd rfl (own path)
      | _ => rfl

theorem next_system {action : SystemAction Msg}
    (own : ∀ endpoint sendRpcStr output, action ≠ .client (.spawn endpoint sendRpcStr output)) :
    w.next hash servers (.system action) =
      (w.system.next servers action).map fun system => { w with system := system } := by
  cases action with
  | client action =>
      cases action with
      | spawn endpoint sendRpcStr output => exact absurd rfl (own _ _ _)
      | _ => rfl
  | _ => rfl

/-- Each part runs as it does alone, the stubs are those of the route's callers, and the
tasks were started for stubs, with the addresses that their rings lead to. -/
structure Coherent (hash : Bytes → UInt32) (servers : Servers Msg) (hosts : List (Host Msg))
    (maxConnections maxIdleTime : Int) (serverFd pipeRead : Fd) (inUse : Fd → Bool)
    (w : World Msg) : Prop where
  cluster : Reachable (Cluster.next hash) Cluster.Shows (.start hosts) w.cluster
  system : Reachable (System.next servers) (System.Whole servers)
    (.start maxConnections maxIdleTime serverFd pipeRead inUse) w.system
  callers : w.cluster.routes.callers.map RouteCaller.methodPath =
    w.stubs.map StubCall.methodPath
  tasks : List.Forall₂ (fun i task => ∃ stub, w.stubs[i]? = some stub ∧
    w.cluster.LeadsTo hash i stub task.endpoint ∧ StartedFor hosts stub task) w.tasks
      (w.system.client.calls.map Call.task)

/-- The caller of the route at a stub's place asks for the stub's path. -/
theorem Coherent.caller_eq
    (coherent : w.Coherent hash servers hosts maxConnections maxIdleTime serverFd pipeRead inUse)
    {i : Nat} {stub : StubCall Msg} {caller : RouteCaller} (found : w.stubs[i]? = some stub)
    (asks : w.cluster.routes.callers[i]? = some caller) :
    caller.methodPath = stub.methodPath := by
  have same : (w.cluster.routes.callers.map RouteCaller.methodPath)[i]? =
      (w.stubs.map StubCall.methodPath)[i]? := by
    rw [coherent.callers]
  rw [List.getElem?_map, List.getElem?_map, found, asks] at same
  exact Option.some.inj same

theorem Coherent.cluster_step
    (coherent : w.Coherent hash servers hosts maxConnections maxIdleTime serverFd pipeRead inUse)
    {action : ClusterAction} {cluster : Cluster} {new : List (StubCall Msg)}
    (shows : w.cluster.Shows action) (step : w.cluster.next hash action = some cluster)
    (calls : cluster.routes.callers.map RouteCaller.methodPath =
      w.cluster.routes.callers.map RouteCaller.methodPath ++ new.map StubCall.methodPath) :
    { w with cluster := cluster, stubs := w.stubs ++ new }.Coherent hash servers hosts
      maxConnections maxIdleTime serverFd pipeRead inUse := by
  constructor
  · exact .tail coherent.cluster shows step
  · exact coherent.system
  · rw [calls, coherent.callers, List.map_append]
  · apply coherent.tasks.imp
    rintro i task ⟨stub, found, leads, started⟩
    have bound := (List.getElem?_eq_some_iff.mp found).1
    exact ⟨stub, (List.getElem?_append_left bound).trans found, leads.of_next step, started⟩

/-- What the callers of the route ask for, after a step of the cluster. -/
theorem methodPaths_of_next {c d : Cluster} {action : ClusterAction}
    (step : c.next hash action = some d) :
    d.routes.callers.map RouteCaller.methodPath =
      c.routes.callers.map RouteCaller.methodPath ++ action.calls := by
  cases action with
  | provider action =>
      obtain ⟨providers, -, rfl⟩ := Option.map_eq_some_iff.mp step
      exact (List.append_nil _).symm
  | route action =>
      obtain ⟨routes, moved, rfl⟩ := Option.map_eq_some_iff.mp step
      exact RouteState.methodPaths_of_stepped (RouteState.stepped_of_next moved)

theorem Coherent.system_step
    (coherent : w.Coherent hash servers hosts maxConnections maxIdleTime serverFd pipeRead inUse)
    {action : SystemAction Msg} {system : System Msg}
    (own : ∀ endpoint sendRpcStr output, action ≠ .client (.spawn endpoint sendRpcStr output))
    (whole : w.system.Whole servers action) (step : w.system.next servers action = some system) :
    { w with system := system }.Coherent hash servers hosts maxConnections maxIdleTime serverFd
      pipeRead inUse := by
  constructor
  · exact coherent.cluster
  · exact .tail coherent.system whole step
  · exact coherent.callers
  · rw [System.tasks_of_next step, SystemAction.launches_eq_nil own, List.append_nil]
    exact coherent.tasks

theorem Coherent.launch_step
    (coherent : w.Coherent hash servers hosts maxConnections maxIdleTime serverFd pipeRead inUse)
    {i : Nat} {stub : StubCall Msg} {sendRpcStr : Bytes} {ch : ConsistentHash}
    {endpoint : Endpoint} {system : System Msg} (found : w.stubs[i]? = some stub)
    (routed : w.cluster.routes.callers[i]? = some ⟨stub.methodPath, .done (.ok ch)⟩)
    (built : stub.marshal = .ok sendRpcStr)
    (parsed : parseAddress stub.methodPath (ch.getTargetHost hash stub.hashKey) = .ok endpoint)
    (step : w.system.next servers (.client (.spawn endpoint sendRpcStr stub.method.output)) =
      some system) :
    { w with system := system, tasks := w.tasks ++ [i] }.Coherent hash servers hosts
      maxConnections maxIdleTime serverFd pipeRead inUse := by
  have whole : w.system.Whole servers
      (.client (.spawn endpoint sendRpcStr stub.method.output)) := trivial
  constructor
  · exact coherent.cluster
  · exact .tail coherent.system whole step
  · exact coherent.callers
  · rw [System.tasks_of_next step]
    have started : StartedFor hosts stub ⟨endpoint, sendRpcStr, stub.method.output⟩ :=
      ⟨built, rfl, fun plain =>
        (sourced_of_reachable coherent.cluster).host_of_routed plain routed parsed⟩
    exact List.rel_append coherent.tasks
      (.cons ⟨stub, found, ⟨ch, routed, parsed⟩, started⟩ .nil)

theorem Coherent.of_next
    (coherent : w.Coherent hash servers hosts maxConnections maxIdleTime serverFd pipeRead inUse)
    {action : WorldAction Msg} (admits : w.Admits servers action)
    (step : w.next hash servers action = some v) :
    v.Coherent hash servers hosts maxConnections maxIdleTime serverFd pipeRead inUse := by
  cases action with
  | cluster action =>
      have own : ∀ path, action ≠ .route (.call path) := by
        rintro path rfl
        cases step
      rw [next_cluster own] at step
      obtain ⟨cluster, moved, rfl⟩ := Option.map_eq_some_iff.mp step
      have calls := methodPaths_of_next moved
      rw [ClusterAction.calls_eq_nil own] at calls
      have stepped : { w with cluster := cluster, stubs := w.stubs ++ [] }.Coherent hash servers
          hosts maxConnections maxIdleTime serverFd pipeRead inUse :=
        coherent.cluster_step admits moved calls
      rw [List.append_nil] at stepped
      exact stepped
  | system action =>
      have own : ∀ endpoint sendRpcStr output,
          action ≠ .client (.spawn endpoint sendRpcStr output) := by
        rintro endpoint sendRpcStr output rfl
        cases step
      rw [next_system own] at step
      obtain ⟨system, moved, rfl⟩ := Option.map_eq_some_iff.mp step
      exact coherent.system_step own admits moved
  | callMethod stub =>
      simp only [next] at step
      split at step
      · cases step
        exact coherent
      · obtain ⟨cluster, moved, rfl⟩ := Option.map_eq_some_iff.mp step
        have shows : w.cluster.Shows (.route (.call stub.methodPath)) := trivial
        exact coherent.cluster_step shows moved (methodPaths_of_next moved)
  | launch i =>
      obtain ⟨stub, found, step⟩ := Option.bind_eq_some_iff.mp step
      obtain ⟨caller, asks, step⟩ := Option.bind_eq_some_iff.mp step
      split at step
      · rename_i ch sendRpcStr done built
        split at step
        · cases step
        · unfold launched at step
          split at step
          · cases step
            exact coherent
          · rename_i endpoint parsed
            obtain ⟨system, moved, rfl⟩ := Option.map_eq_some_iff.mp step
            have same := coherent.caller_eq found asks
            have routed : w.cluster.routes.callers[i]? =
                some ⟨stub.methodPath, .done (.ok ch)⟩ := by
              rw [asks, ← same, ← done]
            exact coherent.launch_step found routed built parsed moved
      · cases step

theorem coherent_of_reachable
    (reached : Reachable (next hash servers) (Admits servers)
      (start hosts maxConnections maxIdleTime serverFd pipeRead inUse) w) :
    w.Coherent hash servers hosts maxConnections maxIdleTime serverFd pipeRead inUse := by
  apply reached.invariant
  · exact ⟨.refl, .refl, rfl, .nil⟩
  · exact fun _ _ _ coherent admits step => coherent.of_next admits step

/-- What a stub and the providers have in common, as both are made from one interface. -/
structure Interface (hosts : List (Host Msg)) (stub : StubCall Msg) : Prop where
  plain : PlainNames stub
  lawful : stub.method.input.Lawful ∧ stub.method.output.Lawful
  agrees : ∀ host ∈ hosts, ∀ {info : ServiceInfo Msg} {method : MethodDescriptor Msg},
    (registerAll host.services).serviceMap.lookup stub.service.name = some info →
      info.methodMap.lookup stub.method.name = some method → method = stub.method

/-- In every run of the whole deployment, a call that does not fail on its socket ends
with the response that the service of some provider makes of the request of its own
`CallMethod`; the client's ring has led it to that provider. -/
theorem answered_by_host
    (reached : Reachable (next hash servers) (Admits servers)
      (start hosts maxConnections maxIdleTime serverFd pipeRead inUse) w)
    (deployed : ∀ host ∈ hosts, servers.provider host.endpoint = registerAll host.services)
    (interface : ∀ stub ∈ w.stubs, Interface hosts stub)
    {k : Nat} {call : Call Msg} {exit : TaskExit Msg}
    (found : w.system.client.calls[k]? = some call) (leaves : call.pc.exit? = some exit)
    (released : exit.disposal = some .release) :
    ∃ i stub, w.tasks[k]? = some i ∧ w.stubs[i]? = some stub ∧
      w.cluster.LeadsTo hash i stub call.endpoint ∧
      ∃ host ∈ hosts, host.endpoint = call.endpoint ∧ ∃ info target,
        (registerAll host.services).serviceMap.lookup stub.service.name = some info ∧
          exit = .answered (servers.service host.endpoint
            ⟨info.service, stub.method, target, stub.request⟩) := by
  have coherent := coherent_of_reachable reached
  have captured : (w.system.client.calls.map Call.task)[k]? = some call.task := by
    rw [List.getElem?_map, found]
    rfl
  obtain ⟨bound, isTask⟩ := List.getElem?_eq_some_iff.mp captured
  have sameLength := coherent.tasks.length_eq
  have started := coherent.tasks.get (sameLength ▸ bound) bound
  rw [List.get_eq_getElem, List.get_eq_getElem, isTask] at started
  obtain ⟨stub, isStub, leads, started⟩ := started
  have shared := interface stub (List.mem_of_getElem? isStub)
  obtain ⟨host, member, address, info, method, service, offered⟩ := started.host shared.plain
  obtain rfl := shared.agrees host member service offered
  have provides : Provides (servers.provider call.endpoint) info stub := by
    have same : servers.provider call.endpoint = registerAll host.services :=
      (congrArg servers.provider address.symm).trans (deployed host member)
    rw [same]
    exact ⟨service, offered⟩
  have ends := (ClientState.answering_of_served
    (System.sound_of_reachable coherent.system).client).ended found leaves
  obtain ⟨target, answered⟩ := answered_of_endsBy started.built started.output shared.lawful
    provides ends released
  refine ⟨_, stub, List.getElem?_eq_getElem _, isStub, leads, host, member, address, info,
    target, service, ?_⟩
  rw [answered, address]
  rfl

/-- Two providers of the user service. -/
def loginHosts : List (Host UserMessage) :=
  [{ session := 1, services := [UserService.registered 0], ip := localHost, port := 8000 },
    { session := 2, services := [UserService.registered 1], ip := localHost, port := 8001 }]

/-- Each of them runs what it registered. -/
def loginServers : Servers UserMessage where
  provider := fun endpoint =>
    registerAll [UserService.registered (if endpoint.port = 8000 then 0 else 1)]
  service := fun _ => UserService.run

def loginStub : StubCall UserMessage :=
  UserServiceRpc.stubLogin { name := Bytes.ofString "a", pwd := Bytes.ofString "1" }

/-- Both providers register, a login finds them, and the second one answers it. -/
def routedLogin : List (WorldAction UserMessage) :=
  [.callMethod loginStub, .cluster (.route (.lookup 0)),
    .cluster (.provider (.request (.zooExists 0))), .cluster (.provider (.request (.zooCreate 0))),
    .cluster (.provider (.request (.zooExists 1))), .cluster (.provider (.request (.zooExists 0))),
    .cluster (.provider (.request (.zooCreate 0))), .cluster (.provider (.request (.zooExists 1))),
    .cluster (.provider (.request (.zooExists 1))), .cluster (.provider (.request (.zooExists 0))),
    .cluster (.provider (.request (.zooCreate 0))), .cluster (.provider (.request (.zooCreate 1))),
    .cluster (.route (.provide loginStub.methodPath
      [Bytes.ofString "127.0.0.1:8000", Bytes.ofString "127.0.0.1:8001"])),
    .cluster (.route (.fetch 0 true)), .cluster (.route (.store 0)), .launch 0,
    .system (.client (.enter 0)), .system (.client (.connected 0 7)),
    .system (.client (.send 0 35 [])),
    .system (.server otherEndpoint (.wait [(3, Reactor.readableFlags)])),
    .system (.server otherEndpoint (.handle { accepts := [(5, 0)] })),
    .system (.server otherEndpoint .finish), .system (.link 7 5),
    .system (.server otherEndpoint (.wait [(5, Reactor.readableFlags)])),
    .system (.server otherEndpoint (.handle {
      recvs := [.received (loginRequest (Bytes.ofString "a")), .error EAGAIN]
      sent := .sent 4 })),
    .system (.deliver 7 4), .system (.client (.recv 0 4))]

theorem loginInterface : Interface loginHosts loginStub where
  plain := by decide
  lawful := UserServiceRpc.login_lawful
  agrees := by
    intro host member info method service offered
    have same : info.methodMap = [(UserServiceRpc.login.name, UserServiceRpc.login)] := by
      rcases List.mem_cons.mp member with rfl | member
      · cases service
        rfl
      · cases List.mem_singleton.mp member
        cases service
        rfl
    rw [same] at offered
    cases offered
    rfl

set_option maxRecDepth 8000 in
theorem answered_by_host_login :
    ∃ (w : World UserMessage) (call : Call UserMessage),
      Reachable (next (fun _ => 0) loginServers) (Admits loginServers)
        (start loginHosts 5000 60 3 4 fun _ => false) w ∧
      (w.system.client.calls[0]? = some call ∧
        call.pc.exit? = some (.answered (.loginResponse (UserService.respond {})))) ∧
      ∃ i stub, w.tasks[0]? = some i ∧ w.stubs[i]? = some stub ∧
        w.cluster.LeadsTo (fun _ => 0) i stub call.endpoint ∧
        ∃ host ∈ loginHosts, host.endpoint = call.endpoint ∧ ∃ info target,
          (registerAll host.services).serviceMap.lookup stub.service.name = some info ∧
            TaskExit.answered (.loginResponse (UserService.respond {})) =
              .answered (loginServers.service host.endpoint
                ⟨info.service, stub.method, target, stub.request⟩) := by
  have run : ∃ w : World UserMessage, Reachable (next (fun _ => 0) loginServers)
      (Admits loginServers) (start loginHosts 5000 60 3 4 fun _ => false) w ∧
        ∃ call, w.system.client.calls[0]? = some call ∧
          call.pc.exit? = some (.answered (.loginResponse (UserService.respond {}))) ∧
          w.stubs = [loginStub] := by
    apply exists_reachable routedLogin
    · decide +kernel
    · exact ⟨_, rfl, _, rfl, rfl, rfl⟩
  obtain ⟨w, reached, call, found, leaves, stubs⟩ := run
  refine ⟨w, call, reached, ⟨found, leaves⟩, answered_by_host reached ?_ ?_ found leaves rfl⟩
  · intro host member
    rcases List.mem_cons.mp member with rfl | member
    · rfl
    · cases List.mem_singleton.mp member
      rfl
  · intro stub member
    rw [stubs] at member
    cases List.mem_singleton.mp member
    exact loginInterface

end World

end Mprpc.Deployment
