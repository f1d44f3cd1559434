import Mprpc.Client.Channel
import Mprpc.Transition.Core
import Mprpc.Transition.Parties
import Mprpc.Transition.WatchedSource

/-!
# The route cache and ZooKeeper

The state couples `g_route_cache` with the part of ZooKeeper it mirrors: the
children of every method path, the watches set on them and the events that are
not delivered yet.  `CallMethod` on a cache miss and `ZkChildWatcher` both list
the children and write the ring in two separate steps, and only the write holds
`g_cache_mutex`.
-/

namespace Mprpc.Client

open Mprpc.Transition

/-- What a watch event is about. -/
inductive EventType
  | child
  | session
  deriving DecidableEq, Repr

/-- Where a `CallMethod` stands in section 4 of its body. -/
inductive RoutePc
  | looking
  | fetching
  | storing (ch : ConsistentHash)
  | done (route : Except Bytes ConsistentHash)
  deriving DecidableEq

/-- One `CallMethod`. -/
structure RouteCaller where
  methodPath : Bytes
  pc : RoutePc
  deriving DecidableEq

/-- Where the running `ZkChildWatcher` stands.  There is one event thread. -/
inductive Watcher
  | fetching (methodPath : Bytes)
  | updating (methodPath : Bytes) (newCh : ConsistentHash)
  deriving DecidableEq

/-- The path of the watcher's event. -/
def Watcher.methodPath : Watcher → Bytes
  | .fetching methodPath | .updating methodPath _ => methodPath

/-- The cache, its writers, and ZooKeeper. -/
structure RouteState where
  children : Bytes → List Bytes
  watched : Bytes → Bool
  events : List (EventType × Bytes)
  routeCache : AssocMap Bytes ConsistentHash
  watcher : Option Watcher
  callers : List RouteCaller

/-- A step of the cache, of one of its writers, or of ZooKeeper.  `reached`
says whether `zoo_wget_children` returned `ZOK`. -/
inductive RouteAction
  | call (methodPath : Bytes)
  | lookup (i : Nat)
  | fetch (i : Nat) (reached : Bool)
  | store (i : Nat)
  | provide (methodPath : Bytes) (hosts : List Bytes)
  | sessionEvent
  | deliver
  | refetch (reached : Bool)
  | update

/-- The method paths of the `CallMethod`s that an action starts. -/
def RouteAction.calls : RouteAction → List Bytes
  | .call methodPath => [methodPath]
  | _ => []

/-- The ring that a `CallMethod` is about to write for a path. -/
def RouteCaller.writes (methodPath : Bytes) (caller : RouteCaller) : Option ConsistentHash :=
  match caller.pc with
  | .storing ch => if caller.methodPath = methodPath then some ch else none
  | _ => none

/-- The ring that the watcher is about to write for a path. -/
def Watcher.writes (methodPath : Bytes) : Watcher → Option ConsistentHash
  | .fetching _ => none
  | .updating path newCh => if path = methodPath then some newCh else none

theorem RouteCaller.writes_eq_some_iff {methodPath : Bytes} {caller : RouteCaller}
    {ch : ConsistentHash} :
    caller.writes methodPath = some ch ↔ caller = ⟨methodPath, .storing ch⟩ := by
  rcases caller with ⟨path, pc⟩
  cases pc <;> simp [RouteCaller.writes]

theorem Watcher.writes_eq_some_iff {methodPath : Bytes} {watcher : Watcher}
    {ch : ConsistentHash} :
    watcher.writes methodPath = some ch ↔ watcher = .updating methodPath ch := by
  cases watcher <;> simp [Watcher.writes]

namespace RouteState

/-- A process that has called nothing yet. -/
def start (children : Bytes → List Bytes) : RouteState where
  children := children
  watched := fun _ => false
  events := []
  routeCache := []
  watcher := none
  callers := []

def setCaller (s : RouteState) (i : Nat) (caller : RouteCaller) : RouteState :=
  { s with callers := s.callers.set i caller }

def setWatcher (s : RouteState) (watcher : Option Watcher) : RouteState :=
  { s with watcher := watcher }

def watch (s : RouteState) (methodPath : Bytes) : RouteState :=
  { s with watched := Function.update s.watched methodPath true }

/-- `zoo_wget_children`: it lists the children and sets the watch. -/
def wgetChildren (s : RouteState) (methodPath : Bytes) (reached : Bool) :
    Option (List Bytes) × RouteState :=
  if reached then (some (s.children methodPath), s.watch methodPath) else (none, s)

/-- Providers come or go: a watch fires once. -/
def provide (s : RouteState) (methodPath : Bytes) (hosts : List Bytes) : RouteState :=
  { s with
    children := Function.update s.children methodPath hosts
    watched := Function.update s.watched methodPath false
    events := if s.watched methodPath then s.events ++ [(.child, methodPath)] else s.events }

/-- `g_route_cache[method_path] = ch`. -/
def write (s : RouteState) (methodPath : Bytes) (ch : ConsistentHash) : RouteState :=
  { s with routeCache := s.routeCache.set methodPath ch }

/-- The ring of the current children of a path. -/
def currentRing (hash : Bytes → UInt32) (s : RouteState) (methodPath : Bytes) : ConsistentHash :=
  ({} : ConsistentHash).addNodes hash (s.children methodPath)

/-- Section 4.2 for one caller. -/
def lookedUp (s : RouteState) (i : Nat) (caller : RouteCaller) : RouteState :=
  match s.routeCache.lookup caller.methodPath with
  | some ch => s.setCaller i { caller with pc := .done (.ok ch) }
  | none => s.setCaller i { caller with pc := .fetching }

/-- Section 4.3 for one caller, up to the write. -/
def fetched (hash : Bytes → UInt32) (s : RouteState) (i : Nat) (caller : RouteCaller)
    (reached : Bool) : RouteState :=
  let (hostList, s) := s.wgetChildren caller.methodPath reached
  match fetchRoute hash caller.methodPath hostList with
  | .ok ch => s.setCaller i { caller with pc := .storing ch }
  | .error reason => s.setCaller i { caller with pc := .done (.error reason) }

/-- The listing of `ZkChildWatcher`, which does nothing more when it fails. -/
def refetched (hash : Bytes → UInt32) (s : RouteState) (methodPath : Bytes) (reached : Bool) :
    RouteState :=
  let (newHostList, s) := s.wgetChildren methodPath reached
  s.setWatcher (newHostList.map fun hosts =>
    .updating methodPath (({} : ConsistentHash).addNodes hash hosts))

/-- The event thread calls `ZkChildWatcher`, which ignores all events but those
about children. -/
def nextEvent (s : RouteState) : Option RouteState :=
  match s.watcher, s.events with
  | none, (.child, methodPath) :: events =>
      some { s with watcher := some (.fetching methodPath), events := events }
  | none, (.session, _) :: events => some { s with events := events }
  | _, _ => none

/-- One step. -/
def next (hash : Bytes → UInt32) (s : RouteState) : RouteAction → Option RouteState
  | .call methodPath => some { s with callers := s.callers ++ [⟨methodPath, .looking⟩] }
  | .lookup i =>
      (s.callers[i]?).bind fun caller =>
        match caller.pc with
        | .looking => some (s.lookedUp i caller)
        | _ => none
  | .fetch i reached =>
      (s.callers[i]?).bind fun caller =>
        match caller.pc with
        | .fetching => some (s.fetched hash i caller reached)
        | _ => none
  | .store i =>
      (s.callers[i]?).bind fun caller =>
        match caller.pc with
        | .storing ch =>
            some ((s.write caller.methodPath ch).setCaller i { caller with pc := .done (.ok ch) })
        | _ => none
  | .provide methodPath hosts => some (s.provide methodPath hosts)
  | .sessionEvent => some { s with events := s.events ++ [(.session, [])] }
  | .deliver => s.nextEvent
  | .refetch reached =>
      s.watcher.bind fun watcher =>
        match watcher with
        | .fetching methodPath => some (s.refetched hash methodPath reached)
        | _ => none
  | .update =>
      s.watcher.bind fun watcher =>
        match watcher with
        | .updating methodPath newCh =>
            some ((s.write methodPath newCh).setWatcher none)
        | _ => none

/-! ## Copies of a listing -/


/-- A refresh of the path is due: its event is undelivered, or the watcher has
yet to list the children again. -/
def Refreshing (s : RouteState) (methodPath : Bytes) : Prop :=
  (.child, methodPath) ∈ s.events ∨ s.watcher = some (.fetching methodPath)

/-- The rings that `CallMethod`s and the watcher are about to write for a path. -/
def beingWritten (s : RouteState) (methodPath : Bytes) : List ConsistentHash :=
  s.watcher.toList.filterMap (Watcher.writes methodPath) ++
    s.callers.filterMap (RouteCaller.writes methodPath)

/-- All rings of a path, in the cache or on their way to it. -/
def copies (s : RouteState) (methodPath : Bytes) : List ConsistentHash :=
  (s.routeCache.lookup methodPath).toList ++ s.beingWritten methodPath

instance (s : RouteState) (methodPath : Bytes) : Decidable (s.Refreshing methodPath) :=
  inferInstanceAs (Decidable (_ ∨ _))

/-- What `CallMethod` and the watcher do to the children of one path, as copies
of a watched source. -/
def source (hash : Bytes → UInt32) (s : RouteState) (methodPath : Bytes) :
    WatchedSource ConsistentHash where
  current := s.currentRing hash methodPath
  watched := s.watched methodPath = true
  refreshing := s.Refreshing methodPath
  copies := {ch | ch ∈ s.copies methodPath}

theorem mem_beingWritten {s : RouteState} {methodPath : Bytes} {ch : ConsistentHash} :
    ch ∈ s.beingWritten methodPath ↔
      s.watcher = some (.updating methodPath ch) ∨ ⟨methodPath, .storing ch⟩ ∈ s.callers := by
  unfold beingWritten
  rw [List.mem_append, List.mem_filterMap, List.mem_filterMap]
  constructor
  · rintro (⟨watcher, member, writes⟩ | ⟨caller, member, writes⟩)
    · rw [Watcher.writes_eq_some_iff.mp writes] at member
      exact .inl (Option.mem_toList.mp member)
    · rw [RouteCaller.writes_eq_some_iff.mp writes] at member
      exact .inr member
  · rintro (updating | storing)
    · exact .inl ⟨_, Option.mem_toList.mpr updating, Watcher.writes_eq_some_iff.mpr rfl⟩
    · exact .inr ⟨_, storing, RouteCaller.writes_eq_some_iff.mpr rfl⟩

theorem mem_copies {s : RouteState} {methodPath : Bytes} {ch : ConsistentHash} :
    ch ∈ s.copies methodPath ↔
      s.routeCache.lookup methodPath = some ch ∨ ch ∈ s.beingWritten methodPath := by
  unfold copies
  rw [List.mem_append, Option.mem_toList]

/-! ## What a step can do -/

/-- The effect of one action. -/
inductive Stepped (hash : Bytes → UInt32) (s : RouteState) : RouteAction → RouteState → Prop
  | called (methodPath : Bytes) :
      Stepped hash s (.call methodPath) { s with callers := s.callers ++ [⟨methodPath, .looking⟩] }
  | hit {i : Nat} {methodPath : Bytes} (ch : ConsistentHash)
      (found : s.callers[i]? = some ⟨methodPath, .looking⟩) :
      Stepped hash s (.lookup i) (s.setCaller i ⟨methodPath, .done (.ok ch)⟩)
  | missed {i : Nat} {methodPath : Bytes} (found : s.callers[i]? = some ⟨methodPath, .looking⟩) :
      Stepped hash s (.lookup i) (s.setCaller i ⟨methodPath, .fetching⟩)
  | fetched {i : Nat} {methodPath : Bytes}
      (found : s.callers[i]? = some ⟨methodPath, .fetching⟩) :
      Stepped hash s (.fetch i true)
        ((s.watch methodPath).setCaller i ⟨methodPath, .storing (s.currentRing hash methodPath)⟩)
  | fetchedNone {i : Nat} {methodPath : Bytes} (reason : Bytes)
      (found : s.callers[i]? = some ⟨methodPath, .fetching⟩) :
      Stepped hash s (.fetch i true)
        ((s.watch methodPath).setCaller i ⟨methodPath, .done (.error reason)⟩)
  | fetchFailed {i : Nat} {methodPath : Bytes} (reason : Bytes)
      (found : s.callers[i]? = some ⟨methodPath, .fetching⟩) :
      Stepped hash s (.fetch i false) (s.setCaller i ⟨methodPath, .done (.error reason)⟩)
  | stored {i : Nat} {methodPath : Bytes} {ch : ConsistentHash}
      (found : s.callers[i]? = some ⟨methodPath, .storing ch⟩) :
      Stepped hash s (.store i)
        ((s.write methodPath ch).setCaller i ⟨methodPath, .done (.ok ch)⟩)
  | provided (methodPath : Bytes) (hosts : List Bytes) :
      Stepped hash s (.provide methodPath hosts) (s.provide methodPath hosts)
  | sessionEvent : Stepped hash s .sessionEvent { s with events := s.events ++ [(.session, [])] }
  | delivered {methodPath : Bytes} {events : List (EventType × Bytes)}
      (queued : s.events = (.child, methodPath) :: events) (idle : s.watcher = none) :
      Stepped hash s .deliver
        { s with watcher := some (.fetching methodPath), events := events }
  | ignored {path : Bytes} {events : List (EventType × Bytes)}
      (queued : s.events = (.session, path) :: events) :
      Stepped hash s .deliver { s with events := events }
  | refetched {methodPath : Bytes} (fetching : s.watcher = some (.fetching methodPath)) :
      Stepped hash s (.refetch true)
        ((s.watch methodPath).setWatcher
          (some (.updating methodPath (s.currentRing hash methodPath))))
  | refetchFailed {methodPath : Bytes} (fetching : s.watcher = some (.fetching methodPath)) :
      Stepped hash s (.refetch false) (s.setWatcher none)
  | updated {methodPath : Bytes} {newCh : ConsistentHash}
      (updating : s.watcher = some (.updating methodPath newCh)) :
      Stepped hash s .update ((s.write methodPath newCh).setWatcher none)

theorem stepped_fetched (hash : Bytes → UInt32) {s : RouteState} {i : Nat} {methodPath : Bytes}
    (reached : Bool) (found : s.callers[i]? = some ⟨methodPath, .fetching⟩) :
    Stepped hash s (.fetch i reached) (s.fetched hash i ⟨methodPath, .fetching⟩ reached) := by
  cases reached with
  | false => exact .fetchFailed _ found
  | true =>
      have listed : (s.wgetChildren methodPath true) =
          (some (s.children methodPath), s.watch methodPath) := rfl
      unfold RouteState.fetched
      rw [listed]
      cases hosts : s.children methodPath with
      | nil => exact .fetchedNone _ found
      | cons host hosts' =>
          have ring : Stepped hash s (.fetch i true) _ := .fetched found
          rw [currentRing, hosts] at ring
          exact ring

/-- Every step is one of the listed effects. -/
theorem stepped_of_next {hash : Bytes → UInt32} {s t : RouteState} {action : RouteAction}
    (step : s.next hash action = some t) : Stepped hash s action t := by
  cases action with
  | call methodPath =>
      cases step
      exact .called methodPath
  | lookup i =>
      rcases Option.bind_eq_some_iff.mp step with ⟨⟨methodPath, pc⟩, found, step⟩
      cases pc with
      | looking =>
          cases step
          unfold lookedUp
          cases s.routeCache.lookup methodPath with
          | some ch => exact .hit ch found
          | none => exact .missed found
      | fetching => cases step
      | storing ch => cases step
      | done route => cases step
  | fetch i reached =>
      rcases Option.bind_eq_some_iff.mp step with ⟨⟨methodPath, pc⟩, found, step⟩
      cases pc with
      | fetching =>
          cases step
          exact stepped_fetched hash reached found
      | looking => cases step
      | storing ch => cases step
      | done route => cases step
  | store i =>
      rcases Option.bind_eq_some_iff.mp step with ⟨⟨methodPath, pc⟩, found, step⟩
      cases pc with
      | storing ch =>
          cases step
          exact .stored found
      | looking => cases step
      | fetching => cases step
      | done route => cases step
  | provide methodPath hosts =>
      cases step
      exact .provided methodPath hosts
  | sessionEvent =>
      cases step
      exact .sessionEvent
  | deliver =>
      replace step : s.nextEvent = some t := step
      unfold nextEvent at step
      split at step
      · cases step
        exact .delivered ‹_› ‹_›
      · cases step
        exact .ignored ‹_›
      · cases step
  | refetch reached =>
      rcases Option.bind_eq_some_iff.mp step with ⟨watcher, running, step⟩
      cases watcher with
      | updating methodPath newCh => cases step
      | fetching methodPath =>
          cases step
          cases reached with
          | false => exact .refetchFailed running
          | true => exact .refetched running
  | update =>
      rcases Option.bind_eq_some_iff.mp step with ⟨watcher, running, step⟩
      cases watcher with
      | fetching methodPath => cases step
      | updating methodPath newCh =>
          cases step
          exact .updated running

theorem methodPaths_setCaller {s : RouteState} {i : Nat} {methodPath : Bytes} {before pc : RoutePc}
    (found : s.callers[i]? = some ⟨methodPath, before⟩) :
    (s.callers.set i ⟨methodPath, pc⟩).map RouteCaller.methodPath =
      s.callers.map RouteCaller.methodPath :=
  map_set_of_eq found rfl

theorem methodPaths_of_stepped {hash : Bytes → UInt32} {s t : RouteState} {action : RouteAction}
    (stepped : Stepped hash s action t) :
    t.callers.map RouteCaller.methodPath =
      s.callers.map RouteCaller.methodPath ++ action.calls := by
  have kept : t.callers.map RouteCaller.methodPath = s.callers.map RouteCaller.methodPath →
      action.calls = [] → t.callers.map RouteCaller.methodPath =
        s.callers.map RouteCaller.methodPath ++ action.calls := by
    intro same nothing
    rw [same, nothing, List.append_nil]
  cases stepped with
  | called methodPath => exact List.map_append
  | hit ch found => exact kept (methodPaths_setCaller found) rfl
  | missed found => exact kept (methodPaths_setCaller found) rfl
  | fetched found => exact kept (methodPaths_setCaller found) rfl
  | fetchedNone reason found => exact kept (methodPaths_setCaller found) rfl
  | fetchFailed reason found => exact kept (methodPaths_setCaller found) rfl
  | stored found => exact kept (methodPaths_setCaller found) rfl
  | _ => exact kept rfl rfl

/-- A `CallMethod` keeps the ring that it has got. -/
theorem done_of_stepped {hash : Bytes → UInt32} {s t : RouteState} {action : RouteAction}
    (stepped : Stepped hash s action t) {i : Nat} {methodPath : Bytes}
    {route : Except Bytes ConsistentHash}
    (found : s.callers[i]? = some ⟨methodPath, .done route⟩) :
    t.callers[i]? = some ⟨methodPath, .done route⟩ := by
  have others : ∀ {j : Nat} {path : Bytes} {before after : RoutePc}, before ≠ .done route →
      s.callers[j]? = some ⟨path, before⟩ →
        (s.callers.set j ⟨path, after⟩)[i]? = some ⟨methodPath, .done route⟩ := by
    intro j path before after busy moves
    have different : j ≠ i := by
      rintro rfl
      rw [moves] at found
      cases found
      exact busy rfl
    rw [List.getElem?_set_ne different, found]
  cases stepped with
  | called path =>
      have bound := (List.getElem?_eq_some_iff.mp found).1
      exact (List.getElem?_append_left bound).trans found
  | hit ch moves => exact others RoutePc.noConfusion moves
  | missed moves => exact others RoutePc.noConfusion moves
  | fetched moves => exact others RoutePc.noConfusion moves
  | fetchedNone reason moves => exact others RoutePc.noConfusion moves
  | fetchFailed reason moves => exact others RoutePc.noConfusion moves
  | stored moves => exact others RoutePc.noConfusion moves
  | _ => exact found

/-! ## Convergence -/

/-- A refetch that fails loses nothing: another event of the path is queued, or
there is no ring to go stale, or the watch has been set again and an up-to-date
ring is there. -/
def SurvivesFailure (hash : Bytes → UInt32) (s : RouteState) (methodPath : Bytes) : Prop :=
  (.child, methodPath) ∈ s.events ∨ s.copies methodPath = [] ∨
    s.watched methodPath = true ∧ s.currentRing hash methodPath ∈ s.copies methodPath

/-- A write loses nothing: the cached ring is out of date anyway, or a refresh is
due, or an up-to-date ring is being written. -/
def SurvivesWrite (hash : Bytes → UInt32) (s : RouteState) (methodPath : Bytes) : Prop :=
  s.routeCache.lookup methodPath = some (s.currentRing hash methodPath) →
    s.Refreshing methodPath ∨ s.currentRing hash methodPath ∈ s.beingWritten methodPath

/-- The path whose refetch fails in a step. -/
def failingPath (s : RouteState) : RouteAction → Option Bytes
  | .refetch false => s.watcher.map Watcher.methodPath
  | _ => none

/-- The path whose ring a step writes. -/
def writtenPath (s : RouteState) : RouteAction → Option Bytes
  | .store i => (s.callers[i]?).map RouteCaller.methodPath
  | .update => s.watcher.map Watcher.methodPath
  | _ => none

/-- No failure and no overwriting loses track of the children. -/
def KeepsUp (hash : Bytes → UInt32) (s : RouteState) (action : RouteAction) : Prop :=
  (∀ methodPath ∈ s.failingPath action, s.SurvivesFailure hash methodPath) ∧
    ∀ methodPath ∈ s.writtenPath action, s.SurvivesWrite hash methodPath

instance (hash : Bytes → UInt32) (s : RouteState) (methodPath : Bytes) :
    Decidable (s.SurvivesFailure hash methodPath) :=
  inferInstanceAs (Decidable (_ ∨ _ ∨ _))

instance (hash : Bytes → UInt32) (s : RouteState) (methodPath : Bytes) :
    Decidable (s.SurvivesWrite hash methodPath) :=
  inferInstanceAs (Decidable (_ → _))

instance (hash : Bytes → UInt32) (s : RouteState) (action : RouteAction) :
    Decidable (s.KeepsUp hash action) :=
  inferInstanceAs (Decidable (_ ∧ _))

/-- A step that leaves everything about a path alone. -/
theorem source_congr {hash : Bytes → UInt32} {s t : RouteState} {methodPath : Bytes}
    (children : t.children methodPath = s.children methodPath)
    (watched : t.watched methodPath = s.watched methodPath)
    (refreshing : t.Refreshing methodPath ↔ s.Refreshing methodPath)
    (cached : t.routeCache.lookup methodPath = s.routeCache.lookup methodPath)
    (written : ∀ ch, ch ∈ t.beingWritten methodPath ↔ ch ∈ s.beingWritten methodPath) :
    t.source hash methodPath = s.source hash methodPath := by
  have copied : {ch | ch ∈ t.copies methodPath} = {ch | ch ∈ s.copies methodPath} := by
    ext ch
    rw [Set.mem_ofPred_eq, Set.mem_ofPred_eq, mem_copies, mem_copies, cached, written]
  unfold source currentRing
  rw [children, watched, propext refreshing, copied]

/-- A caller that has no ring of the path before or after a step does not matter
to it. -/
theorem mem_beingWritten_setCaller {s : RouteState} {i : Nat} {caller moved : RouteCaller}
    {methodPath : Bytes} (found : s.callers[i]? = some caller)
    (before : caller.writes methodPath = none) (after : moved.writes methodPath = none)
    (ch : ConsistentHash) :
    ch ∈ (s.setCaller i moved).beingWritten methodPath ↔ ch ∈ s.beingWritten methodPath := by
  rw [mem_beingWritten, mem_beingWritten]
  have neCaller : (⟨methodPath, .storing ch⟩ : RouteCaller) ≠ caller := by
    rintro rfl
    rw [RouteCaller.writes_eq_some_iff.mpr rfl] at before
    cases before
  have neMoved : (⟨methodPath, .storing ch⟩ : RouteCaller) ≠ moved := by
    rintro rfl
    rw [RouteCaller.writes_eq_some_iff.mpr rfl] at after
    cases after
  exact or_congr Iff.rfl (mem_set_iff_of_ne found neCaller neMoved)

theorem source_setCaller {hash : Bytes → UInt32} {s : RouteState} {i : Nat}
    {caller moved : RouteCaller} {methodPath : Bytes} (found : s.callers[i]? = some caller)
    (before : caller.writes methodPath = none) (after : moved.writes methodPath = none) :
    (s.setCaller i moved).source hash methodPath = s.source hash methodPath :=
  source_congr rfl rfl Iff.rfl rfl (mem_beingWritten_setCaller found before after)

theorem writes_of_ne {methodPath other : Bytes} (different : other ≠ methodPath) (pc : RoutePc) :
    (⟨other, pc⟩ : RouteCaller).writes methodPath = none := by
  cases pc <;> simp [RouteCaller.writes, different]

/-- A listing of one path sets no other watch. -/
theorem source_watch_of_ne {hash : Bytes → UInt32} {s : RouteState} {methodPath other : Bytes}
    (different : other ≠ methodPath) :
    (s.watch methodPath).source hash other = s.source hash other :=
  source_congr rfl (Function.update_of_ne different _ _) Iff.rfl rfl fun _ => Iff.rfl

theorem watched_watch (s : RouteState) (methodPath : Bytes) :
    (s.watch methodPath).watched methodPath = true :=
  Function.update_self ..

/-- The watcher has listed the children of its path. -/
theorem tracked_refetched {hash : Bytes → UInt32} {s : RouteState} {methodPath : Bytes}
    (tracked : ∀ path, (s.source hash path).Tracked)
    (fetching : s.watcher = some (.fetching methodPath)) (path : Bytes) :
    (((s.watch methodPath).setWatcher
      (some (.updating methodPath (s.currentRing hash methodPath)))).source hash path).Tracked := by
  by_cases same : path = methodPath
  · subst same
    apply WatchedSource.tracked_read
    · exact watched_watch s path
    · exact mem_copies.mpr (.inr (mem_beingWritten.mpr (.inl rfl)))
  · have unchanged : ((s.watch methodPath).setWatcher
        (some (.updating methodPath (s.currentRing hash methodPath)))).source hash path =
          s.source hash path := by
      refine source_congr rfl (Function.update_of_ne same _ _) ?_ rfl ?_
      · simp [Refreshing, fetching, watch, setWatcher, Ne.symm same]
      · intro ch
        simp [mem_beingWritten, fetching, watch, setWatcher, Ne.symm same]
    rw [unchanged]
    exact tracked path

/-- Providers of a path have come or gone. -/
theorem tracked_provide {hash : Bytes → UInt32} {s : RouteState} {methodPath : Bytes}
    {hosts : List Bytes} (tracked : ∀ path, (s.source hash path).Tracked) (path : Bytes) :
    ((s.provide methodPath hosts).source hash path).Tracked := by
  by_cases same : path = methodPath
  · subst same
    refine (tracked path).change rfl ?_ ?_
    · rintro (queued | fetching)
      · left
        unfold provide
        split
        · exact List.mem_append_left _ queued
        · exact queued
      · exact .inr fetching
    · intro watched
      left
      replace watched : s.watched path = true := watched
      simp [provide, watched]
  · have unchanged : (s.provide methodPath hosts).source hash path = s.source hash path := by
      refine source_congr (Function.update_of_ne same _ _) (Function.update_of_ne same _ _) ?_ rfl
        fun _ => Iff.rfl
      unfold Refreshing provide
      split
      · simp [same]
      · rfl
    rw [unchanged]
    exact tracked path

/-- A write to the cache, when no outdated ring replaces an up-to-date one for
good.  `after` is the state in which the writer is done. -/
theorem tracked_write {hash : Bytes → UInt32} {s after : RouteState} {methodPath : Bytes}
    {ch : ConsistentHash} (tracked : (s.source hash methodPath).Tracked)
    (survives : s.SurvivesWrite hash methodPath)
    (children : after.children = s.children) (watched : after.watched = s.watched)
    (refreshing : after.Refreshing methodPath ↔ s.Refreshing methodPath)
    (stored : after.routeCache.lookup methodPath = some ch)
    (written : ∀ other, other ∈ s.beingWritten methodPath ↔
      other = ch ∨ other ∈ after.beingWritten methodPath) :
    (after.source hash methodPath).Tracked := by
  have same : after.currentRing hash methodPath = s.currentRing hash methodPath := by
    unfold currentRing
    rw [children]
  have fromWritten : ∀ other ∈ s.beingWritten methodPath, other ∈ after.copies methodPath := by
    intro other member
    rcases (written other).mp member with rfl | remains
    · exact mem_copies.mpr (.inl stored)
    · exact mem_copies.mpr (.inr remains)
  refine tracked.drop same ?_ refreshing.mpr ?_ ?_
  · intro other copied
    rcases mem_copies.mp copied with cached | remains
    · rw [stored] at cached
      exact mem_copies.mpr (.inr ((written other).mpr (.inl (Option.some.inj cached).symm)))
    · exact mem_copies.mpr (.inr ((written other).mpr (.inr remains)))
  · intro set
    exact (congrFun watched methodPath).trans set
  · intro fresh
    rcases mem_copies.mp fresh with cached | underway
    · rcases survives cached with due | underway
      · exact .inl due
      · exact .inr (fromWritten _ underway)
    · exact .inr (fromWritten _ underway)

theorem mem_beingWritten_stored {s : RouteState} {i : Nat} {methodPath : Bytes}
    {ch : ConsistentHash} (found : s.callers[i]? = some ⟨methodPath, .storing ch⟩)
    (other : ConsistentHash) :
    other ∈ s.beingWritten methodPath ↔ other = ch ∨
      other ∈ (s.setCaller i ⟨methodPath, .done (.ok ch)⟩).beingWritten methodPath := by
  have own : ch ∈ s.beingWritten methodPath :=
    mem_beingWritten.mpr (.inr (List.mem_of_getElem? found))
  by_cases same : other = ch
  · subst same
    simp [own]
  · have kept : (⟨methodPath, .storing other⟩ : RouteCaller) ∈
        s.callers.set i ⟨methodPath, .done (.ok ch)⟩ ↔
          (⟨methodPath, .storing other⟩ : RouteCaller) ∈ s.callers :=
      mem_set_iff_of_ne found (by simp [same]) (by simp)
    rw [mem_beingWritten, mem_beingWritten, setCaller, kept]
    simp [same]

/-- A `CallMethod` has written its ring. -/
theorem tracked_stored {hash : Bytes → UInt32} {s : RouteState} {i : Nat} {methodPath : Bytes}
    {ch : ConsistentHash} (tracked : ∀ path, (s.source hash path).Tracked)
    (found : s.callers[i]? = some ⟨methodPath, .storing ch⟩)
    (survives : s.SurvivesWrite hash methodPath) (path : Bytes) :
    (((s.write methodPath ch).setCaller i ⟨methodPath, .done (.ok ch)⟩).source
      hash path).Tracked := by
  by_cases same : path = methodPath
  · subst same
    exact tracked_write (tracked path) survives rfl rfl Iff.rfl (AssocMap.lookup_set_self ..)
      (mem_beingWritten_stored found)
  · have unchanged : (s.write methodPath ch).source hash path = s.source hash path :=
      source_congr rfl rfl Iff.rfl (AssocMap.lookup_set_of_ne same _ _) fun _ => Iff.rfl
    rw [source_setCaller (s := s.write methodPath ch) found (writes_of_ne (Ne.symm same) _)
      (writes_of_ne (Ne.symm same) _), unchanged]
    exact tracked path

/-- The watcher has written its ring. -/
theorem tracked_updated {hash : Bytes → UInt32} {s : RouteState} {methodPath : Bytes}
    {newCh : ConsistentHash} (tracked : ∀ path, (s.source hash path).Tracked)
    (updating : s.watcher = some (.updating methodPath newCh))
    (survives : s.SurvivesWrite hash methodPath) (path : Bytes) :
    (((s.write methodPath newCh).setWatcher none).source hash path).Tracked := by
  have refreshing : ((s.write methodPath newCh).setWatcher none).Refreshing path ↔
      s.Refreshing path := by
    simp [Refreshing, updating, write, setWatcher]
  by_cases same : path = methodPath
  · subst same
    refine tracked_write (tracked path) survives rfl rfl refreshing
      (AssocMap.lookup_set_self ..) ?_
    intro other
    simp [mem_beingWritten, updating, write, setWatcher, eq_comm]
  · have unchanged : ((s.write methodPath newCh).setWatcher none).source hash path =
        s.source hash path := by
      refine source_congr rfl rfl refreshing (AssocMap.lookup_set_of_ne same _ _) ?_
      intro ch
      simp [mem_beingWritten, updating, write, setWatcher, Ne.symm same]
    rw [unchanged]
    exact tracked path

/-- The watcher could not list the children. -/
theorem tracked_refetchFailed {hash : Bytes → UInt32} {s : RouteState} {methodPath : Bytes}
    (tracked : ∀ path, (s.source hash path).Tracked)
    (fetching : s.watcher = some (.fetching methodPath))
    (survives : s.SurvivesFailure hash methodPath) (path : Bytes) :
    ((s.setWatcher none).source hash path).Tracked := by
  have written : (s.setWatcher none).beingWritten path = s.beingWritten path := by
    simp [beingWritten, fetching, setWatcher, Watcher.writes]
  have copied : (s.setWatcher none).copies path = s.copies path := by
    unfold copies
    rw [written]
    rfl
  by_cases same : path = methodPath
  · subst same
    rcases survives with queued | none | ⟨watched, fresh⟩
    · exact fun _ => .inl (.inl queued)
    · rintro ⟨ch, member⟩
      replace member : ch ∈ (s.setWatcher Option.none).copies path := member
      rw [copied, none] at member
      cases member
    · refine WatchedSource.tracked_read watched ?_
      change s.currentRing hash path ∈ (s.setWatcher Option.none).copies path
      rw [copied]
      exact fresh
  · have unchanged : (s.setWatcher none).source hash path = s.source hash path := by
      refine source_congr rfl rfl ?_ rfl ?_
      · simp [Refreshing, fetching, setWatcher, Ne.symm same]
      · intro ch
        rw [written]
    rw [unchanged]
    exact tracked path

/-- Under the condition, a step keeps track of the children of every path. -/
theorem tracked_of_stepped {hash : Bytes → UInt32} {s t : RouteState} {action : RouteAction}
    (tracked : ∀ path, (s.source hash path).Tracked) (allowed : s.KeepsUp hash action)
    (stepped : Stepped hash s action t) (path : Bytes) : (t.source hash path).Tracked := by
  rcases allowed with ⟨failure, write⟩
  cases stepped with
  | called methodPath =>
      have unchanged : ({ s with callers := s.callers ++ [⟨methodPath, .looking⟩] } :
          RouteState).source hash path = s.source hash path := by
        refine source_congr rfl rfl Iff.rfl rfl ?_
        intro ch
        simp [mem_beingWritten]
      rw [unchanged]
      exact tracked path
  | hit ch found =>
      rw [source_setCaller found rfl rfl]
      exact tracked path
  | missed found =>
      rw [source_setCaller found rfl rfl]
      exact tracked path
  | @fetched i methodPath found =>
      by_cases same : path = methodPath
      · subst same
        apply WatchedSource.tracked_read
        · exact watched_watch s path
        · have bound : i < s.callers.length := (List.getElem?_eq_some_iff.mp found).1
          exact mem_copies.mpr (.inr (mem_beingWritten.mpr (.inr (List.mem_set bound _))))
      · rw [source_setCaller (s := s.watch methodPath) found (writes_of_ne (Ne.symm same) _)
          (writes_of_ne (Ne.symm same) _), source_watch_of_ne same]
        exact tracked path
  | @fetchedNone i methodPath reason found =>
      rw [source_setCaller (s := s.watch methodPath) found rfl rfl]
      by_cases same : path = methodPath
      · subst same
        exact (tracked path).keep rfl rfl id fun _ => watched_watch s path
      · rw [source_watch_of_ne same]
        exact tracked path
  | fetchFailed reason found =>
      rw [source_setCaller found rfl rfl]
      exact tracked path
  | @stored i methodPath ch found =>
      apply tracked_stored tracked found
      apply write
      simp [writtenPath, found]
  | provided methodPath hosts => exact tracked_provide tracked path
  | sessionEvent =>
      have unchanged : ({ s with events := s.events ++ [(.session, [])] } :
          RouteState).source hash path = s.source hash path := by
        refine source_congr rfl rfl ?_ rfl fun _ => Iff.rfl
        simp [Refreshing]
      rw [unchanged]
      exact tracked path
  | @delivered methodPath events queued idle =>
      have unchanged : ({ s with watcher := some (.fetching methodPath), events := events } :
          RouteState).source hash path = s.source hash path := by
        refine source_congr rfl rfl ?_ rfl ?_
        · simp [Refreshing, queued, idle, eq_comm, or_comm]
        · intro ch
          simp [mem_beingWritten, idle]
      rw [unchanged]
      exact tracked path
  | @ignored other events queued =>
      have unchanged : ({ s with events := events } : RouteState).source hash path =
          s.source hash path := by
        refine source_congr rfl rfl ?_ rfl fun _ => Iff.rfl
        simp [Refreshing, queued]
      rw [unchanged]
      exact tracked path
  | @refetched methodPath fetching => exact tracked_refetched tracked fetching path
  | @refetchFailed methodPath fetching =>
      apply tracked_refetchFailed tracked fetching
      apply failure
      simp [failingPath, fetching, Watcher.methodPath]
  | @updated methodPath newCh updating =>
      apply tracked_updated tracked updating
      apply write
      simp [writtenPath, updating, Watcher.methodPath]

/-- No event of the path is undelivered, and nobody is between its listing and
its write. -/
structure Quiet (s : RouteState) (methodPath : Bytes) : Prop where
  delivered : ¬ s.Refreshing methodPath
  written : s.beingWritten methodPath = []

instance (s : RouteState) (methodPath : Bytes) : Decidable (s.Quiet methodPath) :=
  decidable_of_iff (¬ s.Refreshing methodPath ∧ s.beingWritten methodPath = [])
    ⟨fun both => ⟨both.1, both.2⟩, fun quiet => ⟨quiet.delivered, quiet.written⟩⟩

/-- In every run without a step that loses track of the children: when nothing
is under way for a path, its cached ring is the ring of its children. -/
theorem route_cache_converges {hash : Bytes → UInt32} {children : Bytes → List Bytes}
    {s : RouteState} (reached : Reachable (next hash) (KeepsUp hash) (start children) s)
    {methodPath : Bytes} (quiet : s.Quiet methodPath) {ch : ConsistentHash}
    (cached : s.routeCache.lookup methodPath = some ch) :
    ch = ({} : ConsistentHash).addNodes hash (s.children methodPath) := by
  have tracked : ∀ path, (s.source hash path).Tracked := by
    apply reached.invariant
    · rintro path ⟨ch, member⟩
      cases member
    · intro state action successor tracked allowed step
      exact tracked_of_stepped tracked allowed (stepped_of_next step)
  have only : ∀ other, other ∈ s.copies methodPath ↔ other = ch := by
    intro other
    rw [mem_copies, cached, quiet.written]
    simp [eq_comm]
  exact (tracked methodPath).current_eq quiet.delivered ((only ch).mpr rfl)
    fun other => (only other).mp

/-- A hash for runs that are evaluated. -/
def byteSum (name : Bytes) : UInt32 :=
  UInt32.ofNat (name.map UInt8.toNat).sum

def loginPath : Bytes :=
  Bytes.ofString "/UserServiceRpc/Login"

/-- One provider at first. -/
def oneProvider : RouteState :=
  start fun _ => [Bytes.ofString "127.0.0.1:8000"]

/-- A caller lists the only provider, which then leaves.  The watcher writes the
empty ring, and the caller writes the ring of the provider over it. -/
theorem outdated_ring_written_last :
    ∃ s, Reachable (next byteSum) Unrestricted oneProvider s ∧ s.Quiet loginPath ∧
      ∃ ch ∈ s.routeCache.lookup loginPath,
        ch ≠ ({} : ConsistentHash).addNodes byteSum (s.children loginPath) := by
  apply exists_reachable [.call loginPath, .lookup 0, .fetch 0 true, .provide loginPath [],
    .deliver, .refetch true, .update, .store 0]
  · exact Meets.unrestricted ..
  · decide +kernel

/-- The same when the watcher cannot list the children. -/
theorem failed_refetch_leaves_old_ring :
    ∃ s, Reachable (next byteSum) Unrestricted oneProvider s ∧ s.Quiet loginPath ∧
      ∃ ch ∈ s.routeCache.lookup loginPath,
        ch ≠ ({} : ConsistentHash).addNodes byteSum (s.children loginPath) := by
  apply exists_reachable [.call loginPath, .lookup 0, .fetch 0 true, .store 0,
    .provide loginPath [], .deliver, .refetch false]
  · exact Meets.unrestricted ..
  · decide +kernel

/-- A caller and the watcher list different children, and the caller writes
first. -/
theorem newer_ring_written_last :
    ∃ s, Reachable (next byteSum) (KeepsUp byteSum) oneProvider s ∧ s.Quiet loginPath ∧
      ∃ ch ∈ s.routeCache.lookup loginPath,
        ch = ({} : ConsistentHash).addNodes byteSum (s.children loginPath) := by
  have run : ∃ s, Reachable (next byteSum) (KeepsUp byteSum) oneProvider s ∧
      s.Quiet loginPath ∧ (s.routeCache.lookup loginPath).isSome = true := by
    apply exists_reachable [.call loginPath, .lookup 0, .fetch 0 true, .provide loginPath [],
      .deliver, .refetch true, .store 0, .update]
    · decide +kernel
    · decide +kernel
  rcases run with ⟨s, reached, quiet, present⟩
  rcases Option.isSome_iff_exists.mp present with ⟨ch, cached⟩
  exact ⟨s, reached, quiet, ch, cached, route_cache_converges reached quiet cached⟩

end RouteState

end Mprpc.Client
