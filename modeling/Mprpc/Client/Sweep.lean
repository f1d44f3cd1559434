import Mprpc.Client.Limit

/-!
# What a sweep closes

Connections enter a queue at its back, with the time, and leave it at its front.
So a queue stands in the order of its times, and the first item that is young
enough ends the search: nothing behind it is older.
-/

namespace Mprpc.Client

open Mprpc.Net
open Mprpc.Rpc
open Mprpc.Transition

universe u

namespace ConnectionPool

variable {maxIdleTime : Int} {items : List ConnectionItem}

/-- A queue in the order of its times. -/
def InOrder (items : List ConnectionItem) : Prop :=
  items.Pairwise fun first second => first.lastActiveTime ≤ second.lastActiveTime

/-- A queue and the time at which a sweep has left it. -/
structure Examined where
  key : Bytes
  items : List ConnectionItem
  time : Nat

/-- The queues with the times of the sweep's last readings of the clock. -/
def examined (maxIdleTime : Int) (clock : SweepClock) :
    AssocMap Bytes (List ConnectionItem) → List Examined
  | [] => []
  | (key, items) :: rest =>
      let swept := sweepQueue maxIdleTime clock items
      ⟨key, items, swept.clock.now⟩ :: examined maxIdleTime swept.clock rest

namespace Examined

/-- The queue as it was found. -/
def found (queue : Examined) : Bytes × List ConnectionItem :=
  (queue.key, queue.items)

/-- The queue without the connections that were too old at its time. -/
def young (maxIdleTime : Int) (queue : Examined) : Bytes × List ConnectionItem :=
  (queue.key, queue.items.filter fun item => !expired maxIdleTime queue.time item)

/-- The descriptors of the connections that were too old at its time. -/
def old (maxIdleTime : Int) (queue : Examined) : List Fd :=
  (queue.items.filter fun item => expired maxIdleTime queue.time item).map ConnectionItem.fd

end Examined

/-! ## One sweep -/

theorem expired_iff {now : Nat} {item : ConnectionItem} :
    expired maxIdleTime now item = true ↔
      maxIdleTime < ((now - item.lastActiveTime) / 1000000000 : Nat) :=
  decide_eq_true_iff

/-- What is too old stays so, and everything older is too old as well. -/
theorem expired_mono {now later : Nat} {item older : ConnectionItem} (le : now ≤ later)
    (isOlder : older.lastActiveTime ≤ item.lastActiveTime)
    (old : expired maxIdleTime now item = true) : expired maxIdleTime later older = true := by
  rw [expired_iff] at old ⊢
  have longer : (now - item.lastActiveTime) / 1000000000 ≤
      (later - older.lastActiveTime) / 1000000000 :=
    Nat.div_le_div_right (by omega)
  omega

/-- The loop on a queue in order takes out what is too old when it leaves, and
nothing else. -/
theorem sweepQueue_eq_filter (maxIdleTime : Int) (clock : SweepClock) (ordered : InOrder items) :
    (sweepQueue maxIdleTime clock items).kept = items.filter
        (fun item => !expired maxIdleTime (sweepQueue maxIdleTime clock items).clock.now item) ∧
      (sweepQueue maxIdleTime clock items).closed = (items.filter
        (expired maxIdleTime (sweepQueue maxIdleTime clock items).clock.now)).map
          ConnectionItem.fd := by
  induction items generalizing clock with
  | nil => exact ⟨rfl, rfl⟩
  | cons item rest inductionHypothesis =>
      rcases List.pairwise_cons.mp ordered with ⟨oldest, orderedRest⟩
      by_cases old : expired maxIdleTime clock.read.now item = true
      · rcases inductionHypothesis clock.read orderedRest with ⟨kept, closed⟩
        have stillOld : expired maxIdleTime (sweepQueue maxIdleTime clock.read rest).clock.now
            item = true :=
          expired_mono (le_clock_sweepQueue maxIdleTime clock.read rest) (Nat.le_refl _) old
        simp only [sweepQueue, old, if_true, List.filter_cons, stillOld, Bool.not_true,
          Bool.false_eq_true, if_false, List.map_cons]
        exact ⟨kept, congrArg _ closed⟩
      · have young : ∀ other ∈ item :: rest,
            expired maxIdleTime clock.read.now other = false := by
          intro other member
          rw [Bool.eq_false_iff]
          intro otherOld
          rcases List.mem_cons.mp member with rfl | later
          · exact old otherOld
          · exact old (expired_mono (Nat.le_refl _) (oldest other later) otherOld)
        simp only [sweepQueue, old, Bool.false_eq_true, if_false]
        constructor
        · exact (List.filter_eq_self.mpr fun other member => by rw [young other member]; rfl).symm
        · rw [List.filter_eq_nil_iff.mpr fun other member => by simp [young other member]]
          rfl

/-- Every queue is examined. -/
theorem map_found_examined (maxIdleTime : Int) (clock : SweepClock)
    (map : AssocMap Bytes (List ConnectionItem)) :
    (examined maxIdleTime clock map).map Examined.found = map := by
  induction map generalizing clock with
  | nil => rfl
  | cons entry rest inductionHypothesis =>
      exact congrArg (entry :: ·) (inductionHypothesis _)

/-- All queues are examined between the start and the end of the sweep. -/
theorem examined_within {clock : SweepClock} {map : AssocMap Bytes (List ConnectionItem)}
    {queue : Examined} (member : queue ∈ examined maxIdleTime clock map) :
    clock.now ≤ queue.time ∧ queue.time ≤ (sweepMap maxIdleTime clock map).clock.now := by
  induction map generalizing clock with
  | nil => cases member
  | cons entry rest inductionHypothesis =>
      have first := le_clock_sweepQueue maxIdleTime clock entry.2
      rcases List.mem_cons.mp member with rfl | later
      · exact ⟨first, le_clock_sweepMap maxIdleTime _ rest⟩
      · rcases inductionHypothesis later with ⟨after, before⟩
        exact ⟨first.trans after, before⟩

/-- The loop on all queues in order. -/
theorem sweepMap_eq_filter (maxIdleTime : Int) (clock : SweepClock)
    {map : AssocMap Bytes (List ConnectionItem)}
    (ordered : ∀ entry ∈ map, InOrder entry.2) :
    (sweepMap maxIdleTime clock map).kept =
        (examined maxIdleTime clock map).map (Examined.young maxIdleTime) ∧
      (sweepMap maxIdleTime clock map).closed =
        (examined maxIdleTime clock map).flatMap (Examined.old maxIdleTime) := by
  induction map generalizing clock with
  | nil => exact ⟨rfl, rfl⟩
  | cons entry rest inductionHypothesis =>
      rcases sweepQueue_eq_filter maxIdleTime clock
        (ordered entry List.mem_cons_self) with ⟨kept, closed⟩
      rcases inductionHypothesis (sweepQueue maxIdleTime clock entry.2).clock
        (fun other member => ordered other (.tail _ member)) with ⟨othersKept, othersClosed⟩
      simp only [sweepMap, examined, List.map_cons, List.flatMap_cons]
      rw [othersKept, othersClosed]
      unfold Examined.young Examined.old
      dsimp only
      rw [← kept, ← closed]
      exact ⟨rfl, rfl⟩

/-! ## The order of the queues -/

/-- Every queue is in order, and no connection was given back in the future. -/
structure Ordered (pool : ConnectionPool) (now : Nat) : Prop where
  inOrder : ∀ entry ∈ pool.connMap, InOrder entry.2
  past : ∀ entry ∈ pool.connMap, ∀ item ∈ entry.2, item.lastActiveTime ≤ now

namespace Ordered

variable {pool : ConnectionPool} {now : Nat}

theorem later {time : Nat} (ordered : pool.Ordered now) (le : now ≤ time) :
    pool.Ordered time where
  inOrder := ordered.inOrder
  past entry member item queued := (ordered.past entry member item queued).trans le

/-- One queue gets other contents. -/
theorem setQueue (ordered : pool.Ordered now) (key : Bytes) (inOrder : InOrder items)
    (past : ∀ item ∈ items, item.lastActiveTime ≤ now) :
    (pool.setQueue key items).Ordered now := by
  constructor
  · intro entry member
    rcases AssocMap.mem_set member with rfl | kept
    · exact inOrder
    · exact ordered.inOrder entry kept
  · intro entry member
    rcases AssocMap.mem_set member with rfl | kept
    · exact past
    · exact ordered.past entry kept

theorem queue (ordered : pool.Ordered now) (key : Bytes) :
    InOrder (pool.queue key) ∧ ∀ item ∈ pool.queue key, item.lastActiveTime ≤ now := by
  unfold ConnectionPool.queue
  cases found : pool.connMap.lookup key with
  | none => exact ⟨.nil, fun item member => absurd member List.not_mem_nil⟩
  | some items =>
      have member := AssocMap.mem_of_lookup found
      exact ⟨ordered.inOrder _ member, ordered.past _ member⟩

theorem pop (ordered : pool.Ordered now) {key : Bytes} {item : ConnectionItem}
    {rest : List ConnectionItem} (queued : pool.queue key = item :: rest) :
    (pool.setQueue key rest).Ordered now := by
  rcases ordered.queue key with ⟨inOrder, past⟩
  rw [queued] at inOrder past
  exact ordered.setQueue key (List.pairwise_cons.mp inOrder).2
    fun other member => past other (.tail _ member)

theorem releaseConnection (ordered : pool.Ordered now) (key : Bytes) (fd : Fd) :
    (pool.releaseConnection key fd now).Ordered now := by
  rcases ordered.queue key with ⟨inOrder, past⟩
  apply ordered.setQueue key
  · apply List.pairwise_append.mpr
    refine ⟨inOrder, List.pairwise_singleton _ _, ?_⟩
    intro item member last isLast
    cases List.mem_singleton.mp isLast
    exact past item member
  · intro item member
    rcases List.mem_append.mp member with queued | isLast
    · exact past item queued
    · cases List.mem_singleton.mp isLast
      exact Nat.le_refl _

theorem cleanIdleConnections (clock : SweepClock) (ordered : pool.Ordered clock.now) :
    (pool.cleanIdleConnections clock).kept.Ordered
      (pool.cleanIdleConnections clock).clock.now := by
  have sublists : ∀ entry ∈ (pool.cleanIdleConnections clock).kept.connMap,
      ∃ whole ∈ pool.connMap, entry.2.Sublist whole.2 := by
    intro entry member
    have kept : entry ∈ (examined pool.maxIdleTime clock pool.connMap).map
        (Examined.young pool.maxIdleTime) := by
      rw [← (sweepMap_eq_filter pool.maxIdleTime clock ordered.inOrder).1]
      exact member
    rcases List.mem_map.mp kept with ⟨queue, inside, rfl⟩
    refine ⟨queue.found, ?_, List.filter_sublist⟩
    rw [← map_found_examined pool.maxIdleTime clock pool.connMap]
    exact List.mem_map_of_mem inside
  have clockLe := le_clock_sweepMap pool.maxIdleTime clock pool.connMap
  constructor
  · intro entry member
    rcases sublists entry member with ⟨whole, inside, sublist⟩
    exact (ordered.inOrder whole inside).sublist sublist
  · intro entry member item queued
    rcases sublists entry member with ⟨whole, inside, sublist⟩
    exact (ordered.past whole inside item (sublist.subset queued)).trans clockLe

end Ordered

end ConnectionPool

namespace ClientState

variable {Msg : Type u}

theorem ordered_of_stepped {s t : ClientState Msg} {action : ClientAction Msg}
    (ordered : s.pool.Ordered s.now) (stepped : Stepped s action t) : t.pool.Ordered t.now := by
  cases stepped with
  | reused found awake queued => exact ordered.pop queued
  | reserved found awake queued below => exact ⟨ordered.inOrder, ordered.past⟩
  | connectFailed found connecting notified =>
      rw [notifyOne_pool notified, notifyOne_now notified]
      exact ⟨ordered.inOrder, ordered.past⟩
  | released found releasing => exact ordered.releaseConnection _ _
  | notified found notifying notified =>
      rw [notifyOne_pool notified, notifyOne_now notified]
      exact ordered
  | swept delays cleaned =>
      subst cleaned
      exact ConnectionPool.Ordered.cleanIdleConnections ⟨s.now, delays⟩ ordered
  | elapsed time => exact ordered.later (Nat.le_add_right _ _)
  | _ => exact ordered

theorem ordered_of_reachable {maxConnections maxIdleTime : Int} {s : ClientState Msg}
    (reached : Reachable next Unrestricted (start maxConnections maxIdleTime) s) :
    s.pool.Ordered s.now := by
  apply reached.invariant
  · exact ⟨fun entry member => absurd member List.not_mem_nil,
      fun entry member => absurd member List.not_mem_nil⟩
  · intro state action successor ordered _ step
    exact ordered_of_stepped ordered (stepped_of_next step)

/-- Whatever calls and sweeps came before, the queues are in the order of their
times.  So one more sweep closes the connections that are too old when their
queue is examined, keeps all others, and counts down by one for each. -/
theorem sweep_closes_expired {maxConnections maxIdleTime : Int} {s : ClientState Msg}
    (reached : Reachable next Unrestricted (start maxConnections maxIdleTime) s) :
    (∀ entry ∈ s.pool.connMap, ConnectionPool.InOrder entry.2) ∧
      ∀ delays, ∃ queues closed t, s.next (.sweep delays) = some t ∧
        queues = ConnectionPool.examined s.pool.maxIdleTime ⟨s.now, delays⟩ s.pool.connMap ∧
        queues.map ConnectionPool.Examined.found = s.pool.connMap ∧
        (∀ queue ∈ queues, s.now ≤ queue.time ∧ queue.time ≤ t.now) ∧
        t.pool.connMap = queues.map (ConnectionPool.Examined.young s.pool.maxIdleTime) ∧
        closed = queues.flatMap (ConnectionPool.Examined.old s.pool.maxIdleTime) ∧
        (∀ fd, t.sockets fd = if fd ∈ closed then none else s.sockets fd) ∧
        t.pool.curConnCount = s.pool.curConnCount - closed.length := by
  have ordered := ordered_of_reachable reached
  refine ⟨ordered.inOrder, fun delays => ?_⟩
  rcases ConnectionPool.sweepMap_eq_filter s.pool.maxIdleTime ⟨s.now, delays⟩
    ordered.inOrder with ⟨kept, closed⟩
  refine ⟨_, _, _, rfl, rfl, ConnectionPool.map_found_examined _ _ _, ?_, kept, closed, ?_, rfl⟩
  · intro queue member
    exact ConnectionPool.examined_within member
  · intro fd
    rfl

/-- Two connections to one provider, given back 61 seconds apart. -/
theorem sweep_of_old_and_young :
    ∃ s : ClientState RpcHeader, Reachable next Unrestricted (start 5000 60) s ∧
      s.pool.queue localEndpoint.key = [⟨7, 0⟩, ⟨8, 61000000000⟩] ∧
      (∀ entry ∈ s.pool.connMap, ConnectionPool.InOrder entry.2) ∧
      ∀ delays, ∃ queues closed t, s.next (.sweep delays) = some t ∧
        queues = ConnectionPool.examined s.pool.maxIdleTime ⟨s.now, delays⟩ s.pool.connMap ∧
        queues.map ConnectionPool.Examined.found = s.pool.connMap ∧
        (∀ queue ∈ queues, s.now ≤ queue.time ∧ queue.time ≤ t.now) ∧
        t.pool.connMap = queues.map (ConnectionPool.Examined.young s.pool.maxIdleTime) ∧
        closed = queues.flatMap (ConnectionPool.Examined.old s.pool.maxIdleTime) ∧
        (∀ fd, t.sockets fd = if fd ∈ closed then none else s.sockets fd) ∧
        t.pool.curConnCount = s.pool.curConnCount - closed.length := by
  have run : ∃ s : ClientState RpcHeader, Reachable next Unrestricted (start 5000 60) s ∧
      s.pool.queue localEndpoint.key = [⟨7, 0⟩, ⟨8, 61000000000⟩] := by
    apply exists_reachable [spawnAt localEndpoint, spawnAt localEndpoint, .enter 0, .enter 1,
      .connected 0 7, .connected 1 8, .send 0 2 [], .send 1 2 [], .deliver 7 [10, 1, 97] true,
      .recv 0 3, .release 0, .elapse 61000000000, .deliver 8 [10, 1, 97] true, .recv 1 3,
      .release 1]
    · exact Meets.unrestricted _ _ _
    · decide +kernel
  rcases run with ⟨s, reached, queued⟩
  exact ⟨s, reached, queued, sweep_closes_expired reached⟩

end ClientState

end Mprpc.Client
