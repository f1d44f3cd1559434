import Mprpc.Data.AssocMap
import Mprpc.Net.Socket

/-!
# Idle connections: `ConnectionPool`

Each critical section of the pool is one function on its data.  Waiting and
waking belong to the threads and are left to the system that runs them; here
`getConnection` says whether its caller leaves with a connection, with a
reserved slot or has to wait.
-/

namespace Mprpc.Client

open Mprpc.Net

/-- `struct ConnectionItem`; the time is in nanoseconds of the steady clock. -/
structure ConnectionItem where
  fd : Fd
  lastActiveTime : Nat
  deriving DecidableEq, Repr

/-- `class ConnectionPool`. -/
structure ConnectionPool where
  maxConnections : Int := 5000
  maxIdleTime : Int := 60
  curConnCount : Int := 0
  connMap : AssocMap Bytes (List ConnectionItem) := []
  deriving DecidableEq, Repr

/-- How the locked part of `GetConnection` ends. -/
inductive Acquired
  | reused (fd : Fd) (pool : ConnectionPool)
  | reserved (pool : ConnectionPool)
  | waits
  deriving DecidableEq, Repr

/-- The steady clock as one sweep reads it: `delays` lists the time that passes
before each reading. -/
structure SweepClock where
  now : Nat
  delays : List Nat := []
  deriving DecidableEq, Repr

def SweepClock.read (clock : SweepClock) : SweepClock where
  now := clock.now + clock.delays.headD 0
  delays := clock.delays.tail

/-- What a sweep closes, what it keeps and where it leaves the clock. -/
structure Swept (κ : Type) where
  closed : List Fd
  kept : κ
  clock : SweepClock

namespace ConnectionPool

/-- `m_connMap[key]`.  The empty queue that `operator[]` makes for an absent key
cannot be told from none. -/
def queue (pool : ConnectionPool) (key : Bytes) : List ConnectionItem :=
  (pool.connMap.lookup key).getD []

def setQueue (pool : ConnectionPool) (key : Bytes) (items : List ConnectionItem) :
    ConnectionPool :=
  { pool with connMap := AssocMap.set key items pool.connMap }

/-- The predicate of `m_cv.wait`. -/
def ready (pool : ConnectionPool) (key : Bytes) : Bool :=
  decide (pool.curConnCount < pool.maxConnections) || !(pool.queue key).isEmpty

/-- `GetConnection` under its lock, on entry and after each wake-up: a queued
connection first, then a new one if the predicate holds. -/
def getConnection (pool : ConnectionPool) (key : Bytes) : Acquired :=
  match pool.queue key with
  | item :: rest => .reused item.fd (pool.setQueue key rest)
  | [] =>
      if pool.ready key then
        .reserved { pool with curConnCount := pool.curConnCount + 1 }
      else .waits

/-- The second critical section of `GetConnection`, after a failed connect. -/
def connectFailed (pool : ConnectionPool) : ConnectionPool :=
  { pool with curConnCount := pool.curConnCount - 1 }

/-- `ReleaseConnection` under its lock. -/
def releaseConnection (pool : ConnectionPool) (key : Bytes) (fd : Fd) (now : Nat) :
    ConnectionPool :=
  pool.setQueue key (pool.queue key ++ [⟨fd, now⟩])

/-- The test of `CleanIdleConnections`, in whole seconds. -/
def expired (maxIdleTime : Int) (now : Nat) (item : ConnectionItem) : Bool :=
  decide (maxIdleTime < ((now - item.lastActiveTime) / 1000000000 : Nat))

/-- The loop on one queue; it stops at the first item that is young enough. -/
def sweepQueue (maxIdleTime : Int) (clock : SweepClock) :
    List ConnectionItem → Swept (List ConnectionItem)
  | [] => ⟨[], [], clock⟩
  | item :: rest =>
      let clock := clock.read
      if expired maxIdleTime clock.now item then
        let swept := sweepQueue maxIdleTime clock rest
        ⟨item.fd :: swept.closed, swept.kept, swept.clock⟩
      else ⟨[], item :: rest, clock⟩

/-- The loop over all queues. -/
def sweepMap (maxIdleTime : Int) (clock : SweepClock) :
    AssocMap Bytes (List ConnectionItem) → Swept (AssocMap Bytes (List ConnectionItem))
  | [] => ⟨[], [], clock⟩
  | (key, items) :: rest =>
      let first := sweepQueue maxIdleTime clock items
      let others := sweepMap maxIdleTime first.clock rest
      ⟨first.closed ++ others.closed, (key, first.kept) :: others.kept, others.clock⟩

/-- One pass of `CleanIdleConnections`. -/
def cleanIdleConnections (pool : ConnectionPool) (clock : SweepClock) : Swept ConnectionPool :=
  let swept := sweepMap pool.maxIdleTime clock pool.connMap
  ⟨swept.closed,
    { pool with
      connMap := swept.kept
      curConnCount := pool.curConnCount - swept.closed.length },
    swept.clock⟩

/-! ## Idle connections -/

/-- The number of queue positions whose descriptor meets a test. -/
def idleThat (test : Fd → Bool) (pool : ConnectionPool) : Nat :=
  AssocMap.total (fun items => items.countP fun item => test item.fd) pool.connMap

/-- The number of idle connections in all queues. -/
def idleCount (pool : ConnectionPool) : Nat :=
  pool.idleThat fun _ => true

/-- How often a descriptor stands in the queues. -/
def idleWith (pool : ConnectionPool) (fd : Fd) : Nat :=
  pool.idleThat fun other => other == fd

/-- The accounting rule for one queue. -/
theorem idleThat_setQueue (test : Fd → Bool) (pool : ConnectionPool) (key : Bytes)
    (items : List ConnectionItem) :
    (pool.setQueue key items).idleThat test +
        (pool.queue key).countP (fun item => test item.fd) =
      pool.idleThat test + items.countP fun item => test item.fd := by
  have accounted := AssocMap.total_set
    (fun items : List ConnectionItem => items.countP fun item => test item.fd)
    key items pool.connMap
  unfold queue
  cases found : pool.connMap.lookup key with
  | none =>
      rw [found] at accounted
      simpa [idleThat, setQueue] using accounted
  | some old =>
      rw [found] at accounted
      simpa [idleThat, setQueue] using accounted

theorem queue_setQueue (pool : ConnectionPool) (key other : Bytes)
    (items : List ConnectionItem) :
    (pool.setQueue key items).queue other = if other = key then items else pool.queue other := by
  simp only [queue, setQueue, AssocMap.lookup_set]
  split
  · rfl
  · rfl

/-- What the three results of `getConnection` say. -/
theorem getConnection_eq_reused_iff {pool next : ConnectionPool} {key : Bytes} {fd : Fd} :
    pool.getConnection key = .reused fd next ↔
      ∃ item rest, pool.queue key = item :: rest ∧ item.fd = fd ∧
        pool.setQueue key rest = next := by
  cases queued : pool.queue key with
  | nil =>
      simp only [getConnection, queued]
      split
      · simp
      · simp
  | cons item rest => simp [getConnection, queued]

theorem getConnection_eq_reserved_iff {pool next : ConnectionPool} {key : Bytes} :
    pool.getConnection key = .reserved next ↔
      pool.queue key = [] ∧ pool.curConnCount < pool.maxConnections ∧
        { pool with curConnCount := pool.curConnCount + 1 } = next := by
  cases queued : pool.queue key with
  | nil =>
      by_cases below : pool.curConnCount < pool.maxConnections
      · simp [getConnection, queued, ready, below]
      · simp [getConnection, queued, ready, below]
  | cons item rest => simp [getConnection, queued]

theorem getConnection_eq_waits_iff {pool : ConnectionPool} {key : Bytes} :
    pool.getConnection key = .waits ↔
      pool.queue key = [] ∧ pool.maxConnections ≤ pool.curConnCount := by
  cases queued : pool.queue key with
  | nil => simp [getConnection, queued, ready]
  | cons item rest => simp [getConnection, queued]

/-- A sweep splits a queue: the closed descriptors are those in front. -/
theorem sweepQueue_split (maxIdleTime : Int) (clock : SweepClock) (items : List ConnectionItem) :
    ∃ gone, items = gone ++ (sweepQueue maxIdleTime clock items).kept ∧
      (sweepQueue maxIdleTime clock items).closed = gone.map ConnectionItem.fd := by
  induction items generalizing clock with
  | nil => exact ⟨[], rfl, rfl⟩
  | cons item rest inductionHypothesis =>
      by_cases old : expired maxIdleTime clock.read.now item = true
      · rcases inductionHypothesis clock.read with ⟨gone, split, closed⟩
        refine ⟨item :: gone, ?_, ?_⟩
        · simp [sweepQueue, old, ← split]
        · simp [sweepQueue, old, closed]
      · exact ⟨[], by simp [sweepQueue, old], by simp [sweepQueue, old]⟩

theorem total_sweepMap (test : Fd → Bool) (maxIdleTime : Int) (clock : SweepClock)
    (map : AssocMap Bytes (List ConnectionItem)) :
    AssocMap.total (fun items => items.countP fun item => test item.fd)
        (sweepMap maxIdleTime clock map).kept +
      (sweepMap maxIdleTime clock map).closed.countP test =
        AssocMap.total (fun items => items.countP fun item => test item.fd) map := by
  induction map generalizing clock with
  | nil => rfl
  | cons entry rest inductionHypothesis =>
      rcases entry with ⟨key, items⟩
      rcases sweepQueue_split maxIdleTime clock items with ⟨gone, split, closed⟩
      have others := inductionHypothesis (sweepQueue maxIdleTime clock items).clock
      have counted : items.countP (fun item => test item.fd) =
          gone.countP (fun item => test item.fd) +
            (sweepQueue maxIdleTime clock items).kept.countP fun item => test item.fd := by
        rw [← List.countP_append, ← split]
      simp only [AssocMap.total] at others
      simp only [sweepMap, AssocMap.total, List.map_cons, List.sum_cons, List.countP_append,
        closed, List.countP_map, Function.comp_def]
      omega

/-- A sweep that closes nothing leaves the pool as it was. -/
theorem kept_eq_of_closed_nil {pool : ConnectionPool} {clock : SweepClock}
    (nothing : (pool.cleanIdleConnections clock).closed = []) :
    (pool.cleanIdleConnections clock).kept = pool := by
  have sameMap : ∀ (map : AssocMap Bytes (List ConnectionItem)) (clock : SweepClock),
      (sweepMap pool.maxIdleTime clock map).closed = [] →
        (sweepMap pool.maxIdleTime clock map).kept = map := by
    intro map
    induction map with
    | nil => intro _ _; rfl
    | cons entry rest inductionHypothesis =>
        intro clock closed
        rcases entry with ⟨key, items⟩
        rcases sweepQueue_split pool.maxIdleTime clock items with ⟨gone, split, goneClosed⟩
        rcases List.append_eq_nil_iff.mp closed with ⟨first, others⟩
        have noneGone : gone = [] := List.map_eq_nil_iff.mp (goneClosed.symm.trans first)
        rw [noneGone, List.nil_append] at split
        simp only [sweepMap]
        rw [← split, inductionHypothesis _ others]
  have closed : (sweepMap pool.maxIdleTime clock pool.connMap).closed = [] := nothing
  simp only [cleanIdleConnections, sameMap _ _ closed, closed, List.length_nil, Int.natCast_zero,
    Int.sub_zero]

/-- What a sweep closes it takes out of the queues. -/
theorem idleThat_cleanIdleConnections (test : Fd → Bool) (pool : ConnectionPool)
    (clock : SweepClock) :
    (pool.cleanIdleConnections clock).kept.idleThat test +
        (pool.cleanIdleConnections clock).closed.countP test =
      pool.idleThat test :=
  total_sweepMap test pool.maxIdleTime clock pool.connMap

/-- Taking out the front of a queue. -/
theorem idleWith_pop {pool : ConnectionPool} {key : Bytes} {item : ConnectionItem}
    {rest : List ConnectionItem} (queued : pool.queue key = item :: rest) (fd : Fd) :
    (pool.setQueue key rest).idleWith fd + (if item.fd = fd then 1 else 0) =
      pool.idleWith fd := by
  have accounted := idleThat_setQueue (fun other => other == fd) pool key rest
  simp only [queued, List.countP_cons, beq_iff_eq] at accounted
  unfold idleWith
  omega

theorem idleWith_releaseConnection (pool : ConnectionPool) (key : Bytes) (fd : Fd) (now : Nat)
    (other : Fd) :
    (pool.releaseConnection key fd now).idleWith other =
      pool.idleWith other + if fd = other then 1 else 0 := by
  have accounted := idleThat_setQueue (fun third => third == other) pool key
    (pool.queue key ++ [⟨fd, now⟩])
  simp only [List.countP_append, List.countP_singleton, beq_iff_eq] at accounted
  unfold idleWith releaseConnection
  omega

theorem idleWith_cleanIdleConnections (pool : ConnectionPool) (clock : SweepClock) (fd : Fd) :
    (pool.cleanIdleConnections clock).kept.idleWith fd +
        (pool.cleanIdleConnections clock).closed.count fd =
      pool.idleWith fd :=
  idleThat_cleanIdleConnections (fun other => other == fd) pool clock

theorem idleWith_pos_iff {pool : ConnectionPool} {fd : Fd} :
    0 < pool.idleWith fd ↔
      ∃ entry ∈ pool.connMap, ∃ item ∈ entry.2, item.fd = fd := by
  simp [idleWith, idleThat, AssocMap.total_pos_iff, List.countP_pos_iff]

theorem mem_connMap_of_queue {pool : ConnectionPool} {key : Bytes} {item : ConnectionItem}
    (queued : item ∈ pool.queue key) : (key, pool.queue key) ∈ pool.connMap := by
  unfold queue at queued ⊢
  cases found : pool.connMap.lookup key with
  | none => simp [found] at queued
  | some items => exact AssocMap.mem_of_lookup found

/-- Taking out the front of a queue adds nothing to any queue. -/
theorem within_pop {pool : ConnectionPool} {key other : Bytes} {item : ConnectionItem}
    {rest kept : List ConnectionItem} (queued : pool.queue key = item :: rest)
    (entry : (other, kept) ∈ (pool.setQueue key rest).connMap) :
    ∃ items, (other, items) ∈ pool.connMap ∧ ∀ item ∈ kept, item ∈ items := by
  rcases AssocMap.mem_set entry with assigned | old
  · cases assigned
    have front : item ∈ pool.queue key := by
      rw [queued]
      exact .head _
    refine ⟨_, mem_connMap_of_queue front, ?_⟩
    intro later member
    rw [queued]
    exact .tail _ member
  · exact ⟨kept, old, fun _ member => member⟩

/-- A sweep adds nothing to any queue. -/
theorem mem_sweepMap {maxIdleTime : Int} {clock : SweepClock}
    {map : AssocMap Bytes (List ConnectionItem)} {key : Bytes} {kept : List ConnectionItem}
    (entry : (key, kept) ∈ (sweepMap maxIdleTime clock map).kept) :
    ∃ items, (key, items) ∈ map ∧ ∀ item ∈ kept, item ∈ items := by
  induction map generalizing clock with
  | nil => cases entry
  | cons first rest inductionHypothesis =>
      rcases first with ⟨other, items⟩
      simp only [sweepMap, List.mem_cons, Prod.mk.injEq] at entry
      rcases entry with ⟨rfl, rfl⟩ | later
      · rcases sweepQueue_split maxIdleTime clock items with ⟨gone, split, -⟩
        refine ⟨items, .head _, ?_⟩
        intro item member
        rw [split]
        exact List.mem_append_right gone member
      · rcases inductionHypothesis later with ⟨found, member, within⟩
        exact ⟨found, .tail _ member, within⟩

/-- A sweep reads the clock and never turns it back. -/
theorem le_clock_sweepQueue (maxIdleTime : Int) (clock : SweepClock)
    (items : List ConnectionItem) :
    clock.now ≤ (sweepQueue maxIdleTime clock items).clock.now := by
  induction items generalizing clock with
  | nil => exact Nat.le_refl _
  | cons item rest inductionHypothesis =>
      have read : clock.now ≤ clock.read.now := Nat.le_add_right _ _
      unfold sweepQueue
      dsimp only
      split
      · exact read.trans (inductionHypothesis clock.read)
      · exact read

theorem le_clock_sweepMap (maxIdleTime : Int) (clock : SweepClock)
    (map : AssocMap Bytes (List ConnectionItem)) :
    clock.now ≤ (sweepMap maxIdleTime clock map).clock.now := by
  induction map generalizing clock with
  | nil => exact Nat.le_refl _
  | cons entry rest inductionHypothesis =>
      rcases entry with ⟨key, items⟩
      exact (le_clock_sweepQueue maxIdleTime clock items).trans (inductionHypothesis _)

end ConnectionPool

end Mprpc.Client
