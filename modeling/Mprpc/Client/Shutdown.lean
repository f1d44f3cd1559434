import Mprpc.Client.Limit

/-!
# The end of a pool

The process around the pool: its cleaning thread, and `~ConnectionPool`, which
stops that thread, waits for it and closes what is idle.  The record of sockets
that were made and of calls of `close` shows that nothing is closed twice and
what is left open at the end.
-/

namespace Mprpc.Client

open Mprpc.Net
open Mprpc.Rpc
open Mprpc.Transition

universe u

namespace ConnectionPool

/-- The descriptors in the queues. -/
def idleFds (pool : ConnectionPool) : List Fd :=
  pool.connMap.flatMap fun entry => entry.2.map ConnectionItem.fd

/-- The loops of `~ConnectionPool`, which empty every queue. -/
def drain (pool : ConnectionPool) : ConnectionPool :=
  { pool with connMap := pool.connMap.map fun entry => (entry.1, []) }

theorem count_idleFds (pool : ConnectionPool) (fd : Fd) :
    pool.idleFds.count fd = pool.idleWith fd := by
  unfold idleFds idleWith idleThat AssocMap.total
  rw [List.count_flatMap]
  congr 1
  apply List.map_congr_left
  intro entry _
  rw [Function.comp_apply, List.count, List.countP_map]
  rfl

theorem idleWith_drain (pool : ConnectionPool) (fd : Fd) : pool.drain.idleWith fd = 0 := by
  apply Nat.eq_zero_of_not_pos
  intro idle
  rcases idleWith_pos_iff.mp idle with ⟨entry, member, item, queued, -⟩
  rcases List.mem_map.mp member with ⟨old, -, rfl⟩
  cases queued

end ConnectionPool

/-- Where `CleanIdleConnections` stands: at the test of its loop, asleep, or at
its end. -/
inductive CleanerPc
  | testing
  | sleeping
  | exited
  deriving DecidableEq, Repr

/-- Where `~ConnectionPool` stands. -/
inductive DestructorPc
  | notCalled
  | joining
  | done
  deriving DecidableEq, Repr

/-- A client with its cleaning thread, its destructor, and the descriptors that
`connect` returned and those given to `close`, in order. -/
structure PoolLife (Msg : Type u) where
  client : ClientState Msg
  cleaner : CleanerPc := .testing
  stop : Bool := false
  destructor : DestructorPc := .notCalled
  opened : List Fd := []
  closed : List Fd := []

inductive PoolAction (Msg : Type u)
  | client (action : ClientAction Msg)
  /-- `while (!m_stop)` -/
  | test
  /-- the five seconds are over -/
  | clean (delays : List Nat)
  /-- `m_stop = true` -/
  | stop
  /-- the thread is joined, and the queues are closed under the lock -/
  | drain

namespace ClientAction

variable {Msg : Type u}

/-- A step of a call that reads or writes members of the pool. -/
def usesPool : ClientAction Msg → Bool
  | .enter _ | .wakeSpuriously _ | .connectFailed .. | .release _ | .notify .. | .sweep _ => true
  | _ => false

/-- The descriptor that a step opens. -/
def opens : ClientAction Msg → List Fd
  | .connected _ fd => [fd]
  | _ => []

/-- The descriptors that a step gives to `close`. -/
def closes (s : ClientState Msg) : ClientAction Msg → List Fd
  | .sendError i _ | .recvError i _ => ((s.calls[i]?).bind fun call => call.pc.fd?).toList
  | .sweep delays => (s.pool.cleanIdleConnections ⟨s.now, delays⟩).closed
  | _ => []

end ClientAction

/-! ## One step of the client -/

namespace ClientState

variable {Msg : Type u} {s t : ClientState Msg}

/-- Whether a descriptor is open, as a number. -/
def openAt (s : ClientState Msg) (fd : Fd) : Nat :=
  if (s.sockets fd).isSome then 1 else 0

theorem openAt_setSocket (s : ClientState Msg) (fd other : Fd) (socket : Option Socket) :
    (s.setSocket fd socket).openAt other =
      if other = fd then (if socket.isSome then 1 else 0) else s.openAt other := by
  unfold openAt
  by_cases same : other = fd
  · subst same
    rw [sockets_setSocket_self, if_pos rfl]
  · rw [sockets_setSocket_of_ne s same, if_neg same]

/-- A socket that is open stays open. -/
theorem openAt_setSocket_some {fd : Fd} {socket : Socket} (opened : s.sockets fd = some socket)
    (changed : Socket) (other : Fd) :
    (s.setSocket fd (some changed)).openAt other = s.openAt other := by
  rw [openAt_setSocket]
  split
  · rename_i same
    subst same
    simp [openAt, opened]
  · rfl

/-- A task closes the descriptor that it holds. -/
theorem openAt_closeHeld (owned : s.Owned) {i : Nat} {call : Call Msg} {fd : Fd}
    (found : s.calls[i]? = some call) (holds : call.pc.fd? = some fd) (other : Fd) :
    ((s.calls[i]?).bind fun call => call.pc.fd?).toList.count other +
        (s.setSocket fd none).openAt other = s.openAt other := by
  rw [found, Option.bind_some, holds, Option.toList_some, openAt_setSocket,
    List.count_singleton]
  by_cases same : other = fd
  · subst same
    rcases owned.held_open found holds with ⟨socket, opened, -⟩
    simp [openAt, opened]
  · have different : ¬ (fd == other) = true := fun equal => same (beq_iff_eq.mp equal).symm
    rw [if_neg same, if_neg different, Nat.zero_add]

/-- Descriptors that are idle in one queue position may be closed together. -/
theorem openAt_closeIdle (owned : s.Owned) {closed : List Fd} {fd : Fd}
    (idle : closed.count fd ≤ s.pool.idleWith fd) :
    closed.count fd + (if (if fd ∈ closed then none else s.sockets fd).isSome then 1 else 0) =
      s.openAt fd := by
  by_cases member : fd ∈ closed
  · have counted := List.count_pos_iff.mpr member
    have once := owned.idle_unique fd
    rcases ConnectionPool.idleWith_pos_iff.mp (Nat.lt_of_lt_of_le counted idle) with
      ⟨⟨key, items⟩, entry, item, queued, rfl⟩
    rcases owned.idle_open entry queued with ⟨socket, opened, -⟩
    have one : closed.count item.fd = 1 := by omega
    simp [openAt, opened, member, one]
  · rw [List.count_eq_zero.mpr member, if_neg member, Nat.zero_add]
    rfl

/-- `connect` and `close` account for what is open after a step. -/
theorem openAt_of_stepped (owned : s.Owned) {action : ClientAction Msg}
    (stepped : Stepped s action t) (fd : Fd) :
    (action.closes s).count fd + t.openAt fd = action.opens.count fd + s.openAt fd := by
  have quiet : ∀ {later : ClientState Msg}, later.sockets = s.sockets →
      0 + later.openAt fd = 0 + s.openAt fd := by
    intro later same
    rw [openAt, same]
    rfl
  have woken : ∀ {before after : ClientState Msg} {woken : Option Nat},
      before.notifyOne woken = some after → after.sockets = before.sockets := by
    intro before after woken notified
    rcases notifyOne_eq_some notified with ⟨-, rfl, -⟩ | ⟨j, call, -, -, -, rfl⟩
    · rfl
    · rfl
  cases stepped with
  | @connected i call used found connecting unused =>
      have made : (s.setSocket used (some { endpoint := call.endpoint })).openAt fd =
          [used].count fd + s.openAt fd := by
        rw [openAt_setSocket, List.count_singleton]
        by_cases same : fd = used
        · subst same
          simp [openAt, unused]
        · have different : ¬ (used == fd) = true := fun equal => same (beq_iff_eq.mp equal).symm
          rw [if_neg same, if_neg different, Nat.zero_add]
      exact (Nat.zero_add _).trans made
  | sent garbled found sending opened bound =>
      exact congrArg (0 + ·) (openAt_setSocket_some opened _ fd)
  | received found receiving opened ready =>
      exact congrArg (0 + ·) (openAt_setSocket_some opened _ fd)
  | delivered opened arrived => exact congrArg (0 + ·) (openAt_setSocket_some opened _ fd)
  | peerClosed opened => exact congrArg (0 + ·) (openAt_setSocket_some opened _ fd)
  | sendFailed errno found sending =>
      exact (openAt_closeHeld owned found (by rw [sending]; rfl) fd).trans (Nat.zero_add _).symm
  | recvFailed errno found receiving =>
      exact (openAt_closeHeld owned found (by rw [receiving]; rfl) fd).trans (Nat.zero_add _).symm
  | swept delays cleaned =>
      subst cleaned
      have accounted := s.pool.idleWith_cleanIdleConnections ⟨s.now, delays⟩ fd
      have idle : (s.pool.cleanIdleConnections ⟨s.now, delays⟩).closed.count fd ≤
          s.pool.idleWith fd := by omega
      exact (openAt_closeIdle owned idle).trans (Nat.zero_add _).symm
  | connectFailed found connecting notified => exact quiet ((woken notified).trans rfl)
  | notified found notifying notified => exact quiet ((woken notified).trans rfl)
  | _ => exact quiet rfl

/-- Only the locked sections of a call and the sweep change the pool. -/
theorem pool_of_stepped {action : ClientAction Msg} (stepped : Stepped s action t)
    (without : ¬ action.usesPool = true) : t.pool = s.pool := by
  cases stepped with
  | reused | reserved | waits | wokeSpuriously | connectFailed | released | notified | swept =>
      exact absurd rfl without
  | _ => rfl

theorem Owned.drain (owned : s.Owned) :
    { s with
      pool := s.pool.drain
      sockets := fun fd => if fd ∈ s.pool.idleFds then none else s.sockets fd }.Owned := by
  have pooled : { s with pool := s.pool.drain }.Owned := by
    apply owned.setPool
    · intro fd
      rw [ConnectionPool.idleWith_drain]
      exact Nat.zero_le _
    · intro key kept entry
      rcases List.mem_map.mp entry with ⟨⟨_, items⟩, member, same⟩
      cases same
      exact ⟨items, member, nofun⟩
  apply pooled.setSockets
  intro fd socket inUse opened
  rcases inUse with ⟨i, holds⟩ | idle
  · have notIdle := owned.held_not_idle holds
    rw [← ConnectionPool.count_idleFds] at notIdle
    exact ⟨socket, (if_neg (List.count_eq_zero.mp notIdle)).trans opened, rfl⟩
  · rw [ConnectionPool.idleWith_drain] at idle
    exact absurd idle (Nat.lt_irrefl 0)

theorem Kept.drain (kept : s.Kept) :
    { s with
      pool := s.pool.drain
      sockets := fun fd => if fd ∈ s.pool.idleFds then none else s.sockets fd }.Kept := by
  intro fd opened
  dsimp only at opened
  split at opened
  · cases opened
  · rename_i notIdle
    have before := kept fd opened
    have none : s.pool.idleWith fd = 0 := by
      rw [← ConnectionPool.count_idleFds]
      exact List.count_eq_zero.mpr notIdle
    unfold owners at before ⊢
    rw [ConnectionPool.idleWith_drain]
    rw [none] at before
    exact before

end ClientState

namespace PoolLife

variable {Msg : Type u}

def start (maxConnections maxIdleTime : Int) : PoolLife Msg where
  client := .start maxConnections maxIdleTime

/-- A step of the client with its calls of `connect` and `close`. -/
def step (s : PoolLife Msg) (action : ClientAction Msg) : Option (PoolLife Msg) :=
  (s.client.next action).map fun client =>
    { s with
      client := client
      opened := s.opened ++ action.opens
      closed := s.closed ++ action.closes s.client }

/-- One step.  Passes are made by the cleaning thread only.  After the
destructor the pool has no members, and what a call does that uses them is
undefined: such a step has no result. -/
def next (s : PoolLife Msg) : PoolAction Msg → Option (PoolLife Msg)
  | .client (.sweep _) => none
  | .client action =>
      if s.destructor = .done ∧ action.usesPool = true then none else s.step action
  | .test =>
      match s.cleaner with
      | .testing => some { s with cleaner := if s.stop then .exited else .sleeping }
      | _ => none
  | .clean delays =>
      match s.cleaner with
      | .sleeping => (s.step (.sweep delays)).map fun swept => { swept with cleaner := .testing }
      | _ => none
  | .stop =>
      match s.destructor with
      | .notCalled => some { s with stop := true, destructor := .joining }
      | _ => none
  | .drain =>
      match s.destructor, s.cleaner with
      | .joining, .exited =>
          some { s with
            client := { s.client with
              pool := s.client.pool.drain
              sockets := fun fd =>
                if fd ∈ s.client.pool.idleFds then none else s.client.sockets fd }
            destructor := .done
            closed := s.closed ++ s.client.pool.idleFds }
      | _, _ => none

/-- What was opened and not closed is open. -/
def Balanced (s : PoolLife Msg) : Prop :=
  ∀ fd, s.closed.count fd + s.client.openAt fd = s.opened.count fd

variable {s t : PoolLife Msg}

/-- What a life of the pool keeps. -/
structure Sound (s : PoolLife Msg) : Prop where
  owned : s.client.Owned
  kept : s.client.Kept
  balanced : s.Balanced
  exited : s.destructor = .done → s.cleaner = .exited
  drained : s.destructor = .done → ∀ fd, s.client.pool.idleWith fd = 0

theorem Sound.step (sound : s.Sound) {action : ClientAction Msg}
    (kept : s.destructor = .done → ¬ action.usesPool = true) (step : s.step action = some t) :
    t.Sound := by
  rcases Option.map_eq_some_iff.mp step with ⟨client, next, rfl⟩
  have stepped := ClientState.stepped_of_next next
  constructor
  · exact sound.owned.of_stepped stepped
  · exact sound.kept.of_stepped stepped
  · intro fd
    have before := sound.balanced fd
    have change := ClientState.openAt_of_stepped sound.owned stepped fd
    dsimp only
    rw [List.count_append, List.count_append]
    omega
  · exact sound.exited
  · intro done fd
    rw [ClientState.pool_of_stepped stepped (kept done)]
    exact sound.drained done fd

theorem Sound.of_next (sound : s.Sound) {action : PoolAction Msg}
    (step : s.next action = some t) : t.Sound := by
  cases action with
  | client action =>
      have made : (s.destructor = .done → ¬ action.usesPool = true) ∧ s.step action = some t := by
        cases action with
        | sweep delays => cases step
        | _ =>
            simp only [next] at step
            split at step
            · cases step
            · rename_i allowed
              exact ⟨fun done uses => allowed ⟨done, uses⟩, step⟩
      exact sound.step made.1 made.2
  | test =>
      simp only [next] at step
      split at step
      · rename_i testing
        cases step
        refine ⟨sound.owned, sound.kept, sound.balanced, fun done => ?_, sound.drained⟩
        rw [sound.exited done] at testing
        cases testing
      · cases step
  | clean delays =>
      simp only [next] at step
      split at step
      · rename_i sleeping
        rcases Option.map_eq_some_iff.mp step with ⟨swept, stepped, rfl⟩
        have undone : s.destructor ≠ .done := by
          intro done
          rw [sound.exited done] at sleeping
          cases sleeping
        have after := sound.step (fun done => absurd done undone) stepped
        have same : swept.destructor = s.destructor := by
          rcases Option.map_eq_some_iff.mp stepped with ⟨client, -, rfl⟩
          rfl
        refine ⟨after.owned, after.kept, after.balanced, fun done => ?_, after.drained⟩
        exact absurd (same.symm.trans done) undone
      · cases step
  | stop =>
      simp only [next] at step
      split at step
      · cases step
        exact ⟨sound.owned, sound.kept, sound.balanced, nofun, nofun⟩
      · cases step
  | drain =>
      simp only [next] at step
      split at step
      · rename_i joining exited
        cases step
        refine ⟨sound.owned.drain, sound.kept.drain, ?_, fun _ => exited, fun _ => ?_⟩
        · intro fd
          have before := sound.balanced fd
          have idle := Nat.le_of_eq (s.client.pool.count_idleFds fd)
          have change := ClientState.openAt_closeIdle sound.owned idle
          rw [List.count_append, ClientState.openAt]
          dsimp only
          omega
        · exact ConnectionPool.idleWith_drain _
      · cases step

end PoolLife

end Mprpc.Client
