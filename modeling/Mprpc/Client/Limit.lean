import Mathlib.Data.Finset.Card
import Mprpc.Client.Quota

/-!
# The connection limit

A slot is reserved under the lock before the socket is made, and given back
under the lock after the socket is gone, so the counter never falls below the
number of sockets.  A socket error frees a connection without giving its slot
back; this only makes the counter larger.  No socket is open that is neither
held nor idle.
-/

namespace Mprpc.Client

open Mprpc.Net
open Mprpc.Rpc
open Mprpc.Transition

universe u

/-- The share of a program counter in the owners of a descriptor. -/
def CallPc.owns {Msg : Type u} (pc : CallPc Msg) (fd : Fd) : Nat :=
  if pc.fd? = some fd then 1 else 0

/-- A thread that is about to look at the pool holds nothing. -/
theorem CallPc.fd?_of_awake {Msg : Type u} {pc : CallPc Msg}
    (awake : pc = .entering ∨ pc = .notified) : pc.fd? = none := by
  rcases awake with rfl | rfl
  · rfl
  · rfl

namespace ClientState

variable {Msg : Type u}

/-! ## The counter and the limit -/

/-- The counter is never below the connections in use, nor above the limit. -/
structure Limited (s : ClientState Msg) : Prop where
  counted : (s.inUse : Int) ≤ s.pool.curConnCount
  limited : s.pool.curConnCount ≤ max s.pool.maxConnections 0

theorem notifyOne_pool {s t : ClientState Msg} {woken : Option Nat}
    (notified : s.notifyOne woken = some t) : t.pool = s.pool := by
  rcases notifyOne_eq_some notified with ⟨-, rfl, -⟩ | ⟨j, call, -, -, -, rfl⟩
  · rfl
  · rfl

theorem maxConnections_of_stepped {s t : ClientState Msg} {action : ClientAction Msg}
    (stepped : Stepped s action t) : t.pool.maxConnections = s.pool.maxConnections := by
  cases stepped with
  | connectFailed found connecting notified =>
      rw [notifyOne_pool notified]
      rfl
  | notified found notifying notified =>
      rw [notifyOne_pool notified]
      rfl
  | swept delays cleaned =>
      rw [← cleaned]
      rfl
  | _ => rfl

/-- Slots are only reserved below the limit. -/
theorem curConnCount_le_of_stepped {s t : ClientState Msg} {action : ClientAction Msg}
    (limited : s.pool.curConnCount ≤ max s.pool.maxConnections 0) (stepped : Stepped s action t) :
    t.pool.curConnCount ≤ max s.pool.maxConnections 0 := by
  cases stepped with
  | reserved found awake queued below =>
      change s.pool.curConnCount + 1 ≤ _
      omega
  | connectFailed found connecting notified =>
      rw [notifyOne_pool notified]
      change s.pool.curConnCount - 1 ≤ _
      omega
  | notified found notifying notified =>
      rw [notifyOne_pool notified]
      exact limited
  | @swept delays swept cleaned =>
      have count : swept.kept.curConnCount = s.pool.curConnCount - swept.closed.length := by
        rw [← cleaned]
        rfl
      change swept.kept.curConnCount ≤ _
      omega
  | _ => exact limited

/-- Every step keeps the limit; a leak leaves the counter too large, not too small. -/
theorem Limited.of_stepped {s t : ClientState Msg} {action : ClientAction Msg}
    (limited : s.Limited) (stepped : Stepped s action t) : t.Limited := by
  have counted := limited.counted
  have moves : t.pool.curConnCount + s.inUse = s.pool.curConnCount + t.inUse + leaked action :=
    moves_of_stepped stepped
  constructor
  · omega
  · rw [maxConnections_of_stepped stepped]
    exact curConnCount_le_of_stepped limited.limited stepped

/-! ## No socket is lost -/

/-- How many calls and queue positions own a descriptor. -/
def owners (s : ClientState Msg) (fd : Fd) : Nat :=
  (s.calls.countP fun call => call.pc.fd? = some fd) + s.pool.idleWith fd

/-- A call that moves on takes its share of the owners with it. -/
theorem owners_setCall {s : ClientState Msg} {i : Nat} {call : Call Msg}
    (found : s.calls[i]? = some call) (pool : ConnectionPool) (pc : CallPc Msg) (fd : Fd) :
    ({ s with pool := pool }.setCall i { call with pc := pc }).owners fd +
        call.pc.owns fd + s.pool.idleWith fd =
      s.owners fd + pc.owns fd + pool.idleWith fd := by
  have counted := countP_setCall found (fun call => call.pc.fd? = some fd)
    { call with pc := pc }
  simp only [decide_eq_true_eq] at counted
  have moved : ({ s with pool := pool }.setCall i { call with pc := pc }).owners fd =
      ((s.setCall i { call with pc := pc }).calls.countP fun call => call.pc.fd? = some fd) +
        pool.idleWith fd := rfl
  unfold owners CallPc.owns at *
  omega

/-- No socket is lost: it is held or idle until it is closed. -/
def Kept (s : ClientState Msg) : Prop :=
  ∀ fd, (s.sockets fd).isSome = true → 0 < s.owners fd

/-- A call moves on and keeps its descriptor. -/
theorem Kept.move {s : ClientState Msg} (kept : s.Kept) {i : Nat} {call : Call Msg}
    {pc : CallPc Msg} (found : s.calls[i]? = some call) (same : pc.fd? = call.pc.fd?) :
    (s.setCall i { call with pc := pc }).Kept := by
  intro fd opened
  have counted : (s.setCall i { call with pc := pc }).owners fd + _ + _ = _ + _ + _ :=
    owners_setCall found s.pool pc fd
  have before := kept fd opened
  have share : pc.owns fd = call.pc.owns fd := by rw [CallPc.owns, CallPc.owns, same]
  omega

theorem Kept.notifyOne {s t : ClientState Msg} (kept : s.Kept) {woken : Option Nat}
    (notified : s.notifyOne woken = some t) : t.Kept := by
  rcases notifyOne_eq_some notified with ⟨-, rfl, -⟩ | ⟨j, call, -, found, asleep, rfl⟩
  · exact kept
  · exact kept.move found (by rw [asleep]; rfl)

/-- A socket may change, or another one may be opened, where it has an owner. -/
theorem Kept.setSocket {s : ClientState Msg} (kept : s.Kept) {fd : Fd} {socket : Option Socket}
    (owned : socket.isSome = true → 0 < s.owners fd) : (s.setSocket fd socket).Kept := by
  intro other opened
  by_cases same : other = fd
  · subst same
    rw [sockets_setSocket_self] at opened
    exact owned opened
  · rw [sockets_setSocket_of_ne s same] at opened
    exact kept other opened

/-- A call opens a socket that nobody owns, or closes the one that it holds. -/
theorem Kept.replace {s : ClientState Msg} (kept : s.Kept) {i : Nat} {call : Call Msg}
    {pc : CallPc Msg} (found : s.calls[i]? = some call) {fd : Fd} {socket : Option Socket}
    (others : ∀ other, other ≠ fd → pc.owns other = call.pc.owns other)
    (self : socket.isSome = true → call.pc.owns fd = 0 ∧ pc.owns fd = 1) :
    ((s.setSocket fd socket).setCall i { call with pc := pc }).Kept := by
  intro other opened
  have counted : ((s.setSocket fd socket).setCall i { call with pc := pc }).owners other + _ + _ =
      _ + _ + _ := owners_setCall (s := s.setSocket fd socket) found s.pool pc other
  have untouched : (s.setSocket fd socket).owners other = s.owners other := rfl
  have samePool : (s.setSocket fd socket).pool = s.pool := rfl
  rw [untouched, samePool] at counted
  by_cases same : other = fd
  · subst same
    have isOpen : socket.isSome = true := by
      rw [← sockets_setSocket_self s other socket]
      exact opened
    rcases self isOpen with ⟨before, after⟩
    omega
  · have before : 0 < s.owners other := by
      apply kept
      rw [← sockets_setSocket_of_ne s same socket]
      exact opened
    rw [others other same] at counted
    omega

/-- A task closes its connection. -/
theorem Kept.closeHeld {s : ClientState Msg} (kept : s.Kept) {i : Nat} {call : Call Msg}
    {pc : CallPc Msg} {fd : Fd} (found : s.calls[i]? = some call)
    (holds : call.pc.fd? = some fd) (drops : pc.fd? = none) :
    ((s.setSocket fd none).setCall i { call with pc := pc }).Kept := by
  apply kept.replace found
  · intro other different
    simp [CallPc.owns, holds, drops, Ne.symm different]
  · intro isOpen
    cases isOpen

theorem Kept.of_stepped {s t : ClientState Msg} {action : ClientAction Msg} (kept : s.Kept)
    (stepped : Stepped s action t) : t.Kept := by
  cases stepped with
  | spawn endpoint sendRpcStr output =>
      intro fd opened
      have before := kept fd opened
      simpa [owners, CallPc.fd?] using before
  | @reused i call item rest found awake queued =>
      intro fd opened
      have none : call.pc.owns fd = 0 := by rw [CallPc.owns, CallPc.fd?_of_awake awake]; rfl
      have takes : (CallPc.sending item.fd : CallPc Msg).owns fd =
          if item.fd = fd then 1 else 0 := by
        simp [CallPc.owns, CallPc.fd?]
      have counted := owners_setCall found (s.pool.setQueue call.endpoint.key rest)
        (.sending item.fd) fd
      have popped := ConnectionPool.idleWith_pop queued fd
      have before := kept fd opened
      omega
  | reserved found awake queued below =>
      have counted : { s with
          pool := { s.pool with curConnCount := s.pool.curConnCount + 1 } }.Kept := kept
      exact counted.move found (CallPc.fd?_of_awake awake).symm
  | waits found awake queued full =>
      exact kept.move found (CallPc.fd?_of_awake awake).symm
  | wokeSpuriously found asleep => exact kept.move found (by rw [asleep]; rfl)
  | @connected i call fd found connecting unused =>
      have none : ∀ other, call.pc.owns other = 0 := by
        intro other
        rw [connecting]
        rfl
      apply kept.replace found
      · intro other different
        rw [none]
        simp [CallPc.owns, CallPc.fd?, Ne.symm different]
      · intro _
        exact ⟨none fd, if_pos rfl⟩
  | @connectFailed i call woken t found connecting notified =>
      have counted : { s with pool := s.pool.connectFailed }.Kept := kept
      exact (counted.move found (by rw [connecting]; rfl)).notifyOne notified
  | @sent i call fd count socket garbled found sending opened bound =>
      have same : (CallPc.receiving fd : CallPc Msg).fd? = call.pc.fd? := by rw [sending]; rfl
      apply Kept.setSocket (kept.move found same)
      intro _
      exact (kept.move found same) fd (by simp [opened, setCall])
  | sendFailed errno found sending => exact kept.closeHeld found (by rw [sending]; rfl) rfl
  | @received i call fd count socket exit found receiving opened ready =>
      have same : (CallPc.releasing fd exit).fd? = call.pc.fd? := by rw [receiving]; rfl
      have logged : { s with parsed := s.parsed ++ [(i, socket.inbound.take count)] }.Kept := kept
      apply Kept.setSocket (logged.move found same)
      intro _
      exact (kept.move found same) fd (by simp [opened, setCall])
  | recvFailed errno found receiving => exact kept.closeHeld found (by rw [receiving]; rfl) rfl
  | @released i call fd exit found releasing =>
      intro other opened
      have gives : call.pc.owns other = if fd = other then 1 else 0 := by
        simp [releasing, CallPc.owns, CallPc.fd?]
      have none : (CallPc.notifying exit : CallPc Msg).owns other = 0 := rfl
      have counted := owners_setCall found (s.pool.releaseConnection call.endpoint.key fd s.now)
        (.notifying exit) other
      have pushed := s.pool.idleWith_releaseConnection call.endpoint.key fd s.now other
      have before := kept other opened
      omega
  | notified found notifying notified =>
      exact (kept.move found (by rw [notifying]; rfl)).notifyOne notified
  | @swept delays swept cleaned =>
      intro fd opened
      have accounted := s.pool.idleWith_cleanIdleConnections ⟨s.now, delays⟩ fd
      rw [cleaned] at accounted
      by_cases closed : fd ∈ swept.closed
      · simp [closed] at opened
      · have notClosed := List.count_eq_zero.mpr closed
        have before := kept fd (by simpa [closed] using opened)
        have after : swept.kept.idleWith fd = s.pool.idleWith fd := by omega
        change 0 < (s.calls.countP fun call => call.pc.fd? = some fd) + swept.kept.idleWith fd
        rw [after]
        exact before
  | elapsed time => exact kept
  | delivered opened arrived =>
      exact kept.setSocket fun _ => kept _ (by rw [opened]; rfl)
  | peerClosed opened =>
      exact kept.setSocket fun _ => kept _ (by rw [opened]; rfl)

/-! ## Counting sockets -/

/-- The descriptors in the hands of calls and in the queues. -/
def ownedFds (s : ClientState Msg) : List Fd :=
  s.calls.filterMap (fun call => call.pc.fd?) ++
    s.pool.connMap.flatMap fun entry => entry.2.map ConnectionItem.fd

theorem length_ownedFds (s : ClientState Msg) : s.ownedFds.length = s.held + s.pool.idleCount := by
  unfold ownedFds held ConnectionPool.idleCount ConnectionPool.idleThat AssocMap.total
  rw [List.length_append, List.length_filterMap_eq_countP, List.length_flatMap]
  simp

theorem mem_ownedFds {s : ClientState Msg} {fd : Fd} (owned : 0 < s.owners fd) :
    fd ∈ s.ownedFds := by
  unfold owners at owned
  by_cases idle : 0 < s.pool.idleWith fd
  · rcases ConnectionPool.idleWith_pos_iff.mp idle with ⟨entry, queue, item, queued, rfl⟩
    apply List.mem_append_right
    exact List.mem_flatMap.mpr ⟨entry, queue, List.mem_map_of_mem queued⟩
  · have held : 0 < s.calls.countP fun call => call.pc.fd? = some fd := by omega
    rcases List.countP_pos_iff.mp held with ⟨call, member, holds⟩
    apply List.mem_append_left
    exact List.mem_filterMap.mpr ⟨call, member, of_decide_eq_true holds⟩

/-- Sockets are as many as owners at most. -/
theorem Kept.card_le {s : ClientState Msg} (kept : s.Kept) {fds : Finset Fd}
    (opened : ∀ fd ∈ fds, (s.sockets fd).isSome = true) :
    fds.card ≤ s.held + s.pool.idleCount := by
  calc
    fds.card ≤ s.ownedFds.toFinset.card := by
      apply Finset.card_le_card
      intro fd member
      exact List.mem_toFinset.mpr (mem_ownedFds (kept fd (opened fd member)))
    _ ≤ s.ownedFds.length := List.toFinset_card_le _
    _ = s.held + s.pool.idleCount := length_ownedFds s

theorem maxConnections_of_reachable {allowed : ClientState Msg → ClientAction Msg → Prop}
    {maxConnections maxIdleTime : Int} {s : ClientState Msg}
    (reached : Reachable next allowed (start maxConnections maxIdleTime) s) :
    s.pool.maxConnections = maxConnections := by
  apply reached.invariant
  · rfl
  · intro state action successor same _ step
    exact (maxConnections_of_stepped (stepped_of_next step)).trans same

/-- In every run the sockets that are open and those that are being connected are
together no more than the limit, and the counter is not negative. -/
theorem limit_of_reachable {maxConnections maxIdleTime : Int} {s : ClientState Msg}
    (reached : Reachable next Unrestricted (start maxConnections maxIdleTime) s) :
    (∀ fds : Finset Fd, (∀ fd ∈ fds, (s.sockets fd).isSome = true) →
      ((fds.card + s.connecting : Nat) : Int) ≤ max maxConnections 0) ∧
    0 ≤ s.pool.curConnCount := by
  have limited : s.Limited := by
    apply reached.invariant
    · exact ⟨le_rfl, le_max_right _ _⟩
    · intro state action successor limited _ step
      exact limited.of_stepped (stepped_of_next step)
  have kept : s.Kept := by
    apply reached.invariant
    · intro fd opened
      cases opened
    · intro state action successor kept _ step
      exact kept.of_stepped (stepped_of_next step)
  have counted := limited.counted
  have bound := limited.limited
  have limit := maxConnections_of_reachable reached
  have sum : s.inUse = s.pool.idleCount + s.held + s.connecting := rfl
  constructor
  · intro fds opened
    have card := kept.card_le opened
    rw [limit] at bound
    omega
  · omega

/-- A limit of one with a socket that is open. -/
theorem limit_of_one :
    ∃ s : ClientState RpcHeader, Reachable next Unrestricted (start 1 60) s ∧
      (s.sockets 7).isSome = true ∧
      (∀ fds : Finset Fd, (∀ fd ∈ fds, (s.sockets fd).isSome = true) →
        ((fds.card + s.connecting : Nat) : Int) ≤ max 1 0) ∧
      0 ≤ s.pool.curConnCount := by
  have run : ∃ s : ClientState RpcHeader, Reachable next Unrestricted (start 1 60) s ∧
      (s.sockets 7).isSome = true := by
    apply exists_reachable [spawnAt localEndpoint, spawnAt otherEndpoint, .enter 0, .enter 1,
      .connected 0 7]
    · exact Meets.unrestricted ..
    · decide +kernel
  rcases run with ⟨s, reached, opened⟩
  exact ⟨s, reached, opened, limit_of_reachable reached⟩

end ClientState

end Mprpc.Client
