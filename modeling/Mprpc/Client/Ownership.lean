import Mprpc.Client.Process

/-!
# Who owns a connection

Every descriptor that a call holds or that waits in a queue is open, belongs to
one call or one queue position, and is connected to the address it is used for.
The invariant needs no assumption on the run: descriptors are closed by their
owner only, so the system cannot hand out the number of a connection in use.
-/

namespace Mprpc.Client

open Mprpc.Net
open Mprpc.Rpc
open Mprpc.Transition

universe u

namespace ClientState

variable {Msg : Type u}

/-- A call holds a descriptor. -/
def Holds (s : ClientState Msg) (i : Nat) (fd : Fd) : Prop :=
  ∃ call, s.calls[i]? = some call ∧ call.pc.fd? = some fd

/-- The ownership invariant. -/
structure Owned (s : ClientState Msg) : Prop where
  held_unique : ∀ {i j fd}, s.Holds i fd → s.Holds j fd → i = j
  held_open : ∀ {i : Nat} {call : Call Msg} {fd : Fd}, s.calls[i]? = some call →
    call.pc.fd? = some fd →
      ∃ socket, s.sockets fd = some socket ∧ socket.endpoint.key = call.endpoint.key
  held_not_idle : ∀ {i fd}, s.Holds i fd → s.pool.idleWith fd = 0
  idle_unique : ∀ fd, s.pool.idleWith fd ≤ 1
  idle_open : ∀ {key items item}, (key, items) ∈ s.pool.connMap → item ∈ items →
    ∃ socket, s.sockets item.fd = some socket ∧ socket.endpoint.key = key

/-! ## Calls and queues by index and descriptor -/

theorem holds_setCall {s : ClientState Msg} {i : Nat} {call : Call Msg}
    (found : s.calls[i]? = some call) (other : Call Msg) (j : Nat) (fd : Fd) :
    (s.setCall i other).Holds j fd ↔
      if j = i then other.pc.fd? = some fd else s.Holds j fd := by
  unfold Holds
  rw [getElem?_setCall found]
  split
  · simp
  · rfl

/-- A new call holds nothing, so holders are old calls. -/
theorem found_of_spawn {s : ClientState Msg} {call other : Call Msg} {j : Nat} {fd : Fd}
    (without : call.pc.fd? = none) (found : (s.calls ++ [call])[j]? = some other)
    (holds : other.pc.fd? = some fd) : s.calls[j]? = some other := by
  rw [List.getElem?_append] at found
  split at found
  · exact found
  · have isNew : other = call := List.mem_singleton.mp (List.mem_of_getElem? found)
    rw [isNew, without] at holds
    cases holds

/-! ## What keeps the invariant -/

/-- An open descriptor that nobody owns. -/
structure Free (s : ClientState Msg) (fd : Fd) (key : Bytes) : Prop where
  opened : ∃ socket, s.sockets fd = some socket ∧ socket.endpoint.key = key
  unheld : ∀ j, ¬ s.Holds j fd
  not_idle : s.pool.idleWith fd = 0

namespace Owned

/-- A call moves on: it keeps its descriptor, drops it, or takes one that nobody
owns. -/
theorem move {s : ClientState Msg} (owned : s.Owned) {i : Nat} {call : Call Msg}
    {pc : CallPc Msg} (found : s.calls[i]? = some call)
    (takes : ∀ {fd}, pc.fd? = some fd →
      call.pc.fd? = some fd ∨ s.Free fd call.endpoint.key) :
    (s.setCall i { call with pc := pc }).Owned := by
  have cases_of_holds : ∀ {j fd}, (s.setCall i { call with pc := pc }).Holds j fd →
      s.Holds j fd ∨ j = i ∧ s.Free fd call.endpoint.key := by
    intro j fd holds
    rw [holds_setCall found] at holds
    split at holds
    · rename_i same
      subst same
      rcases takes holds with kept | free
      · exact .inl ⟨call, found, kept⟩
      · exact .inr ⟨rfl, free⟩
    · exact .inl holds
  constructor
  · intro j k fd first second
    rcases cases_of_holds first with firstHeld | ⟨rfl, free⟩
    · rcases cases_of_holds second with secondHeld | ⟨rfl, free⟩
      · exact owned.held_unique firstHeld secondHeld
      · exact absurd firstHeld (free.unheld j)
    · rcases cases_of_holds second with secondHeld | ⟨rfl, -⟩
      · exact absurd secondHeld (free.unheld k)
      · rfl
  · intro j moved fd foundMoved holds
    rw [getElem?_setCall found] at foundMoved
    split at foundMoved
    · cases foundMoved
      change ∃ socket, s.sockets fd = some socket ∧ socket.endpoint.key = call.endpoint.key
      rcases takes holds with kept | free
      · exact owned.held_open found kept
      · exact free.opened
    · exact owned.held_open foundMoved holds
  · intro j fd holds
    rcases cases_of_holds holds with held | ⟨-, free⟩
    · exact owned.held_not_idle held
    · exact free.not_idle
  · exact owned.idle_unique
  · exact owned.idle_open

/-- A call moves on without a connection. -/
theorem moveEmpty {s : ClientState Msg} (owned : s.Owned) {i : Nat} {call : Call Msg}
    {pc : CallPc Msg} (found : s.calls[i]? = some call) (without : pc.fd? = none) :
    (s.setCall i { call with pc := pc }).Owned := by
  apply owned.move found
  intro fd takes
  rw [without] at takes
  cases takes

/-- Sockets may change as long as those in use stay open to the same address. -/
theorem setSockets {s : ClientState Msg} (owned : s.Owned) {sockets : Fd → Option Socket}
    (keeps : ∀ {fd socket}, (∃ i, s.Holds i fd) ∨ 0 < s.pool.idleWith fd →
      s.sockets fd = some socket →
        ∃ kept, sockets fd = some kept ∧ kept.endpoint = socket.endpoint) :
    { s with sockets := sockets }.Owned := by
  constructor
  · exact owned.held_unique
  · intro i call fd found holds
    rcases owned.held_open found holds with ⟨socket, opened, endpoint⟩
    rcases keeps (.inl ⟨i, call, found, holds⟩) opened with ⟨kept, stays, same⟩
    exact ⟨kept, stays, by rw [same, endpoint]⟩
  · exact owned.held_not_idle
  · exact owned.idle_unique
  · intro key items item entry queued
    rcases owned.idle_open entry queued with ⟨socket, opened, endpoint⟩
    have idle := ConnectionPool.idleWith_pos_iff.mpr ⟨_, entry, item, queued, rfl⟩
    rcases keeps (.inr idle) opened with ⟨kept, stays, same⟩
    exact ⟨kept, stays, by rw [same, endpoint]⟩

/-- Time and the record of parsed bytes belong to nobody. -/
theorem setTime {s : ClientState Msg} (owned : s.Owned) (now : Nat) :
    { s with now := now }.Owned :=
  ⟨owned.held_unique, owned.held_open, owned.held_not_idle, owned.idle_unique, owned.idle_open⟩

theorem setParsed {s : ClientState Msg} (owned : s.Owned)
    (parsed : List (Nat × List ResponseByte)) : { s with parsed := parsed }.Owned :=
  ⟨owned.held_unique, owned.held_open, owned.held_not_idle, owned.idle_unique, owned.idle_open⟩

/-- Queues may lose items. -/
theorem setPool {s : ClientState Msg} (owned : s.Owned) {pool : ConnectionPool}
    (fewer : ∀ fd, pool.idleWith fd ≤ s.pool.idleWith fd)
    (within : ∀ {key kept}, (key, kept) ∈ pool.connMap →
      ∃ items, (key, items) ∈ s.pool.connMap ∧ ∀ item ∈ kept, item ∈ items) :
    { s with pool := pool }.Owned := by
  constructor
  · exact owned.held_unique
  · exact owned.held_open
  · intro i fd holds
    exact Nat.le_zero.mp ((fewer fd).trans (Nat.le_of_eq (owned.held_not_idle holds)))
  · intro fd
    exact (fewer fd).trans (owned.idle_unique fd)
  · intro key kept item entry queued
    rcases within entry with ⟨items, member, subset⟩
    exact owned.idle_open member (subset item queued)

/-- Counting connections changes no owner. -/
theorem setCount {s : ClientState Msg} (owned : s.Owned) (count : Int) :
    { s with pool := { s.pool with curConnCount := count } }.Owned :=
  owned.setPool (fun _ => Nat.le_refl _) (fun entry => ⟨_, entry, fun _ member => member⟩)

theorem setSocket {s : ClientState Msg} (owned : s.Owned) {fd : Fd} {socket other : Socket}
    (opened : s.sockets fd = some socket) (same : other.endpoint = socket.endpoint) :
    (s.setSocket fd (some other)).Owned := by
  apply owned.setSockets
  intro used found _ openedUsed
  by_cases isFd : used = fd
  · subst isFd
    rw [opened] at openedUsed
    cases openedUsed
    exact ⟨other, s.sockets_setSocket_self used _, same⟩
  · exact ⟨found, (s.sockets_setSocket_of_ne isFd _).trans openedUsed, rfl⟩

/-- A descriptor that nobody owns may be opened or closed. -/
theorem setSocket_unowned {s : ClientState Msg} (owned : s.Owned) {fd : Fd}
    (socket : Option Socket) (unheld : ∀ j, ¬ s.Holds j fd)
    (notIdle : s.pool.idleWith fd = 0) : (s.setSocket fd socket).Owned := by
  apply owned.setSockets
  intro used found inUse openedUsed
  by_cases isFd : used = fd
  · subst isFd
    rcases inUse with ⟨j, holds⟩ | idle
    · exact absurd holds (unheld j)
    · exact absurd notIdle (Nat.pos_iff_ne_zero.mp idle)
  · exact ⟨found, (s.sockets_setSocket_of_ne isFd _).trans openedUsed, rfl⟩

/-- The front of a queue is taken out. -/
theorem pop {s : ClientState Msg} (owned : s.Owned) {key : Bytes} {item : ConnectionItem}
    {rest : List ConnectionItem} (queued : s.pool.queue key = item :: rest) :
    { s with pool := s.pool.setQueue key rest }.Owned := by
  apply owned.setPool
  · intro fd
    exact Nat.le.intro (ConnectionPool.idleWith_pop queued fd)
  · exact ConnectionPool.within_pop queued

/-- A descriptor that was taken out of a queue belongs to nobody yet. -/
theorem free_of_pop {s : ClientState Msg} (owned : s.Owned) {key : Bytes} {item : ConnectionItem}
    {rest : List ConnectionItem} (queued : s.pool.queue key = item :: rest) :
    { s with pool := s.pool.setQueue key rest }.Free item.fd key := by
  have front : item ∈ s.pool.queue key := by
    rw [queued]
    exact .head _
  have entry := ConnectionPool.mem_connMap_of_queue front
  constructor
  · exact owned.idle_open entry front
  · intro j holds
    have idle := ConnectionPool.idleWith_pos_iff.mpr ⟨_, entry, item, front, rfl⟩
    exact absurd (owned.held_not_idle holds) (Nat.pos_iff_ne_zero.mp idle)
  · have popped := ConnectionPool.idleWith_pop queued item.fd
    have once := owned.idle_unique item.fd
    rw [if_pos rfl] at popped
    change (s.pool.setQueue key rest).idleWith item.fd = 0
    omega

/-- A free descriptor is put into the queue of its address. -/
theorem push {s : ClientState Msg} (owned : s.Owned) {key : Bytes} {fd : Fd}
    (free : s.Free fd key) (now : Nat) :
    { s with pool := s.pool.releaseConnection key fd now }.Owned := by
  have counted := s.pool.idleWith_releaseConnection key fd now
  constructor
  · exact owned.held_unique
  · exact owned.held_open
  · intro i other holds
    have different : fd ≠ other := by
      rintro rfl
      exact free.unheld i holds
    rw [counted, if_neg different]
    exact owned.held_not_idle holds
  · intro other
    rw [counted]
    split
    · rename_i same
      rw [← same, free.not_idle]
    · exact owned.idle_unique other
  · intro other items item entry queued
    rcases AssocMap.mem_set entry with assigned | old
    · cases assigned
      rcases List.mem_append.mp queued with before | pushed
      · exact owned.idle_open (ConnectionPool.mem_connMap_of_queue before) before
      · rw [List.mem_singleton.mp pushed]
        exact free.opened
    · exact owned.idle_open old queued

/-- A descriptor that its only holder lets go of. -/
theorem free_of_drop {s : ClientState Msg} (owned : s.Owned) {i : Nat} {call : Call Msg}
    {pc : CallPc Msg} {fd : Fd} (found : s.calls[i]? = some call)
    (holds : call.pc.fd? = some fd) (drops : pc.fd? = none) :
    (s.setCall i { call with pc := pc }).Free fd call.endpoint.key := by
  have held : s.Holds i fd := ⟨call, found, holds⟩
  constructor
  · exact owned.held_open found holds
  · intro j second
    rw [holds_setCall found, drops] at second
    split at second
    · cases second
    · rename_i different
      exact different (owned.held_unique second held)
  · exact owned.held_not_idle held

theorem notifyOne {s t : ClientState Msg} (owned : s.Owned) {woken : Option Nat}
    (notified : s.notifyOne woken = some t) : t.Owned := by
  rcases notifyOne_eq_some notified with ⟨-, rfl, -⟩ | ⟨j, call, -, found, -, rfl⟩
  · exact owned
  · exact owned.moveEmpty found rfl

/-- What a sweep closes was idle, and is in no queue any more. -/
theorem sweep {s : ClientState Msg} (owned : s.Owned) {clock : SweepClock}
    {swept : Swept ConnectionPool} (cleaned : s.pool.cleanIdleConnections clock = swept)
    (now : Nat) :
    { s with
      pool := swept.kept
      now := now
      sockets := fun fd => if fd ∈ swept.closed then none else s.sockets fd }.Owned := by
  have accounted : ∀ fd, swept.kept.idleWith fd + swept.closed.count fd = s.pool.idleWith fd := by
    intro fd
    rw [← cleaned]
    exact s.pool.idleWith_cleanIdleConnections clock fd
  have pooled : { s with pool := swept.kept, now := now }.Owned := by
    apply (owned.setTime now).setPool
    · intro fd
      exact Nat.le.intro (accounted fd)
    · intro key kept entry
      rw [← cleaned] at entry
      exact ConnectionPool.mem_sweepMap entry
  apply pooled.setSockets
  intro fd socket inUse opened
  have unclosed : fd ∉ swept.closed := by
    intro member
    have closed := List.count_pos_iff.mpr member
    have split := accounted fd
    have once := owned.idle_unique fd
    rcases inUse with ⟨i, holds⟩ | idle
    · have notIdle := owned.held_not_idle holds
      omega
    · have idleKept : 0 < swept.kept.idleWith fd := idle
      omega
  exact ⟨socket, by rw [if_neg unclosed]; exact opened, rfl⟩

/-- A task closes the connection it holds and ends. -/
theorem closeHeld {s : ClientState Msg} (owned : s.Owned) {i : Nat} {call : Call Msg}
    {pc : CallPc Msg} {fd : Fd} (found : s.calls[i]? = some call)
    (holds : call.pc.fd? = some fd) (drops : pc.fd? = none) :
    ((s.setSocket fd none).setCall i { call with pc := pc }).Owned := by
  have free := owned.free_of_drop found holds drops
  exact (owned.moveEmpty found drops).setSocket_unowned none free.unheld free.not_idle

/-- Nobody owns an unused number. -/
theorem free_of_unused {s : ClientState Msg} (owned : s.Owned) {fd : Fd}
    (unused : s.sockets fd = none) : (∀ j, ¬ s.Holds j fd) ∧ s.pool.idleWith fd = 0 := by
  constructor
  · rintro j ⟨holder, found, holds⟩
    rcases owned.held_open found holds with ⟨socket, opened, -⟩
    rw [unused] at opened
    cases opened
  · apply Nat.eq_zero_of_not_pos
    intro idle
    rcases ConnectionPool.idleWith_pos_iff.mp idle with ⟨⟨key, items⟩, entry, item, queued, rfl⟩
    rcases owned.idle_open entry queued with ⟨socket, opened, -⟩
    rw [unused] at opened
    cases opened

/-- `connect` returns an unused number. -/
theorem connect {s : ClientState Msg} (owned : s.Owned) {i : Nat} {call : Call Msg} {fd : Fd}
    (found : s.calls[i]? = some call) (unused : s.sockets fd = none) :
    ((s.setSocket fd (some { endpoint := call.endpoint })).setCall i
      { call with pc := .sending fd }).Owned := by
  rcases owned.free_of_unused unused with ⟨unheld, notIdle⟩
  apply (owned.setSocket_unowned _ unheld notIdle).move found
  intro taken takes
  cases takes
  right
  exact ⟨⟨_, s.sockets_setSocket_self fd _, rfl⟩, unheld, notIdle⟩

theorem spawn {s : ClientState Msg} (owned : s.Owned) (call : Call Msg)
    (without : call.pc.fd? = none) : { s with calls := s.calls ++ [call] }.Owned := by
  constructor
  · rintro j k fd ⟨first, foundFirst, holdsFirst⟩ ⟨second, foundSecond, holdsSecond⟩
    exact owned.held_unique ⟨first, found_of_spawn without foundFirst holdsFirst, holdsFirst⟩
      ⟨second, found_of_spawn without foundSecond holdsSecond, holdsSecond⟩
  · intro j other fd found holds
    exact owned.held_open (found_of_spawn without found holds) holds
  · rintro j fd ⟨other, found, holds⟩
    exact owned.held_not_idle ⟨other, found_of_spawn without found holds, holds⟩
  · exact owned.idle_unique
  · exact owned.idle_open

/-- Every step keeps the owners apart. -/
theorem of_stepped {s t : ClientState Msg} {action : ClientAction Msg} (owned : s.Owned)
    (stepped : Stepped s action t) : t.Owned := by
  cases stepped with
  | spawn endpoint sendRpcStr output => exact owned.spawn _ rfl
  | reused found awake queued =>
      apply (owned.pop queued).move found
      intro fd takes
      cases takes
      exact .inr (owned.free_of_pop queued)
  | reserved found awake queued below => exact (owned.setCount _).moveEmpty found rfl
  | waits found awake queued full => exact owned.moveEmpty found rfl
  | wokeSpuriously found asleep => exact owned.moveEmpty found rfl
  | connected found connecting unused => exact owned.connect found unused
  | connectFailed found connecting notified =>
      have returned : { s with pool := s.pool.connectFailed }.Owned := owned.setCount _
      exact (returned.moveEmpty found rfl).notifyOne notified
  | sent garbled found sending opened bound =>
      apply (owned.setSocket opened (Socket.request_endpoint ..)).move found
      intro fd takes
      rw [sending]
      exact .inl takes
  | sendFailed errno found sending => exact owned.closeHeld found (by rw [sending]; rfl) rfl
  | @received i call fd count socket exit found receiving opened ready =>
      have logged := owned.setParsed (s.parsed ++ [(i, socket.inbound.take count)])
      apply (logged.setSocket opened (socket.receive_endpoint count)).move found
      intro fd takes
      rw [receiving]
      exact .inl takes
  | recvFailed errno found receiving => exact owned.closeHeld found (by rw [receiving]; rfl) rfl
  | released found releasing =>
      exact (owned.moveEmpty found rfl).push
        (owned.free_of_drop found (by rw [releasing]; rfl) rfl) _
  | notified found notifying notified =>
      exact (owned.moveEmpty found rfl).notifyOne notified
  | swept delays cleaned => exact owned.sweep cleaned _
  | elapsed time => exact owned.setTime _
  | delivered opened arrived =>
      rcases Socket.deliver_eq_some_iff.mp arrived with ⟨owner, others, -, -, rfl⟩
      exact owned.setSocket opened rfl
  | peerClosed opened => exact owned.setSocket opened rfl

end Owned

theorem owned_start (maxConnections maxIdleTime : Int) :
    (start maxConnections maxIdleTime : ClientState Msg).Owned := by
  constructor
  · rintro i j fd ⟨call, found, -⟩
    cases found
  · intro i call fd found
    cases found
  · intro i fd _
    rfl
  · intro fd
    exact Nat.zero_le 1
  · intro key items item entry
    cases entry

/-- In every run, whatever its steps. -/
theorem owned_of_reachable {allowed : ClientState Msg → ClientAction Msg → Prop}
    {maxConnections maxIdleTime : Int} {s : ClientState Msg}
    (reached : Reachable next allowed (start maxConnections maxIdleTime) s) : s.Owned := by
  apply reached.invariant (owned_start maxConnections maxIdleTime)
  intro state action successor owned _ step
  exact owned.of_stepped (stepped_of_next step)

/-! ## Exclusive ownership -/

/-- The connections of a client as seen from its calls: what a call got from
`GetConnection` is its own and open to the address it asked for, and no sweep
closes it. -/
structure Exclusive (s : ClientState Msg) : Prop where
  held_once : ∀ i j fd, s.Holds i fd → s.Holds j fd → i = j
  idle_once : ∀ fd, s.pool.idleWith fd ≤ 1
  held_not_idle : ∀ i fd, s.Holds i fd → s.pool.idleWith fd = 0
  spared : ∀ i fd, s.Holds i fd →
    ∀ delays, fd ∉ (s.pool.cleanIdleConnections ⟨s.now, delays⟩).closed
  connected : ∀ (i : Nat) (call : Call Msg) (fd : Fd), s.calls[i]? = some call →
    call.pc.fd? = some fd → ∃ socket, s.sockets fd = some socket ∧
      socket.endpoint = call.endpoint

/-- A sweep closes idle connections only. -/
theorem idle_of_closed {pool : ConnectionPool} {clock : SweepClock} {fd : Fd}
    (closed : fd ∈ (pool.cleanIdleConnections clock).closed) : 0 < pool.idleWith fd := by
  have accounted := pool.idleWith_cleanIdleConnections clock fd
  have counted := List.count_pos_iff.mpr closed
  omega

/-- In every run, whatever its steps. -/
theorem exclusive_of_reachable {maxConnections maxIdleTime : Int} {s : ClientState Msg}
    (reached : Reachable next Unrestricted (start maxConnections maxIdleTime) s) :
    s.Exclusive := by
  have owned := owned_of_reachable reached
  constructor
  · intro i j fd first second
    exact owned.held_unique first second
  · exact owned.idle_unique
  · intro i fd holds
    exact owned.held_not_idle holds
  · intro i fd holds delays closed
    exact absurd (owned.held_not_idle holds) (idle_of_closed closed).ne'
  · intro i call fd found holds
    rcases owned.held_open found holds with ⟨socket, opened, sameKey⟩
    exact ⟨socket, opened, Endpoint.key_injective sameKey⟩

/-- Two calls, the second with the connection of the first. -/
theorem exclusive_after_reuse :
    ∃ s : ClientState RpcHeader, Reachable next Unrestricted (start 5000 60) s ∧
      (∃ call, s.calls[1]? = some call ∧ call.pc.fd? = some 7) ∧ s.Exclusive := by
  have run : ∃ s : ClientState RpcHeader, Reachable next Unrestricted (start 5000 60) s ∧
      ∃ call, s.calls[1]? = some call ∧ call.pc.fd? = some 7 := by
    apply exists_reachable [spawnAt localEndpoint, .enter 0, .connected 0 7, .send 0 2 [],
      .deliver 7 [10, 1, 97] true, .recv 0 3, .release 0, .notify 0 none,
      spawnAt localEndpoint, .enter 1]
    · exact Meets.unrestricted ..
    · exact ⟨_, rfl, _, rfl, rfl⟩
  rcases run with ⟨s, reached, holds⟩
  exact ⟨s, reached, holds, exclusive_of_reachable reached⟩

end ClientState

end Mprpc.Client
