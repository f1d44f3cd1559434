import Mprpc.Client.Ownership

/-!
# No cross-talk on reused connections

A connection may go back to the pool only when the server has nothing left to
send on it.  The task reads once, at most 1024 bytes of what has arrived, and
gives the connection back whatever is still to come; the next call on it then
reads the rest.  As long as every read takes the whole answer, no call sees a
byte of another.
-/

namespace Mprpc.Client

open Mprpc.Net
open Mprpc.Rpc
open Mprpc.Transition

universe u

namespace Socket

/-- Nothing to read, now or later. -/
def Quiet (socket : Socket) : Prop :=
  socket.inbound = [] ∧
    (socket.peerClosed = true ∨ socket.pending = [] ∧ socket.aligned = true)

/-- Whatever there is to read, now or later, answers call `i`.  A server that
got a cut request has nothing to answer. -/
def Awaiting (i : Nat) (socket : Socket) : Prop :=
  (∀ byte ∈ socket.inbound, byte.owner = i) ∧
    (socket.peerClosed = true ∨
      (∀ owner ∈ socket.pending, owner = i) ∧
        (socket.aligned = false → socket.inbound = [] ∧ socket.pending = []))

theorem quiet_new (endpoint : Endpoint) : ({ endpoint := endpoint } : Socket).Quiet :=
  ⟨rfl, .inr ⟨rfl, rfl⟩⟩

theorem Quiet.closePeer {socket : Socket} (quiet : socket.Quiet) : socket.closePeer.Quiet :=
  ⟨quiet.1, .inl rfl⟩

theorem Awaiting.closePeer {i : Nat} {socket : Socket} (awaiting : socket.Awaiting i) :
    socket.closePeer.Awaiting i :=
  ⟨awaiting.1, .inl rfl⟩

/-- A request on a quiet connection makes it wait for the caller. -/
theorem Quiet.request {socket : Socket} (quiet : socket.Quiet) (i count size : Nat)
    (garbled : List Nat) : (socket.request i count size garbled).Awaiting i := by
  rcases quiet with ⟨empty, closed | ⟨settled, aligned⟩⟩
  · unfold Socket.request
    split
    · split
      · exact ⟨by simp [empty], .inl closed⟩
      · exact ⟨by simp [empty], .inl closed⟩
    · exact ⟨by simp [empty], .inl closed⟩
  · unfold Socket.request
    rw [if_pos aligned]
    split
    · exact ⟨by simp [empty], .inr ⟨by simp [settled], by simp [aligned]⟩⟩
    · exact ⟨by simp [empty], .inr ⟨by simp [settled], fun _ => ⟨empty, settled⟩⟩⟩

/-- Nothing arrives on a quiet connection. -/
theorem Quiet.deliver {socket fuller : Socket} {bytes : Bytes} {final : Bool}
    (quiet : socket.Quiet) (arrived : socket.deliver bytes final = some fuller) :
    fuller.Quiet := by
  rcases deliver_eq_some_iff.mp arrived with ⟨owner, others, pending, here, -⟩
  rcases quiet.2 with closed | ⟨settled, -⟩
  · rw [here] at closed
    cases closed
  · rw [settled] at pending
    cases pending

/-- What arrives while a call waits belongs to that call. -/
theorem Awaiting.deliver {i : Nat} {socket fuller : Socket} {bytes : Bytes} {final : Bool}
    (awaiting : socket.Awaiting i) (arrived : socket.deliver bytes final = some fuller) :
    fuller.Awaiting i := by
  rcases deliver_eq_some_iff.mp arrived with ⟨owner, others, pending, here, rfl⟩
  rcases awaiting with ⟨own, closed | ⟨owes, cut⟩⟩
  · rw [here] at closed
    cases closed
  · have isCaller : owner = i := owes owner (by rw [pending]; exact .head _)
    have aligned : socket.aligned = true := by
      by_contra misaligned
      have nothing := (cut (by simpa using misaligned)).2
      rw [pending] at nothing
      cases nothing
    constructor
    · intro byte member
      rcases List.mem_append.mp member with before | new
      · exact own byte before
      · rcases List.mem_map.mp new with ⟨value, -, rfl⟩
        exact isCaller
    · right
      constructor
      · intro other member
        apply owes other
        rw [pending]
        cases final with
        | true => exact .tail _ member
        | false => exact member
      · intro misaligned
        rw [aligned] at misaligned
        cases misaligned

/-- A read of the whole answer leaves the connection quiet. -/
theorem Awaiting.receive {i count : Nat} {socket : Socket} (awaiting : socket.Awaiting i)
    (ready : socket.CanReceive count)
    (whole : 0 < count → count = socket.inbound.length ∧
      (socket.pending = [] ∨ socket.peerClosed = true)) : (socket.receive count).Quiet := by
  rcases Nat.eq_zero_or_pos count with zero | positive
  · rcases ready.2.2 zero with ⟨empty, closed⟩
    exact ⟨by simp [Socket.receive, empty], .inl closed⟩
  · rcases whole positive with ⟨all, settled⟩
    constructor
    · simp [Socket.receive, all]
    · rcases settled with nothing | closed
      · rcases awaiting.2 with closed | ⟨-, cut⟩
        · exact .inl closed
        · right
          constructor
          · exact nothing
          · by_contra misaligned
            have empty := (cut (by simpa [Socket.receive] using misaligned)).1
            rw [empty] at all
            exact absurd all (Nat.pos_iff_ne_zero.mp positive)
      · exact .inl closed

end Socket

/-- What a program counter expects of the connection that its call holds. -/
def CallPc.Expects {Msg : Type u} (i : Nat) : CallPc Msg → Socket → Prop
  | .receiving _, socket => socket.Awaiting i
  | _, socket => socket.Quiet

namespace ClientState

variable {Msg : Type u}

/-- Every `recv` that returns bytes returns all that the server ever sends as
the answer: everything has arrived, and the server has finished or is gone. -/
def TakesWholeAnswer (s : ClientState Msg) : ClientAction Msg → Prop
  | .recv i count =>
      ∀ call ∈ s.calls[i]?, ∀ fd ∈ call.pc.fd?, ∀ socket ∈ s.sockets fd, 0 < count →
        count = socket.inbound.length ∧ (socket.pending = [] ∨ socket.peerClosed = true)
  | _ => True

instance (s : ClientState Msg) :
    (action : ClientAction Msg) → Decidable (TakesWholeAnswer s action)
  | .recv i _ => inferInstanceAs (Decidable (∀ call ∈ s.calls[i]?, _))
  | .spawn .. | .enter _ | .wakeSpuriously _ | .connected .. | .connectFailed .. | .send ..
  | .sendError .. | .recvError .. | .release _ | .notify .. | .sweep _ | .elapse _
  | .deliver .. | .peerClose _ => isTrue trivial

/-- Connections in queues are quiet, held ones are as their calls expect, and
all that was parsed answered the call that parsed it. -/
structure Isolated (s : ClientState Msg) : Prop where
  idle : ∀ {key items item socket}, (key, items) ∈ s.pool.connMap → item ∈ items →
    s.sockets item.fd = some socket → socket.Quiet
  held : ∀ {i : Nat} {call : Call Msg} {fd : Fd} {socket : Socket}, s.calls[i]? = some call →
    call.pc.fd? = some fd → s.sockets fd = some socket → call.pc.Expects i socket
  parsed_own : ∀ {i recvBuf}, (i, recvBuf) ∈ s.parsed → ∀ byte ∈ recvBuf, byte.owner = i

namespace Isolated

/-- A call moves on, and expects no more of its connection than holds. -/
theorem move {s : ClientState Msg} (isolated : s.Isolated) {i : Nat} {call : Call Msg}
    {pc : CallPc Msg} (found : s.calls[i]? = some call)
    (expects : ∀ {fd socket}, pc.fd? = some fd → s.sockets fd = some socket →
      pc.Expects i socket) :
    (s.setCall i { call with pc := pc }).Isolated := by
  constructor
  · exact isolated.idle
  · intro j moved fd socket foundMoved holds opened
    rw [getElem?_setCall found] at foundMoved
    split at foundMoved
    · rename_i same
      cases foundMoved
      rw [same]
      exact expects holds opened
    · exact isolated.held foundMoved holds opened
  · exact isolated.parsed_own

theorem moveEmpty {s : ClientState Msg} (isolated : s.Isolated) {i : Nat} {call : Call Msg}
    {pc : CallPc Msg} (found : s.calls[i]? = some call) (without : pc.fd? = none) :
    (s.setCall i { call with pc := pc }).Isolated := by
  apply isolated.move found
  intro fd socket holds
  rw [without] at holds
  cases holds

/-- Queues may lose items. -/
theorem setPool {s : ClientState Msg} (isolated : s.Isolated) {pool : ConnectionPool}
    (within : ∀ {key kept}, (key, kept) ∈ pool.connMap →
      ∃ items, (key, items) ∈ s.pool.connMap ∧ ∀ item ∈ kept, item ∈ items) :
    { s with pool := pool }.Isolated := by
  constructor
  · intro key kept item socket entry queued opened
    rcases within entry with ⟨items, member, subset⟩
    exact isolated.idle member (subset item queued) opened
  · exact isolated.held
  · exact isolated.parsed_own

/-- Sockets may be closed, or change in a way that keeps every expectation. -/
theorem setSockets {s : ClientState Msg} (isolated : s.Isolated) {sockets : Fd → Option Socket}
    (keeps : ∀ {fd changed}, sockets fd = some changed →
      ∃ socket, s.sockets fd = some socket ∧ (socket.Quiet → changed.Quiet) ∧
        ∀ i, socket.Awaiting i → changed.Awaiting i) :
    { s with sockets := sockets }.Isolated := by
  constructor
  · intro key items item changed entry queued opened
    rcases keeps opened with ⟨socket, before, quiet, -⟩
    exact quiet (isolated.idle entry queued before)
  · intro i call fd changed found holds opened
    rcases keeps opened with ⟨socket, before, quiet, awaiting⟩
    have expected := isolated.held found holds before
    cases pc : call.pc <;> rw [pc] at expected
    case receiving => exact awaiting i expected
    all_goals exact quiet expected
  · exact isolated.parsed_own

/-- A call uses its connection: nobody else is concerned. -/
theorem moveSocket {s : ClientState Msg} (isolated : s.Isolated) {i : Nat} {call : Call Msg}
    {pc : CallPc Msg} {fd : Fd} {socket : Socket} (found : s.calls[i]? = some call)
    (holds : pc.fd? = some fd) (expects : pc.Expects i socket)
    (alone : ∀ j, s.Holds j fd → j = i) (notIdle : s.pool.idleWith fd = 0) :
    ((s.setSocket fd (some socket)).setCall i { call with pc := pc }).Isolated := by
  constructor
  · intro key items item other entry queued opened
    have different : item.fd ≠ fd := by
      rintro rfl
      have idle := ConnectionPool.idleWith_pos_iff.mpr ⟨_, entry, item, queued, rfl⟩
      exact absurd notIdle (Nat.pos_iff_ne_zero.mp idle)
    exact isolated.idle entry queued ((s.sockets_setSocket_of_ne different _).symm.trans opened)
  · intro j moved used other foundMoved uses opened
    have stillFound : (s.setSocket fd (some socket)).calls[i]? = some call := found
    rw [getElem?_setCall stillFound] at foundMoved
    split at foundMoved
    · rename_i same
      cases foundMoved
      rw [holds] at uses
      cases uses
      rw [same]
      cases (s.sockets_setSocket_self fd (some socket)).symm.trans opened
      exact expects
    · rename_i another
      have different : used ≠ fd := by
        rintro rfl
        exact another (alone j ⟨moved, foundMoved, uses⟩)
      have before := (s.sockets_setSocket_of_ne different _).symm.trans opened
      exact isolated.held foundMoved uses before
  · exact isolated.parsed_own

/-- A quiet connection may wait in a queue. -/
theorem push {s : ClientState Msg} (isolated : s.Isolated) (key : Bytes) {fd : Fd} (now : Nat)
    (quiet : ∀ {socket}, s.sockets fd = some socket → socket.Quiet) :
    { s with pool := s.pool.releaseConnection key fd now }.Isolated := by
  constructor
  · intro other items item socket entry queued opened
    rcases AssocMap.mem_set entry with assigned | old
    · cases assigned
      rcases List.mem_append.mp queued with before | pushed
      · exact isolated.idle (ConnectionPool.mem_connMap_of_queue before) before opened
      · rw [List.mem_singleton.mp pushed] at opened
        exact quiet opened
    · exact isolated.idle old queued opened
  · exact isolated.held
  · exact isolated.parsed_own

/-- A call parses bytes of its own answer. -/
theorem log {s : ClientState Msg} (isolated : s.Isolated) {i : Nat} {recvBuf : List ResponseByte}
    (own : ∀ byte ∈ recvBuf, byte.owner = i) :
    { s with parsed := s.parsed ++ [(i, recvBuf)] }.Isolated := by
  constructor
  · exact isolated.idle
  · exact isolated.held
  · intro j bytes member
    rcases List.mem_append.mp member with before | new
    · exact isolated.parsed_own before
    · cases List.mem_singleton.mp new
      exact own

/-- Closing a connection concerns nobody. -/
theorem close {s : ClientState Msg} (isolated : s.Isolated) (fd : Fd) :
    (s.setSocket fd none).Isolated := by
  apply isolated.setSockets
  intro used socket opened
  by_cases same : used = fd
  · subst same
    cases (s.sockets_setSocket_self used none).symm.trans opened
  · have before := (s.sockets_setSocket_of_ne same none).symm.trans opened
    exact ⟨socket, before, id, fun _ => id⟩

/-- The server's side of one connection moves. -/
theorem setSocket {s : ClientState Msg} (isolated : s.Isolated) {fd : Fd}
    {socket changed : Socket} (opened : s.sockets fd = some socket)
    (quiet : socket.Quiet → changed.Quiet)
    (awaiting : ∀ i, socket.Awaiting i → changed.Awaiting i) :
    (s.setSocket fd (some changed)).Isolated := by
  apply isolated.setSockets
  intro used other openedUsed
  by_cases same : used = fd
  · subst same
    cases (s.sockets_setSocket_self used (some changed)).symm.trans openedUsed
    exact ⟨socket, opened, quiet, awaiting⟩
  · have before := (s.sockets_setSocket_of_ne same (some changed)).symm.trans openedUsed
    exact ⟨other, before, id, fun _ => id⟩

theorem notifyOne {s t : ClientState Msg} (isolated : s.Isolated) {woken : Option Nat}
    (notified : s.notifyOne woken = some t) : t.Isolated := by
  rcases notifyOne_eq_some notified with ⟨-, rfl, -⟩ | ⟨j, call, -, found, -, rfl⟩
  · exact isolated
  · exact isolated.moveEmpty found rfl

theorem spawn {s : ClientState Msg} (isolated : s.Isolated) (call : Call Msg)
    (without : call.pc.fd? = none) : { s with calls := s.calls ++ [call] }.Isolated := by
  constructor
  · exact isolated.idle
  · intro j other fd socket found holds opened
    exact isolated.held (found_of_spawn without found holds) holds opened
  · exact isolated.parsed_own

/-- A step that takes whole answers keeps calls apart. -/
theorem of_stepped {s t : ClientState Msg} {action : ClientAction Msg} (owned : s.Owned)
    (isolated : s.Isolated) (allowed : TakesWholeAnswer s action) (stepped : Stepped s action t) :
    t.Isolated := by
  cases stepped with
  | spawn endpoint sendRpcStr output => exact isolated.spawn _ rfl
  | @reused i call item rest found awake queued =>
      have front : item ∈ s.pool.queue call.endpoint.key := by
        rw [queued]
        exact .head _
      have popped : { s with pool := s.pool.setQueue call.endpoint.key rest }.Isolated :=
        isolated.setPool (ConnectionPool.within_pop queued)
      apply popped.move found
      intro fd socket takes opened
      cases takes
      exact isolated.idle (ConnectionPool.mem_connMap_of_queue front) front opened
  | @reserved i call found awake queued below =>
      have counted : { s with pool :=
          { s.pool with curConnCount := s.pool.curConnCount + 1 } }.Isolated :=
        isolated.setPool fun entry => ⟨_, entry, fun _ member => member⟩
      exact counted.moveEmpty found rfl
  | waits found awake queued full => exact isolated.moveEmpty found rfl
  | wokeSpuriously found asleep => exact isolated.moveEmpty found rfl
  | @connected i call fd found connecting unused =>
      have free := owned.free_of_unused unused
      apply isolated.moveSocket found rfl
      · exact Socket.quiet_new call.endpoint
      · intro j holds
        exact absurd holds (free.1 j)
      · exact free.2
  | @connectFailed i call woken _ found connecting notified =>
      have returned : { s with pool := s.pool.connectFailed }.Isolated :=
        isolated.setPool fun entry => ⟨_, entry, fun _ member => member⟩
      exact (returned.moveEmpty found rfl).notifyOne notified
  | @sent i call fd count socket garbled found sending opened bound =>
      have holds : call.pc.fd? = some fd := by rw [sending]; rfl
      have quiet : socket.Quiet := by
        have expected := isolated.held found holds opened
        rw [sending] at expected
        exact expected
      apply isolated.moveSocket found rfl
      · exact quiet.request i count call.sendRpcStr.length garbled
      · intro j other
        exact owned.held_unique other ⟨call, found, holds⟩
      · exact owned.held_not_idle ⟨call, found, holds⟩
  | sendFailed errno found sending => exact (isolated.close _).moveEmpty found rfl
  | @received i call fd count socket exit found receiving opened ready =>
      have holds : call.pc.fd? = some fd := by rw [receiving]; rfl
      have awaiting : socket.Awaiting i := by
        have expected := isolated.held found holds opened
        rw [receiving] at expected
        exact expected
      have own : ∀ byte ∈ socket.inbound.take count, byte.owner = i :=
        fun byte member => awaiting.1 byte (List.mem_of_mem_take member)
      have quiet := awaiting.receive ready (allowed call found fd holds socket opened)
      apply (isolated.log own).moveSocket found rfl
      · exact quiet
      · intro j other
        exact owned.held_unique other ⟨call, found, holds⟩
      · exact owned.held_not_idle ⟨call, found, holds⟩
  | recvFailed errno found receiving => exact (isolated.close _).moveEmpty found rfl
  | @released i call fd exit found releasing =>
      have holds : call.pc.fd? = some fd := by rw [releasing]; rfl
      apply Isolated.push (isolated.moveEmpty found rfl)
      intro socket opened
      have expected := isolated.held found holds opened
      rw [releasing] at expected
      exact expected
  | notified found notifying notified =>
      exact (isolated.moveEmpty found rfl).notifyOne notified
  | @swept delays swept cleaned =>
      have pooled : { s with pool := swept.kept }.Isolated := by
        apply isolated.setPool
        intro key kept entry
        rw [← cleaned] at entry
        exact ConnectionPool.mem_sweepMap entry
      have closed : { { s with pool := swept.kept } with
          sockets := fun fd => if fd ∈ swept.closed then none else s.sockets fd }.Isolated := by
        apply pooled.setSockets
        intro fd socket opened
        split at opened
        · cases opened
        · exact ⟨socket, opened, id, fun _ => id⟩
      exact ⟨closed.idle, closed.held, closed.parsed_own⟩
  | elapsed time => exact ⟨isolated.idle, isolated.held, isolated.parsed_own⟩
  | delivered opened arrived =>
      exact isolated.setSocket opened (fun quiet => quiet.deliver arrived)
        (fun _ awaiting => awaiting.deliver arrived)
  | peerClosed opened =>
      exact isolated.setSocket opened Socket.Quiet.closePeer (fun _ => Socket.Awaiting.closePeer)

end Isolated

theorem isolated_start (maxConnections maxIdleTime : Int) :
    (start maxConnections maxIdleTime : ClientState Msg).Isolated := by
  constructor
  · intro key items item socket entry
    cases entry
  · intro i call fd socket found
    cases found
  · intro i recvBuf member
    cases member

/-- In every run in which each read takes the whole answer, every byte that a
call parses was sent in answer to that call. -/
theorem own_bytes_of_reachable {maxConnections maxIdleTime : Int} {s : ClientState Msg}
    (reached : Reachable next TakesWholeAnswer (start maxConnections maxIdleTime) s) :
    ∀ entry ∈ s.parsed, ∀ byte ∈ entry.2, byte.owner = entry.1 := by
  have isolated : s.Isolated := by
    apply reached.invariant_of (fun _ => owned_of_reachable)
      (isolated_start maxConnections maxIdleTime)
    intro state action successor owned isolated allowed step
    exact isolated.of_stepped owned allowed (stepped_of_next step)
  rintro ⟨i, recvBuf⟩ member
  exact isolated.parsed_own member

/-- A response in two pieces: the first call reads one and gives the connection
back, the second call on it parses the other. -/
theorem second_piece_read_by_next_call :
    ∃ s ∈ run next (start 5000 60) [spawnAt localEndpoint, .enter 0, .connected 0 7, .send 0 2 [],
        .deliver 7 [10, 1, 97] false, .recv 0 3, .release 0, .notify 0 none,
        spawnAt localEndpoint, .enter 1, .deliver 7 [18, 1, 98] true, .send 1 2 [], .recv 1 3],
      ¬ ∀ entry ∈ s.parsed, ∀ byte ∈ entry.2, byte.owner = entry.1 := by
  decide +kernel

/-- Two calls on one connection, each reading its whole answer. -/
theorem whole_answers_isolated :
    ∃ s : ClientState RpcHeader, Reachable next TakesWholeAnswer (start 5000 60) s ∧
      s.parsed.length = 2 ∧ ∀ entry ∈ s.parsed, ∀ byte ∈ entry.2, byte.owner = entry.1 := by
  have run : ∃ s : ClientState RpcHeader, Reachable next TakesWholeAnswer (start 5000 60) s ∧
      s.parsed.length = 2 := by
    apply exists_reachable [spawnAt localEndpoint, .enter 0, .connected 0 7, .send 0 2 [],
      .deliver 7 [10, 1, 97] true, .recv 0 3, .release 0, .notify 0 none,
      spawnAt localEndpoint, .enter 1, .send 1 2 [], .deliver 7 [18, 1, 98] true, .recv 1 3]
    · decide +kernel
    · decide +kernel
  rcases run with ⟨s, reached, twice⟩
  exact ⟨s, reached, twice, own_bytes_of_reachable reached⟩

end ClientState

end Mprpc.Client
