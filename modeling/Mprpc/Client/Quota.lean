import Mprpc.Client.Ownership

/-!
# The connection quota

`m_curConnCount` should count the connections that are idle, held by a call or
being made.  The pool keeps the count in its own functions, but a task that
meets a socket error closes its connection behind the pool's back, and the slot
is never given back.
-/

namespace Mprpc.Client

open Mprpc.Net
open Mprpc.Rpc
open Mprpc.Transition

universe u

/-- The connections that a program counter accounts for. -/
def CallPc.slots {Msg : Type u} : CallPc Msg → Nat
  | .connecting | .sending _ | .receiving _ | .releasing _ _ => 1
  | _ => 0

/-- A thread that is about to look at the pool has no slot. -/
theorem CallPc.slots_of_awake {Msg : Type u} {pc : CallPc Msg}
    (awake : pc = .entering ∨ pc = .notified) : pc.slots = 0 := by
  rcases awake with rfl | rfl
  · rfl
  · rfl

namespace ClientState

variable {Msg : Type u}

/-- The number of open connections that calls hold. -/
def heldOpen (s : ClientState Msg) : Nat :=
  s.calls.countP fun call =>
    match call.pc.fd? with
    | some fd => (s.sockets fd).isSome
    | none => false

/-- The number of calls with a slot reserved that have not acted on the result
of `CreateRealSocket` yet. -/
def connecting (s : ClientState Msg) : Nat :=
  s.calls.countP fun call => call.pc.isConnecting

/-- The quota is accounted exactly. -/
def Accounted (s : ClientState Msg) : Prop :=
  s.pool.curConnCount = s.pool.idleCount + s.heldOpen + s.connecting

instance (s : ClientState Msg) : Decidable s.Accounted :=
  inferInstanceAs (Decidable (_ = _))

/-- Every call has finished. -/
def AllFinished (s : ClientState Msg) : Prop :=
  ∀ call ∈ s.calls, call.pc.isFinished = true

instance (s : ClientState Msg) : Decidable s.AllFinished :=
  inferInstanceAs (Decidable (∀ call ∈ s.calls, _))

/-- No socket call of a task returns `-1`. -/
def NoSocketError (_ : ClientState Msg) : ClientAction Msg → Prop
  | .sendError .. | .recvError .. => False
  | _ => True

instance (s : ClientState Msg) : (action : ClientAction Msg) → Decidable (NoSocketError s action)
  | .sendError .. | .recvError .. => isFalse id
  | .spawn .. | .enter _ | .wakeSpuriously _ | .connected .. | .connectFailed .. | .send ..
  | .recv .. | .release _ | .notify .. | .sweep _ | .elapse _ | .deliver .. | .peerClose _ =>
      isTrue trivial

/-- The number of calls that hold a connection. -/
def held (s : ClientState Msg) : Nat :=
  s.calls.countP fun call => call.pc.fd?.isSome

/-- Held connections are open. -/
theorem heldOpen_eq_held {s : ClientState Msg} (owned : s.Owned) : s.heldOpen = s.held := by
  apply List.countP_congr
  intro call member
  rcases List.getElem?_of_mem member with ⟨i, found⟩
  cases holds : call.pc.fd? with
  | none => simp
  | some fd =>
      rcases owned.held_open found holds with ⟨socket, opened, -⟩
      simp [opened]

/-- The sum that the pool's counter stands for. -/
def inUse (s : ClientState Msg) : Nat :=
  s.pool.idleCount + s.held + s.connecting

/-- A step of one call moves the sum by the difference of its slots. -/
theorem inUse_setCall {s : ClientState Msg} {i : Nat} {call : Call Msg}
    (found : s.calls[i]? = some call) (pc : CallPc Msg) :
    (s.setCall i { call with pc := pc }).inUse + call.pc.slots = s.inUse + pc.slots := by
  have slots : ∀ pc : CallPc Msg, pc.slots =
      (if pc.fd?.isSome then 1 else 0) + if pc.isConnecting then 1 else 0 := by
    intro pc
    cases pc <;> rfl
  have heldSplit := countP_setCall found (fun call => call.pc.fd?.isSome) { call with pc := pc }
  have connectingSplit :=
    countP_setCall found (fun call => call.pc.isConnecting) { call with pc := pc }
  have pool : (s.setCall i { call with pc := pc }).pool = s.pool := rfl
  simp only [inUse, held, connecting, slots, pool] at *
  omega

/-- The counter agrees with the sum. -/
def Counted (s : ClientState Msg) : Prop :=
  s.pool.curConnCount = s.inUse

theorem idleCount_setQueue (pool : ConnectionPool) (key : Bytes) (items : List ConnectionItem) :
    (pool.setQueue key items).idleCount + (pool.queue key).length =
      pool.idleCount + items.length := by
  simpa [ConnectionPool.idleCount] using
    ConnectionPool.idleThat_setQueue (fun _ => true) pool key items

/-- The counter moves with the connections in use, but for `leak` slots. -/
def Moves (leak : Nat) (s t : ClientState Msg) : Prop :=
  t.pool.curConnCount + s.inUse = s.pool.curConnCount + t.inUse + leak

/-- A step of one call moves the counter, the queues and its own slots. -/
theorem Moves.update {leak : Nat} {s : ClientState Msg} {i : Nat} {call : Call Msg}
    (found : s.calls[i]? = some call) {pool : ConnectionPool} {pc : CallPc Msg}
    (balance : pool.curConnCount + s.pool.idleCount + call.pc.slots =
      s.pool.curConnCount + pool.idleCount + pc.slots + leak) :
    Moves leak s ({ s with pool := pool }.setCall i { call with pc := pc }) := by
  have stillFound : { s with pool := pool }.calls[i]? = some call := found
  have moved : ({ s with pool := pool }.setCall i { call with pc := pc }).inUse + call.pc.slots =
      pool.idleCount + s.held + s.connecting + pc.slots :=
    inUse_setCall stillFound pc
  have sum : s.inUse = s.pool.idleCount + s.held + s.connecting := rfl
  change pool.curConnCount + _ = _
  omega

/-- A step of one call that leaves the pool alone. -/
theorem Moves.setCall {leak : Nat} {s : ClientState Msg} {i : Nat} {call : Call Msg}
    {pc : CallPc Msg} (found : s.calls[i]? = some call)
    (balance : call.pc.slots = pc.slots + leak) :
    Moves leak s (s.setCall i { call with pc := pc }) := by
  apply Moves.update found
  omega

theorem Moves.notifyOne {leak : Nat} {s t u : ClientState Msg} (moves : Moves leak s t)
    {woken : Option Nat} (notified : t.notifyOne woken = some u) : Moves leak s u := by
  rcases notifyOne_eq_some notified with ⟨-, rfl, -⟩ | ⟨j, call, -, found, asleep, rfl⟩
  · exact moves
  · have woke : Moves 0 t (t.setCall j { call with pc := .notified }) :=
      .setCall found (by rw [asleep]; rfl)
    unfold Moves at *
    omega

/-- A socket error gives its connection back without its slot. -/
def leaked : ClientAction Msg → Nat
  | .sendError .. | .recvError .. => 1
  | _ => 0

theorem moves_of_stepped {s t : ClientState Msg} {action : ClientAction Msg}
    (stepped : Stepped s action t) : Moves (leaked action) s t := by
  cases stepped with
  | spawn endpoint sendRpcStr output =>
      simp [Moves, inUse, held, connecting, CallPc.fd?, CallPc.isConnecting, leaked]
  | @reused i call item rest found awake queued =>
      have none := CallPc.slots_of_awake awake
      have popped := idleCount_setQueue s.pool call.endpoint.key rest
      rw [queued, List.length_cons] at popped
      apply Moves.update found
      change s.pool.curConnCount + _ + _ = _ + _ + ((1 : Nat) : Int) + ((0 : Nat) : Int)
      omega
  | @reserved i call found awake queued below =>
      have none := CallPc.slots_of_awake awake
      apply Moves.update found
      change s.pool.curConnCount + 1 + s.pool.idleCount + _ =
        s.pool.curConnCount + s.pool.idleCount + ((1 : Nat) : Int) + ((0 : Nat) : Int)
      omega
  | waits found awake queued full =>
      exact .setCall found (CallPc.slots_of_awake awake)
  | wokeSpuriously found asleep => exact .setCall found (by rw [asleep]; rfl)
  | connected found connecting unused =>
      exact Moves.setCall (s := s.setSocket _ _) found (by rw [connecting]; rfl)
  | connectFailed found connecting notified =>
      refine Moves.notifyOne (.update found ?_) notified
      rw [connecting]
      change s.pool.curConnCount - 1 + s.pool.idleCount + ((1 : Nat) : Int) =
        s.pool.curConnCount + s.pool.idleCount + ((0 : Nat) : Int) + ((0 : Nat) : Int)
      omega
  | sent garbled found sending opened bound =>
      exact Moves.setCall (s := s.setSocket _ _) found (by rw [sending]; rfl)
  | sendFailed errno found sending =>
      exact Moves.setCall (s := s.setSocket _ _) found (by rw [sending]; rfl)
  | @received i call fd count socket exit found receiving opened ready =>
      have same : call.pc.slots = (CallPc.releasing fd exit).slots + 0 := by rw [receiving]; rfl
      exact Moves.setCall (s := { s with parsed := _ }.setSocket _ _) found same
  | recvFailed errno found receiving =>
      exact Moves.setCall (s := s.setSocket _ _) found (by rw [receiving]; rfl)
  | @released i call fd exit found releasing =>
      have pushed : (s.pool.releaseConnection call.endpoint.key fd s.now).idleCount + _ = _ + _ :=
        idleCount_setQueue s.pool call.endpoint.key _
      rw [List.length_append, List.length_singleton] at pushed
      apply Moves.update found
      rw [releasing]
      change s.pool.curConnCount + _ + ((1 : Nat) : Int) =
        _ + _ + ((0 : Nat) : Int) + ((0 : Nat) : Int)
      omega
  | notified found notifying notified =>
      exact Moves.notifyOne (.setCall found (by rw [notifying]; rfl)) notified
  | @swept delays swept cleaned =>
      have accounted := ConnectionPool.idleThat_cleanIdleConnections (fun _ => true) s.pool
        ⟨s.now, delays⟩
      have count : swept.kept.curConnCount = s.pool.curConnCount - swept.closed.length := by
        rw [← cleaned]
        rfl
      rw [cleaned, List.countP_true] at accounted
      change swept.kept.curConnCount +
          (((s.pool.idleThat fun _ => true) + s.held + s.connecting : Nat) : Int) =
        s.pool.curConnCount +
          (((swept.kept.idleThat fun _ => true) + s.held + s.connecting : Nat) : Int) +
            ((0 : Nat) : Int)
      omega
  | elapsed time => exact (Int.add_zero _).symm
  | delivered opened arrived => exact (Int.add_zero _).symm
  | peerClosed opened => exact (Int.add_zero _).symm

/-- A step without a socket error keeps the count. -/
theorem Counted.of_stepped {s t : ClientState Msg} {action : ClientAction Msg}
    (counted : s.Counted) (allowed : NoSocketError s action) (stepped : Stepped s action t) :
    t.Counted := by
  have moves := moves_of_stepped stepped
  have noLeak : leaked action = 0 := by
    cases action <;> first | rfl | cases allowed
  unfold Counted Moves at *
  omega

theorem counted_start (maxConnections maxIdleTime : Int) :
    (start maxConnections maxIdleTime : ClientState Msg).Counted :=
  rfl

/-- In every run without socket errors the counter is the number of connections
that are idle, held and open, or being made; once all calls have finished it is
the number of idle ones. -/
theorem accounted_of_reachable {maxConnections maxIdleTime : Int} {s : ClientState Msg}
    (reached : Reachable next NoSocketError (start maxConnections maxIdleTime) s) :
    s.Accounted ∧ (s.AllFinished → s.pool.curConnCount = s.pool.idleCount) := by
  have counted : s.Counted := by
    apply reached.invariant (counted_start maxConnections maxIdleTime)
    intro state action successor counted allowed step
    exact counted.of_stepped allowed (stepped_of_next step)
  have accounted : s.Accounted := by
    unfold Accounted
    rw [heldOpen_eq_held (owned_of_reachable reached)]
    exact_mod_cast counted
  constructor
  · exact accounted
  · intro finished
    have nothingHeld : s.heldOpen = 0 := by
      apply List.countP_eq_zero.mpr
      intro call member
      rcases CallPc.isFinished_iff.mp (finished call member) with ⟨exit, ended⟩
      simp [ended, CallPc.fd?]
    have nothingReserved : s.connecting = 0 := by
      apply List.countP_eq_zero.mpr
      intro call member
      rcases CallPc.isFinished_iff.mp (finished call member) with ⟨exit, ended⟩
      simp [ended, CallPc.isConnecting]
    unfold Accounted at accounted
    omega

/-- One call whose `send` fails: it has finished, no connection is open, and the
counter stays at one. -/
theorem send_error_leaks :
    ∃ s ∈ run next (start 5000 60)
        [spawnAt localEndpoint, .enter 0, .connected 0 7, .sendError 0 ECONNRESET],
      s.AllFinished ∧ s.pool.curConnCount = 1 ∧ s.pool.idleCount = 0 ∧ ¬ s.Accounted := by
  decide +kernel

/-- One call that is answered and gives its connection back. -/
theorem answered_call_accounted :
    ∃ s : ClientState RpcHeader, Reachable next NoSocketError (start 5000 60) s ∧
      (s.AllFinished ∧ s.pool.curConnCount = 1) ∧
        (s.Accounted ∧ (s.AllFinished → s.pool.curConnCount = s.pool.idleCount)) := by
  have run : ∃ s : ClientState RpcHeader, Reachable next NoSocketError (start 5000 60) s ∧
      (s.AllFinished ∧ s.pool.curConnCount = 1) := by
    apply exists_reachable [spawnAt localEndpoint, .enter 0, .connected 0 7, .send 0 2 [],
      .deliver 7 [10, 1, 97] true, .recv 0 3, .release 0, .notify 0 none]
    · decide +kernel
    · decide +kernel
  rcases run with ⟨s, reached, finished⟩
  exact ⟨s, reached, finished, accounted_of_reachable reached⟩

end ClientState

end Mprpc.Client
