import Mathlib.Logic.Function.Basic
import Mprpc.Client.Channel
import Mprpc.Client.Pool
import Mprpc.Transition.Core
import Mprpc.Transition.Parties

/-!
# A client process

Any number of `rpc_task`s share one connection pool.  The state holds the pool,
one program counter for each call and the client's open sockets; an action is
one critical section of the pool, one socket call of a task, or something that
happens outside.  `m_mutex` is held within a single step only, so it is free in
every state.

A socket records what the server still owes.  Bytes in flight carry the number
of the call whose response they belong to; the client never sees the number.
-/

namespace Mprpc.Client

open Mprpc.Net
open Mprpc.Protobuf
open Mprpc.Rpc
open Mprpc.Transition

universe u

/-- Where a call stands. -/
inductive CallPc (Msg : Type u)
  /-- before `GetConnection` takes the lock -/
  | entering
  /-- asleep in `m_cv.wait` -/
  | blocked
  /-- woken, before it has the lock again -/
  | notified
  /-- in `CreateRealSocket`, with a slot reserved -/
  | connecting
  | sending (fd : Fd)
  | receiving (fd : Fd)
  /-- before `ReleaseConnection` takes the lock -/
  | releasing (fd : Fd) (exit : TaskExit Msg)
  /-- between the push of `ReleaseConnection` and its `notify_one` -/
  | notifying (exit : TaskExit Msg)
  | finished (exit : TaskExit Msg)

/-- The connection that a call holds. -/
def CallPc.fd? {Msg : Type u} : CallPc Msg → Option Fd
  | .sending fd | .receiving fd | .releasing fd _ => some fd
  | _ => none

def CallPc.isBlocked {Msg : Type u} : CallPc Msg → Bool
  | .blocked => true
  | _ => false

def CallPc.isNotified {Msg : Type u} : CallPc Msg → Bool
  | .notified => true
  | _ => false

def CallPc.isConnecting {Msg : Type u} : CallPc Msg → Bool
  | .connecting => true
  | _ => false

def CallPc.isNotifying {Msg : Type u} : CallPc Msg → Bool
  | .notifying _ => true
  | _ => false

def CallPc.isFinished {Msg : Type u} : CallPc Msg → Bool
  | .finished _ => true
  | _ => false

theorem CallPc.isBlocked_iff {Msg : Type u} {pc : CallPc Msg} :
    pc.isBlocked = true ↔ pc = .blocked := by
  cases pc <;> simp [isBlocked]

theorem CallPc.isFinished_iff {Msg : Type u} {pc : CallPc Msg} :
    pc.isFinished = true ↔ ∃ exit, pc = .finished exit := by
  cases pc <;> simp [isFinished]

/-- One execution of `rpc_task` with the data it captured. -/
structure Call (Msg : Type u) where
  endpoint : Endpoint
  sendRpcStr : Bytes
  output : MessageCodec Msg
  pc : CallPc Msg := .entering

/-- A byte from a server, with the call whose response it belongs to. -/
structure ResponseByte where
  owner : Nat
  byte : UInt8
  deriving DecidableEq, Repr

/-- An open socket of the client.  `pending` lists the calls whose requests the
server has and has not finished answering; after a cut request the server no
longer knows where a frame begins and `aligned` is false. -/
structure Socket where
  endpoint : Endpoint
  inbound : List ResponseByte := []
  pending : List Nat := []
  aligned : Bool := true
  peerClosed : Bool := false
  deriving DecidableEq, Repr

structure ClientState (Msg : Type u) where
  pool : ConnectionPool := {}
  calls : List (Call Msg) := []
  sockets : Fd → Option Socket := fun _ => none
  now : Nat := 0
  /-- the bytes that each `ParseFromArray` was given -/
  parsed : List (Nat × List ResponseByte) := []

/-- One step of a thread or of the world around the process. -/
inductive ClientAction (Msg : Type u)
  /-- `CallMethod` launches a task -/
  | spawn (endpoint : Endpoint) (sendRpcStr : Bytes) (output : MessageCodec Msg)
  /-- a thread that is not asleep runs the locked part of `GetConnection` -/
  | enter (i : Nat)
  /-- a thread wakes up without being notified -/
  | wakeSpuriously (i : Nat)
  | connected (i : Nat) (fd : Fd)
  /-- `connect` failed; the slot is given back and `notify_one` picks a thread -/
  | connectFailed (i : Nat) (woken : Option Nat)
  /-- `send` takes `count` bytes; `garbled` are the answers that a server which
  lost the frame boundaries believes it owes -/
  | send (i count : Nat) (garbled : List Nat)
  | sendError (i : Nat) (errno : Errno)
  /-- `recv` returns `count` bytes -/
  | recv (i count : Nat)
  | recvError (i : Nat) (errno : Errno)
  | release (i : Nat)
  | notify (i : Nat) (woken : Option Nat)
  | sweep (delays : List Nat)
  | elapse (time : Nat)
  /-- the next piece of the first pending response arrives -/
  | deliver (fd : Fd) (bytes : Bytes) (final : Bool)
  | peerClose (fd : Fd)

namespace Socket

/-- What the server makes of the bytes of one `send`. -/
def request (socket : Socket) (i count size : Nat) (garbled : List Nat) : Socket :=
  if socket.aligned then
    if count = size then { socket with pending := socket.pending ++ [i] }
    else { socket with aligned := false }
  else { socket with pending := socket.pending ++ garbled }

/-- A piece of the response to the first pending request; the last piece
settles the request. -/
def deliver (socket : Socket) (bytes : Bytes) (final : Bool) : Option Socket :=
  match socket.pending with
  | [] => none
  | owner :: others =>
      if socket.peerClosed then none
      else some
        { socket with
          inbound := socket.inbound ++ bytes.map fun byte => ⟨owner, byte⟩
          pending := if final then others else owner :: others }

/-- A `recv` of `count` bytes: it returns 0 at the end of the stream only. -/
def CanReceive (socket : Socket) (count : Nat) : Prop :=
  count ≤ recvBufSize ∧ count ≤ socket.inbound.length ∧
    (count = 0 → socket.inbound = [] ∧ socket.peerClosed = true)

instance (socket : Socket) (count : Nat) : Decidable (socket.CanReceive count) :=
  inferInstanceAs (Decidable (_ ∧ _ ∧ _))

/-- The socket after a `recv` of `count` bytes. -/
def receive (socket : Socket) (count : Nat) : Socket :=
  { socket with inbound := socket.inbound.drop count }

/-- The socket after the server has closed its end. -/
def closePeer (socket : Socket) : Socket :=
  { socket with peerClosed := true }

@[simp]
theorem receive_endpoint (socket : Socket) (count : Nat) :
    (socket.receive count).endpoint = socket.endpoint :=
  rfl

@[simp]
theorem request_endpoint (socket : Socket) (i count size : Nat) (garbled : List Nat) :
    (socket.request i count size garbled).endpoint = socket.endpoint := by
  unfold request
  split
  · split
    · rfl
    · rfl
  · rfl

/-- A piece arrives for the first pending call, while the peer is there. -/
theorem deliver_eq_some_iff {socket fuller : Socket} {bytes : Bytes} {final : Bool} :
    socket.deliver bytes final = some fuller ↔
      ∃ owner others, socket.pending = owner :: others ∧ socket.peerClosed = false ∧
        fuller =
          { socket with
            inbound := socket.inbound ++ bytes.map fun byte => ⟨owner, byte⟩
            pending := if final then others else owner :: others } := by
  unfold deliver
  cases pending : socket.pending with
  | nil => simp
  | cons owner others =>
      cases closed : socket.peerClosed with
      | true => simp
      | false => simp [eq_comm]

end Socket

namespace ClientState

variable {Msg : Type u}

/-- The process before its first call. -/
def start (maxConnections maxIdleTime : Int) : ClientState Msg where
  pool := { maxConnections := maxConnections, maxIdleTime := maxIdleTime }

def setCall (s : ClientState Msg) (i : Nat) (call : Call Msg) : ClientState Msg :=
  { s with calls := s.calls.set i call }

def setSocket (s : ClientState Msg) (fd : Fd) (socket : Option Socket) : ClientState Msg :=
  { s with sockets := Function.update s.sockets fd socket }

/-- `notify_one`: one of the blocked threads, whichever the library picks, and
none only when there is none. -/
def notifyOne (s : ClientState Msg) : Option Nat → Option (ClientState Msg)
  | none =>
      if s.calls.any fun call => call.pc.isBlocked then none else some s
  | some j =>
      match s.calls[j]? with
      | some call =>
          match call.pc with
          | .blocked => some (s.setCall j { call with pc := .notified })
          | _ => none
      | none => none

/-- The locked part of `GetConnection` for one call. -/
def getConnection (s : ClientState Msg) (i : Nat) (call : Call Msg) : ClientState Msg :=
  match s.pool.getConnection call.endpoint.key with
  | .reused fd pool => { s with pool := pool }.setCall i { call with pc := .sending fd }
  | .reserved pool => { s with pool := pool }.setCall i { call with pc := .connecting }
  | .waits => s.setCall i { call with pc := .blocked }

/-- The end of a task that holds `fd`. -/
def leave (s : ClientState Msg) (i : Nat) (call : Call Msg) (fd : Fd) (exit : TaskExit Msg) :
    ClientState Msg :=
  match exit.disposal with
  | some .close => (s.setSocket fd none).setCall i { call with pc := .finished exit }
  | some .release => s.setCall i { call with pc := .releasing fd exit }
  | none => s.setCall i { call with pc := .finished exit }

/-- `send` takes `count` bytes of the request. -/
def sent (s : ClientState Msg) (i : Nat) (call : Call Msg) (fd : Fd) (count : Nat)
    (garbled : List Nat) (socket : Socket) : Option (ClientState Msg) :=
  if count ≤ call.sendRpcStr.length then
    some ((s.setSocket fd
      (some (socket.request i count call.sendRpcStr.length garbled))).setCall i
        { call with pc := .receiving fd })
  else none

/-- `recv` returns `count` bytes, and the task parses them. -/
def received (s : ClientState Msg) (i : Nat) (call : Call Msg) (fd : Fd) (count : Nat)
    (socket : Socket) : Option (ClientState Msg) :=
  if socket.CanReceive count then
    let recvBuf := socket.inbound.take count
    let exit := afterRecv call.output (.received (recvBuf.map ResponseByte.byte))
    some (({ s with parsed := s.parsed ++ [(i, recvBuf)] }.setSocket fd
      (some (socket.receive count))).leave i call fd exit)
  else none

/-- One step.  A thread's action is enabled when its program counter is at the
action. -/
def next (s : ClientState Msg) : ClientAction Msg → Option (ClientState Msg)
  | .spawn endpoint sendRpcStr output =>
      some { s with calls := s.calls ++ [⟨endpoint, sendRpcStr, output, .entering⟩] }
  | .enter i =>
      (s.calls[i]?).bind fun call =>
        match call.pc with
        | .entering | .notified => some (s.getConnection i call)
        | _ => none
  | .wakeSpuriously i =>
      (s.calls[i]?).bind fun call =>
        match call.pc with
        | .blocked => some (s.setCall i { call with pc := .notified })
        | _ => none
  | .connected i fd =>
      (s.calls[i]?).bind fun call =>
        match call.pc, s.sockets fd with
        | .connecting, none =>
            some ((s.setSocket fd (some { endpoint := call.endpoint })).setCall i
              { call with pc := .sending fd })
        | _, _ => none
  | .connectFailed i woken =>
      (s.calls[i]?).bind fun call =>
        match call.pc with
        | .connecting =>
            ({ s with pool := s.pool.connectFailed }.setCall i
              { call with pc := .finished .noConnection }).notifyOne woken
        | _ => none
  | .send i count garbled =>
      (s.calls[i]?).bind fun call =>
        match call.pc with
        | .sending fd => (s.sockets fd).bind (s.sent i call fd count garbled)
        | _ => none
  | .sendError i errno =>
      (s.calls[i]?).bind fun call =>
        match call.pc with
        | .sending fd => (afterSend (.error errno)).map (s.leave i call fd)
        | _ => none
  | .recv i count =>
      (s.calls[i]?).bind fun call =>
        match call.pc with
        | .receiving fd => (s.sockets fd).bind (s.received i call fd count)
        | _ => none
  | .recvError i errno =>
      (s.calls[i]?).bind fun call =>
        match call.pc with
        | .receiving fd => some (s.leave i call fd (afterRecv call.output (.error errno)))
        | _ => none
  | .release i =>
      (s.calls[i]?).bind fun call =>
        match call.pc with
        | .releasing fd exit =>
            some ({ s with
              pool := s.pool.releaseConnection call.endpoint.key fd s.now }.setCall i
                { call with pc := .notifying exit })
        | _ => none
  | .notify i woken =>
      (s.calls[i]?).bind fun call =>
        match call.pc with
        | .notifying exit => (s.setCall i { call with pc := .finished exit }).notifyOne woken
        | _ => none
  | .sweep delays =>
      let swept := s.pool.cleanIdleConnections ⟨s.now, delays⟩
      some { s with
        pool := swept.kept
        now := swept.clock.now
        sockets := fun fd => if fd ∈ swept.closed then none else s.sockets fd }
  | .elapse time => some { s with now := s.now + time }
  | .deliver fd bytes final =>
      (s.sockets fd).bind fun socket =>
        (socket.deliver bytes final).map fun socket => s.setSocket fd (some socket)
  | .peerClose fd =>
      (s.sockets fd).map fun socket => s.setSocket fd (some socket.closePeer)

/-! ## What a step can do

`Stepped` lists the effects of every action once; the invariants are proved by
cases on it. -/

/-- The effect of one action. -/
inductive Stepped (s : ClientState Msg) : ClientAction Msg → ClientState Msg → Prop
  | spawn (endpoint : Endpoint) (sendRpcStr : Bytes) (output : MessageCodec Msg) :
      Stepped s (.spawn endpoint sendRpcStr output)
        { s with calls := s.calls ++ [⟨endpoint, sendRpcStr, output, .entering⟩] }
  | reused {i : Nat} {call : Call Msg} {item : ConnectionItem} {rest : List ConnectionItem}
      (found : s.calls[i]? = some call) (awake : call.pc = .entering ∨ call.pc = .notified)
      (queued : s.pool.queue call.endpoint.key = item :: rest) :
      Stepped s (.enter i)
        ({ s with pool := s.pool.setQueue call.endpoint.key rest }.setCall i
          { call with pc := .sending item.fd })
  | reserved {i : Nat} {call : Call Msg}
      (found : s.calls[i]? = some call) (awake : call.pc = .entering ∨ call.pc = .notified)
      (queued : s.pool.queue call.endpoint.key = [])
      (below : s.pool.curConnCount < s.pool.maxConnections) :
      Stepped s (.enter i)
        ({ s with pool := { s.pool with curConnCount := s.pool.curConnCount + 1 } }.setCall i
          { call with pc := .connecting })
  | waits {i : Nat} {call : Call Msg}
      (found : s.calls[i]? = some call) (awake : call.pc = .entering ∨ call.pc = .notified)
      (queued : s.pool.queue call.endpoint.key = [])
      (full : s.pool.maxConnections ≤ s.pool.curConnCount) :
      Stepped s (.enter i) (s.setCall i { call with pc := .blocked })
  | wokeSpuriously {i : Nat} {call : Call Msg}
      (found : s.calls[i]? = some call) (asleep : call.pc = .blocked) :
      Stepped s (.wakeSpuriously i) (s.setCall i { call with pc := .notified })
  | connected {i : Nat} {call : Call Msg} {fd : Fd}
      (found : s.calls[i]? = some call) (connecting : call.pc = .connecting)
      (unused : s.sockets fd = none) :
      Stepped s (.connected i fd)
        ((s.setSocket fd (some { endpoint := call.endpoint })).setCall i
          { call with pc := .sending fd })
  | connectFailed {i : Nat} {call : Call Msg} {woken : Option Nat} {t : ClientState Msg}
      (found : s.calls[i]? = some call) (connecting : call.pc = .connecting)
      (notified : ({ s with pool := s.pool.connectFailed }.setCall i
        { call with pc := .finished .noConnection }).notifyOne woken = some t) :
      Stepped s (.connectFailed i woken) t
  | sent {i : Nat} {call : Call Msg} {fd : Fd} {count : Nat} {socket : Socket}
      (garbled : List Nat) (found : s.calls[i]? = some call) (sending : call.pc = .sending fd)
      (opened : s.sockets fd = some socket) (bound : count ≤ call.sendRpcStr.length) :
      Stepped s (.send i count garbled)
        ((s.setSocket fd
          (some (socket.request i count call.sendRpcStr.length garbled))).setCall i
            { call with pc := .receiving fd })
  | sendFailed {i : Nat} {call : Call Msg} {fd : Fd} (errno : Errno)
      (found : s.calls[i]? = some call) (sending : call.pc = .sending fd) :
      Stepped s (.sendError i errno)
        ((s.setSocket fd none).setCall i { call with pc := .finished (.sendError errno) })
  | received {i : Nat} {call : Call Msg} {fd : Fd} {count : Nat} {socket : Socket}
      {exit : TaskExit Msg} (found : s.calls[i]? = some call) (receiving : call.pc = .receiving fd)
      (opened : s.sockets fd = some socket) (ready : socket.CanReceive count) :
      Stepped s (.recv i count)
        (({ s with parsed := s.parsed ++ [(i, socket.inbound.take count)] }.setSocket fd
          (some (socket.receive count))).setCall i
            { call with pc := .releasing fd exit })
  | recvFailed {i : Nat} {call : Call Msg} {fd : Fd} (errno : Errno)
      (found : s.calls[i]? = some call) (receiving : call.pc = .receiving fd) :
      Stepped s (.recvError i errno)
        ((s.setSocket fd none).setCall i { call with pc := .finished (.recvError errno) })
  | released {i : Nat} {call : Call Msg} {fd : Fd} {exit : TaskExit Msg}
      (found : s.calls[i]? = some call) (releasing : call.pc = .releasing fd exit) :
      Stepped s (.release i)
        ({ s with pool := s.pool.releaseConnection call.endpoint.key fd s.now }.setCall i
          { call with pc := .notifying exit })
  | notified {i : Nat} {call : Call Msg} {exit : TaskExit Msg} {woken : Option Nat}
      {t : ClientState Msg}
      (found : s.calls[i]? = some call) (notifying : call.pc = .notifying exit)
      (notified : (s.setCall i { call with pc := .finished exit }).notifyOne woken = some t) :
      Stepped s (.notify i woken) t
  | swept (delays : List Nat) {swept : Swept ConnectionPool}
      (cleaned : s.pool.cleanIdleConnections ⟨s.now, delays⟩ = swept) :
      Stepped s (.sweep delays)
        { s with
          pool := swept.kept
          now := swept.clock.now
          sockets := fun fd => if fd ∈ swept.closed then none else s.sockets fd }
  | elapsed (time : Nat) : Stepped s (.elapse time) { s with now := s.now + time }
  | delivered {fd : Fd} {bytes : Bytes} {final : Bool} {socket fuller : Socket}
      (opened : s.sockets fd = some socket)
      (arrived : socket.deliver bytes final = some fuller) :
      Stepped s (.deliver fd bytes final) (s.setSocket fd (some fuller))
  | peerClosed {fd : Fd} {socket : Socket} (opened : s.sockets fd = some socket) :
      Stepped s (.peerClose fd) (s.setSocket fd (some socket.closePeer))

theorem stepped_getConnection {s : ClientState Msg} {i : Nat} {call : Call Msg}
    (found : s.calls[i]? = some call) (awake : call.pc = .entering ∨ call.pc = .notified) :
    Stepped s (.enter i) (s.getConnection i call) := by
  unfold getConnection
  cases acquired : s.pool.getConnection call.endpoint.key with
  | reused fd pool =>
      rcases ConnectionPool.getConnection_eq_reused_iff.mp acquired with
        ⟨item, rest, queued, rfl, rfl⟩
      exact .reused found awake queued
  | reserved pool =>
      rcases ConnectionPool.getConnection_eq_reserved_iff.mp acquired with ⟨queued, below, rfl⟩
      exact .reserved found awake queued below
  | waits =>
      rcases ConnectionPool.getConnection_eq_waits_iff.mp acquired with ⟨queued, full⟩
      exact .waits found awake queued full

/-- What a task does with its connection after `recv` returned bytes: it gives
it back, whether or not they parse. -/
theorem leave_afterRecv (s : ClientState Msg) (i : Nat) (call : Call Msg) (fd : Fd)
    (recvBuf : Bytes) :
    ∃ exit, s.leave i call fd (afterRecv call.output (.received recvBuf)) =
      s.setCall i { call with pc := .releasing fd exit } := by
  cases parsed : call.output.parse recvBuf with
  | none => exact ⟨.parseError, by simp [afterRecv, parsed, leave, TaskExit.disposal]⟩
  | some response =>
      exact ⟨.answered response, by simp [afterRecv, parsed, leave, TaskExit.disposal]⟩

/-- Every step is one of the listed effects. -/
theorem stepped_of_next {s t : ClientState Msg} {action : ClientAction Msg}
    (step : s.next action = some t) : Stepped s action t := by
  cases action with
  | spawn endpoint sendRpcStr output =>
      cases step
      exact .spawn endpoint sendRpcStr output
  | sweep delays =>
      cases step
      exact .swept delays rfl
  | elapse time =>
      cases step
      exact .elapsed time
  | deliver fd bytes final =>
      rcases Option.bind_eq_some_iff.mp step with ⟨socket, opened, step⟩
      rcases Option.map_eq_some_iff.mp step with ⟨fuller, arrived, rfl⟩
      exact .delivered opened arrived
  | peerClose fd =>
      rcases Option.map_eq_some_iff.mp step with ⟨socket, opened, rfl⟩
      exact .peerClosed opened
  | enter i =>
      rcases Option.bind_eq_some_iff.mp step with ⟨call, found, step⟩
      split at step
      · rename_i entering
        cases step
        exact stepped_getConnection found (.inl entering)
      · rename_i notified
        cases step
        exact stepped_getConnection found (.inr notified)
      · cases step
  | wakeSpuriously i =>
      rcases Option.bind_eq_some_iff.mp step with ⟨call, found, step⟩
      split at step
      · rename_i asleep
        cases step
        exact .wokeSpuriously found asleep
      · cases step
  | connected i fd =>
      rcases Option.bind_eq_some_iff.mp step with ⟨call, found, step⟩
      split at step
      · rename_i connecting unused
        cases step
        exact .connected found connecting unused
      · cases step
  | connectFailed i woken =>
      rcases Option.bind_eq_some_iff.mp step with ⟨call, found, step⟩
      split at step
      · rename_i connecting
        exact .connectFailed found connecting step
      · cases step
  | send i count garbled =>
      rcases Option.bind_eq_some_iff.mp step with ⟨call, found, step⟩
      split at step
      · rename_i fd sending
        rcases Option.bind_eq_some_iff.mp step with ⟨socket, opened, step⟩
        unfold sent at step
        split at step
        · rename_i bound
          cases step
          exact .sent garbled found sending opened bound
        · cases step
      · cases step
  | sendError i errno =>
      rcases Option.bind_eq_some_iff.mp step with ⟨call, found, step⟩
      split at step
      · rename_i fd sending
        cases step
        exact .sendFailed errno found sending
      · cases step
  | recv i count =>
      rcases Option.bind_eq_some_iff.mp step with ⟨call, found, step⟩
      split at step
      · rename_i fd receiving
        rcases Option.bind_eq_some_iff.mp step with ⟨socket, opened, step⟩
        unfold received at step
        split at step
        · rename_i ready
          cases step
          rcases leave_afterRecv _ i call fd _ with ⟨exit, left⟩
          rw [left]
          exact .received found receiving opened ready
        · cases step
      · cases step
  | recvError i errno =>
      rcases Option.bind_eq_some_iff.mp step with ⟨call, found, step⟩
      split at step
      · rename_i fd receiving
        cases step
        exact .recvFailed errno found receiving
      · cases step
  | release i =>
      rcases Option.bind_eq_some_iff.mp step with ⟨call, found, step⟩
      split at step
      · rename_i fd exit releasing
        cases step
        exact .released found releasing
      · cases step
  | notify i woken =>
      rcases Option.bind_eq_some_iff.mp step with ⟨call, found, step⟩
      cases pc : call.pc with
      | notifying exit =>
          simp only [pc] at step
          exact .notified found pc step
      | _ => simp [pc] at step

theorem sockets_setSocket_self (s : ClientState Msg) (fd : Fd) (socket : Option Socket) :
    (s.setSocket fd socket).sockets fd = socket :=
  Function.update_self ..

theorem sockets_setSocket_of_ne (s : ClientState Msg) {fd used : Fd} (different : used ≠ fd)
    (socket : Option Socket) : (s.setSocket fd socket).sockets used = s.sockets used :=
  Function.update_of_ne different ..

theorem lt_of_found {s : ClientState Msg} {i : Nat} {call : Call Msg}
    (found : s.calls[i]? = some call) : i < s.calls.length :=
  (List.getElem?_eq_some_iff.mp found).1

theorem getElem?_setCall {s : ClientState Msg} {i : Nat} {call : Call Msg}
    (found : s.calls[i]? = some call) (other : Call Msg) (j : Nat) :
    (s.setCall i other).calls[j]? = if j = i then some other else s.calls[j]? :=
  getElem?_set_eq_ite found other j

theorem countP_setCall {s : ClientState Msg} {i : Nat} {call : Call Msg}
    (found : s.calls[i]? = some call) (test : Call Msg → Bool) (other : Call Msg) :
    (s.setCall i other).calls.countP test + (if test call then 1 else 0) =
      s.calls.countP test + if test other then 1 else 0 :=
  countP_set_add test found other

/-- `notify_one` wakes one blocked thread, or there is none. -/
theorem notifyOne_eq_some {s t : ClientState Msg} {woken : Option Nat}
    (notified : s.notifyOne woken = some t) :
    (woken = none ∧ t = s ∧ ∀ call ∈ s.calls, call.pc ≠ .blocked) ∨
      ∃ j call, woken = some j ∧ s.calls[j]? = some call ∧ call.pc = .blocked ∧
        t = s.setCall j { call with pc := .notified } := by
  cases woken with
  | none =>
      left
      simp only [notifyOne] at notified
      split at notified
      · cases notified
      · rename_i nobody
        cases notified
        refine ⟨rfl, rfl, ?_⟩
        intro call member asleep
        apply nobody
        apply List.any_eq_true.mpr
        exact ⟨call, member, CallPc.isBlocked_iff.mpr asleep⟩
  | some j =>
      right
      cases found : s.calls[j]? with
      | none => simp [notifyOne, found] at notified
      | some call =>
          simp only [notifyOne, found] at notified
          split at notified
          · rename_i asleep
            cases notified
            exact ⟨j, call, rfl, found, asleep, rfl⟩
          · cases notified

theorem notifyOne_now {s t : ClientState Msg} {woken : Option Nat}
    (notified : s.notifyOne woken = some t) : t.now = s.now := by
  rcases notifyOne_eq_some notified with ⟨-, rfl, -⟩ | ⟨j, call, -, -, -, rfl⟩
  · rfl
  · rfl

/-- Time does not run backwards. -/
theorem now_le_of_stepped {s t : ClientState Msg} {action : ClientAction Msg}
    (stepped : Stepped s action t) : s.now ≤ t.now := by
  cases stepped with
  | connectFailed found connecting notified => exact (notifyOne_now notified).ge
  | notified found notifying notified => exact (notifyOne_now notified).ge
  | swept delays cleaned =>
      rw [← cleaned]
      exact ConnectionPool.le_clock_sweepMap s.pool.maxIdleTime ⟨s.now, delays⟩ s.pool.connMap
  | elapsed time => exact Nat.le_add_right _ _
  | _ => exact Nat.le_refl _

end ClientState

/-! ## Actions for runs on fixed inputs -/

/-- A local provider. -/
def localEndpoint : Endpoint where
  ip := Bytes.ofString "127.0.0.1"
  port := 8000

/-- Another one. -/
def otherEndpoint : Endpoint where
  ip := Bytes.ofString "127.0.0.1"
  port := 8001

/-- A task with a request of two bytes. -/
def spawnAt (endpoint : Endpoint) : ClientAction RpcHeader :=
  .spawn endpoint [1, 2] RpcHeader.codec

end Mprpc.Client
