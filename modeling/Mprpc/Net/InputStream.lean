import Mprpc.Net.Reactor

/-!
# The input stream of one connection

The reported events of a connection in the order in which the loop handles them,
with any flags and any results of `recv`.  The message callback takes the whole
input buffer out, as `RpcProvider::OnMessage` does, and may send.

A connection that ends is closed at once.  What its last event brought is then
dropped: a hang-up is handled before `EPOLLIN` without a `recv`, and a read loop
that meets the end of the stream leaves a connection that is not connected, which
gets no callback.  All that came with earlier events has been passed on.
-/

namespace Mprpc.Net

open Mprpc.Transition

namespace TcpConnection

/-- What is left in `m_connections` after `HandleRead` or `HandleWrite`. -/
def kept (conn : TcpConnection) : Option TcpConnection :=
  if conn.connected then some conn else none

end TcpConnection

/-- One reported event of a connection: the flags, what its `recv` calls return
(or would return, if the branch makes none), the result of the `send` of
`HandleWrite`, and what the message callback sends. -/
structure ConnEvent where
  flags : EpollEvents
  recvs : List RecvRet
  sent : SendRet := .error EAGAIN
  replies : List (Bytes × SendRet) := []
  deriving DecidableEq, Repr

namespace ConnEvent

/-- The message callback: it takes the input out with `RetrieveAllAsString`, sends the
replies and returns the string that it was given. -/
def messageCallback (event : ConnEvent) (conn : TcpConnection) : TcpConnection × Option Bytes :=
  let (recvBuf, inputBuffer) := conn.inputBuffer.retrieveAllAsString
  (event.replies.foldl (fun conn reply => conn.send reply.1 reply.2)
    { conn with inputBuffer := inputBuffer }, some recvBuf)

/-- The same callback as a list of acts. -/
def acts (event : ConnEvent) (conn : TcpConnection) : List CallbackAct :=
  .retrieve (conn.recvLoop event.recvs).inputBuffer.readableBytes ::
    event.replies.map fun reply => .send reply.1 reply.2

/-- The event as the loop sees it. -/
def results (event : ConnEvent) (conn : TcpConnection) : EventResults where
  recvs := event.recvs
  sent := event.sent
  acts := event.acts conn

/-- The bytes that are received or readable when the event is handled. -/
def batch (event : ConnEvent) : Bytes :=
  if event.flags.hangsUp || event.flags.epollin then TcpConnection.arriving event.recvs else []

/-- The event ends the connection: a hang-up is reported, or the read loop meets
the end. -/
def Closes (event : ConnEvent) : Prop :=
  event.flags.hangsUp = true ∨
    event.flags.epollin = true ∧ TcpConnection.endsStream event.recvs = true

instance (event : ConnEvent) : Decidable event.Closes :=
  inferInstanceAs (Decidable (_ ∨ _))

end ConnEvent

/-- A connection, while `m_connections` has it, with the bytes that arrived, the strings
that the calls of the callback got, and what was dropped unread or with the input
buffer. -/
structure InputStream where
  conn : Option TcpConnection
  arrived : Bytes
  passed : List Bytes
  dropped : Bytes

namespace InputStream

/-- A connection that was just accepted. -/
def start (fd : Fd) : InputStream where
  conn := some (.new fd)
  arrived := []
  passed := []
  dropped := []

/-- The branch for `EPOLLRDHUP`, `EPOLLHUP` and `EPOLLERR`. -/
def hangUp (s : InputStream) (conn : TcpConnection) (event : ConnEvent) : InputStream :=
  { s with
    conn := none
    arrived := s.arrived ++ TcpConnection.arriving event.recvs
    dropped := s.dropped ++ conn.inputBuffer.readable ++ TcpConnection.arriving event.recvs }

/-- The end of the other two branches. -/
def settle (s : InputStream) (conn : TcpConnection) : InputStream :=
  { s with
    conn := conn.kept
    dropped := if conn.connected then s.dropped else s.dropped ++ conn.inputBuffer.readable }

/-- The branch for `EPOLLIN`. -/
def readable (s : InputStream) (conn : TcpConnection) (event : ConnEvent) : InputStream :=
  let (conn, recvBuf) := conn.handleRead event.messageCallback event.recvs
  { s with
    arrived := s.arrived ++ TcpConnection.arriving event.recvs
    passed := s.passed ++ recvBuf.toList }.settle conn

/-- The handling of one event. -/
def next (s : InputStream) (event : ConnEvent) : Option InputStream :=
  s.conn.map fun conn =>
    if event.flags.hangsUp then s.hangUp conn event
    else if event.flags.epollin then s.readable conn event
    else if event.flags.epollout then s.settle (conn.handleWrite event.sent)
    else s

/-! ## The same connection in the loop -/

theorem connections_removefd (fds : Descriptors) (fd : Fd) :
    (fds.removefd fd).connections fd = none := by
  unfold Descriptors.removefd Descriptors.erase
  split
  · rename_i absent
    exact absent
  · exact Function.update_self ..

theorem connections_settle (r : Reactor) (fd : Fd) (conn : TcpConnection) :
    (r.settle fd conn).fds.connections fd = conn.kept := by
  have rearmed : ∀ fds : Descriptors, (fds.rearm fd).connections = fds.connections := by
    intro fds
    unfold Descriptors.rearm
    split
    · rfl
    · rfl
  unfold Reactor.settle TcpConnection.kept
  cases conn.connected with
  | true => exact (congrFun (rearmed _) fd).trans (Function.update_self ..)
  | false => exact connections_removefd _ fd

/-- The acts do what the callback does. -/
theorem handleRead_acts (event : ConnEvent) (conn : TcpConnection) :
    (conn.handleRead (TcpConnection.callback (event.acts conn)) event.recvs).1 =
      (conn.handleRead event.messageCallback event.recvs).1 := by
  have taken : ∀ buffer : Buffer, buffer.retrieve buffer.readableBytes = buffer.retrieveAll :=
    fun buffer => dif_neg (Nat.lt_irrefl buffer.readableBytes)
  unfold TcpConnection.handleRead
  dsimp only
  split
  · unfold TcpConnection.callback ConnEvent.acts ConnEvent.messageCallback
    rw [List.foldl_cons, List.foldl_map]
    simp only [TcpConnection.act, taken, Buffer.retrieveAllAsString]
  · rfl

/-- The loop handles an event of a connection as this model does. -/
theorem conn_eq_of_handleEvent {r : Reactor} {fd : Fd} {conn : TcpConnection} {s t : InputStream}
    {event : ConnEvent} (found : r.fds.connections fd = some conn) (current : s.conn = some conn)
    (notServer : fd ≠ r.fds.serverFd) (notPipe : fd ≠ r.fds.pipeRead)
    (step : s.next event = some t) :
    ∃ r', r.handleEvent fd event.flags (event.results conn) = some r' ∧
      r'.fds.connections fd = t.conn := by
  have adjusted : (r.adjust fd).fds.connections fd = some conn := found
  rcases Option.map_eq_some_iff.mp step with ⟨same, found', result⟩
  rw [current] at found'
  cases found'
  unfold Reactor.handleEvent
  rw [if_neg notServer, if_neg (fun pipe => notPipe pipe.1)]
  split at result
  · rename_i hangsUp
    rw [if_pos hangsUp]
    subst result
    exact ⟨_, rfl, connections_removefd _ fd⟩
  · rename_i noHangUp
    rw [if_neg noHangUp]
    split at result
    · rename_i readable
      rw [if_pos readable]
      subst result
      refine ⟨_, rfl, ?_⟩
      unfold Reactor.readable
      dsimp only
      rw [adjusted]
      have read := congrArg TcpConnection.kept (handleRead_acts event conn)
      exact (connections_settle _ fd _).trans read
    · rename_i notReadable
      rw [if_neg notReadable]
      split at result
      · rename_i writable
        rw [if_pos writable]
        subst result
        refine ⟨_, rfl, ?_⟩
        unfold Reactor.writable
        dsimp only
        rw [adjusted]
        exact connections_settle _ fd _
      · rename_i notWritable
        rw [if_neg notWritable]
        subst result
        exact ⟨r, rfl, found.trans current.symm⟩

/-! ## What is passed on -/

/-- Sending leaves the state and the input buffer alone. -/
theorem sends_spec (conn : TcpConnection) (replies : List (Bytes × SendRet)) :
    let sent := replies.foldl (fun conn reply => conn.send reply.1 reply.2) conn
    sent.state = conn.state ∧ sent.inputBuffer = conn.inputBuffer := by
  dsimp only
  induction replies generalizing conn with
  | nil => exact ⟨rfl, rfl⟩
  | cons reply replies inductionHypothesis =>
      have rest := inductionHypothesis (conn.send reply.1 reply.2)
      rw [TcpConnection.send_state, TcpConnection.send_inputBuffer] at rest
      exact rest

/-- The callback gets all input and takes it out. -/
theorem messageCallback_spec (event : ConnEvent) (conn : TcpConnection) :
    ∃ called, event.messageCallback conn = (called, some conn.inputBuffer.readable) ∧
      called.state = conn.state ∧ called.inputBuffer.readable = [] := by
  rcases sends_spec { conn with inputBuffer := conn.inputBuffer.retrieveAll } event.replies with
    ⟨state, input⟩
  refine ⟨_, rfl, state, ?_⟩
  rw [input]
  exact Buffer.readable_retrieveAll _

/-- What a step keeps: all that arrived was passed on or dropped, and while there
is a connection nothing was dropped and nothing waits in its input buffer. -/
structure Delivered (s : InputStream) : Prop where
  all : s.arrived = s.passed.flatten ++ s.dropped
  connected : ∀ conn ∈ s.conn, conn.connected = true
  nothingWaits : ∀ conn ∈ s.conn, conn.inputBuffer.readable = []
  nothingDropped : ∀ conn ∈ s.conn, s.dropped = []

variable {s t : InputStream} {conn : TcpConnection} {event : ConnEvent}

theorem settle_of_connected (connected : conn.connected = true) :
    s.settle conn = { s with conn := some conn } := by
  rw [settle, TcpConnection.kept, if_pos connected, if_pos connected]

theorem settle_of_ended (ended : conn.connected = false) :
    s.settle conn =
      { s with conn := none, dropped := s.dropped ++ conn.inputBuffer.readable } := by
  rw [settle, TcpConnection.kept, if_neg (by simp [ended]), if_neg (by simp [ended])]

/-- A read that meets no end: the batch is passed on, and the connection stays. -/
theorem readable_of_stays (connected : conn.connected = true)
    (drained : conn.inputBuffer.readable = [])
    (stays : TcpConnection.endsStream event.recvs = false) :
    ∃ read, (s.readable conn event).conn = some read ∧ read.connected = true ∧
      read.inputBuffer.readable = [] ∧ (s.readable conn event).dropped = s.dropped ∧
      (s.readable conn event).passed.flatten =
        s.passed.flatten ++ TcpConnection.arriving event.recvs := by
  have input := TcpConnection.readable_recvLoop conn event.recvs
  have state := TcpConnection.recvLoop_state conn event.recvs
  rcases messageCallback_spec event (conn.recvLoop event.recvs) with
    ⟨called, result, calledState, calledInput⟩
  rw [drained, List.nil_append] at input
  rw [stays, if_neg Bool.false_ne_true, eq_of_beq connected] at state
  have looped : (conn.recvLoop event.recvs).connected = true := by
    rw [TcpConnection.connected, state]
    rfl
  unfold readable TcpConnection.handleRead
  dsimp only
  by_cases ready : (conn.recvLoop event.recvs).messageReady = true
  · have stillConnected : called.connected = true := by
      rw [TcpConnection.connected, calledState, state]
      rfl
    rw [if_pos ready, result, settle_of_connected stillConnected]
    refine ⟨_, rfl, stillConnected, calledInput, rfl, ?_⟩
    rw [Option.toList_some, List.flatten_append, List.flatten_singleton, input]
  · have nothing : TcpConnection.arriving event.recvs = [] := by
      by_contra some
      rw [← input, ← ne_eq, ← Buffer.readableBytes_pos_iff] at some
      exact ready (by simp [TcpConnection.messageReady, looped, some])
    rw [if_neg ready, settle_of_connected looped]
    refine ⟨_, rfl, looped, input.trans nothing, rfl, ?_⟩
    simp [nothing]

/-- A read that meets the end: no callback, and the batch is dropped with the
connection. -/
theorem readable_of_ends (drained : conn.inputBuffer.readable = [])
    (ends : TcpConnection.endsStream event.recvs = true) :
    (s.readable conn event).conn = none ∧ (s.readable conn event).passed = s.passed ∧
      (s.readable conn event).dropped = s.dropped ++ TcpConnection.arriving event.recvs := by
  have input := TcpConnection.readable_recvLoop conn event.recvs
  have state := TcpConnection.recvLoop_state conn event.recvs
  rw [drained, List.nil_append] at input
  rw [ends, if_pos rfl] at state
  have ended : (conn.recvLoop event.recvs).connected = false := by
    rw [TcpConnection.connected, state]
    rfl
  have notReady : ¬ (conn.recvLoop event.recvs).messageReady = true := by
    simp [TcpConnection.messageReady, ended]
  unfold readable TcpConnection.handleRead
  dsimp only
  rw [if_neg notReady, settle_of_ended ended, input]
  exact ⟨rfl, List.append_nil _, rfl⟩

/-- What one event does to a connection with nothing waiting: an event that closes
it drops its batch, any other passes it on. -/
inductive Handled (s : InputStream) (event : ConnEvent) (t : InputStream) : Prop
  | closed (closes : event.Closes) (gone : t.conn = none) (passed : t.passed = s.passed)
      (dropped : t.dropped = s.dropped ++ event.batch)
  | passed (stays : ¬ event.Closes) (next : TcpConnection) (current : t.conn = some next)
      (connected : next.connected = true) (drained : next.inputBuffer.readable = [])
      (passed : t.passed.flatten = s.passed.flatten ++ event.batch)
      (dropped : t.dropped = s.dropped)

theorem handled_of_next (current : s.conn = some conn) (connected : conn.connected = true)
    (drained : conn.inputBuffer.readable = []) (step : s.next event = some t) :
    t.arrived = s.arrived ++ event.batch ∧ Handled s event t := by
  rcases Option.map_eq_some_iff.mp step with ⟨same, found, result⟩
  rw [current] at found
  cases found
  unfold ConnEvent.batch
  split at result
  · rename_i hangsUp
    subst result
    refine ⟨by simp [hangsUp, hangUp], .closed (.inl hangsUp) rfl rfl ?_⟩
    simp [hangsUp, hangUp, drained, ConnEvent.batch]
  · rename_i noHangUp
    split at result
    · rename_i readable
      subst result
      refine ⟨by simp [readable, InputStream.readable, settle], ?_⟩
      have batch : event.batch = TcpConnection.arriving event.recvs := by
        simp [ConnEvent.batch, readable]
      cases ends : TcpConnection.endsStream event.recvs with
      | true =>
          rcases readable_of_ends (s := s) drained ends with ⟨gone, passed, dropped⟩
          exact .closed (.inr ⟨readable, ends⟩) gone passed (batch ▸ dropped)
      | false =>
          rcases readable_of_stays (s := s) connected drained ends with
            ⟨next, current, connected, drained, dropped, passed⟩
          refine .passed ?_ next current connected drained (batch ▸ passed) dropped
          rintro (hangsUp | ⟨-, ended⟩)
          · exact noHangUp hangsUp
          · rw [ends] at ended
            cases ended
    · rename_i notReadable
      have stays : ¬ event.Closes := by
        rintro (hangsUp | ⟨readable, -⟩)
        · exact noHangUp hangsUp
        · exact notReadable readable
      have nothing : event.batch = [] := by simp [ConnEvent.batch, noHangUp, notReadable]
      have unchanged : s.passed.flatten = s.passed.flatten ++ event.batch := by
        rw [nothing, List.append_nil]
      rw [← ConnEvent.batch, nothing, List.append_nil]
      split at result
      · have wrote : (conn.handleWrite event.sent).connected = true := by
          rw [TcpConnection.connected, TcpConnection.handleWrite_state]
          exact connected
        have input : (conn.handleWrite event.sent).inputBuffer.readable = [] := by
          rw [TcpConnection.handleWrite_inputBuffer, drained]
        rw [settle_of_connected wrote] at result
        subst result
        exact ⟨rfl, .passed stays _ rfl wrote input unchanged rfl⟩
      · subst result
        exact ⟨rfl, .passed stays conn current connected drained unchanged rfl⟩

theorem Delivered.of_next (delivered : s.Delivered) (step : s.next event = some t) :
    t.Delivered := by
  rcases Option.map_eq_some_iff.mp step with ⟨conn, current, -⟩
  have nothingDropped := delivered.nothingDropped conn current
  rcases handled_of_next current (delivered.connected conn current)
    (delivered.nothingWaits conn current) step with ⟨arrived, handled⟩
  have all := delivered.all
  rw [nothingDropped, List.append_nil] at all
  cases handled with
  | closed closes gone passed dropped =>
      constructor
      · rw [arrived, all, passed, dropped, nothingDropped, List.nil_append]
      · rw [gone]
        exact nofun
      · rw [gone]
        exact nofun
      · rw [gone]
        exact nofun
  | passed stays next nextCurrent connected drained passed dropped =>
      constructor
      · rw [arrived, all, passed, dropped, nothingDropped, List.append_nil]
      · rw [nextCurrent]
        rintro _ ⟨⟩
        exact connected
      · rw [nextCurrent]
        rintro _ ⟨⟩
        exact drained
      · rw [dropped]
        exact fun _ _ => nothingDropped

theorem delivered_of_reachable {allowed : InputStream → ConnEvent → Prop} {fd : Fd}
    (reached : Reachable next allowed (start fd) s) : s.Delivered := by
  apply reached.invariant
  · refine ⟨rfl, ?_, ?_, fun _ _ => rfl⟩
    · rintro _ ⟨⟩
      rfl
    · rintro _ ⟨⟩
      exact Buffer.readable_new _
  · exact fun s event t delivered _ step => delivered.of_next step

/-- In every life of a connection, what arrived is what was passed to the callback,
in order, followed by what was dropped.  Nothing is dropped while the connection is
there: the event that closes it drops its own batch, and every other event passes
its batch on. -/
theorem arrived_eq_passed_append_dropped {fd : Fd}
    (reached : Reachable next Unrestricted (start fd) s) :
    s.arrived = s.passed.flatten ++ s.dropped ∧
      (s.conn.isSome = true → s.dropped = []) ∧
      ∀ event t, s.next event = some t →
        (event.Closes → t.conn = none ∧ t.passed = s.passed ∧ t.dropped = event.batch) ∧
        (¬ event.Closes → t.conn.isSome = true ∧
          t.passed.flatten = s.passed.flatten ++ event.batch) := by
  have delivered := delivered_of_reachable reached
  refine ⟨delivered.all, ?_, ?_⟩
  · intro present
    rcases Option.isSome_iff_exists.mp present with ⟨conn, current⟩
    exact delivered.nothingDropped conn current
  · intro event t step
    rcases Option.map_eq_some_iff.mp step with ⟨conn, current, -⟩
    have nothingDropped := delivered.nothingDropped conn current
    rcases handled_of_next current (delivered.connected conn current)
      (delivered.nothingWaits conn current) step with ⟨-, handled⟩
    cases handled with
    | closed closes gone passed dropped =>
        rw [nothingDropped, List.nil_append] at dropped
        exact ⟨fun _ => ⟨gone, passed, dropped⟩, fun stays => absurd closes stays⟩
    | passed stays next nextCurrent connected drained passed dropped =>
        refine ⟨fun closes => absurd closes stays, fun _ => ⟨?_, passed⟩⟩
        rw [nextCurrent]
        rfl

/-- Two bytes and the end of the stream in one read loop. -/
def endInLoop : ConnEvent where
  flags := { epollin := true }
  recvs := [.received [1, 2], .received []]

/-- Two bytes, reported together with a hang-up. -/
def endReported : ConnEvent where
  flags := { epollin := true, epollrdhup := true }
  recvs := [.received [1, 2], .received []]

/-- Either way the two bytes arrive and no callback gets them. -/
theorem last_batch_dropped :
    (∃ s ∈ run next (start 7) [endInLoop], s.arrived = [1, 2] ∧ s.passed = []) ∧
      ∃ s ∈ run next (start 7) [endReported], s.arrived = [1, 2] ∧ s.passed = [] := by
  decide +kernel

/-- Two batches, the second of them in two chunks with an interruption between. -/
theorem all_batches_passed :
    ∃ s, Reachable next Unrestricted (start 7) s ∧ s.passed = [[1, 2], [3, 4, 5]] ∧
      s.conn.isSome = true ∧ s.arrived = s.passed.flatten ++ s.dropped ∧
      (s.conn.isSome = true → s.dropped = []) ∧
      ∀ event t, s.next event = some t →
        (event.Closes → t.conn = none ∧ t.passed = s.passed ∧ t.dropped = event.batch) ∧
        (¬ event.Closes → t.conn.isSome = true ∧
          t.passed.flatten = s.passed.flatten ++ event.batch) := by
  have run : ∃ s, Reachable next Unrestricted (start 7) s ∧ s.passed = [[1, 2], [3, 4, 5]] ∧
      s.conn.isSome = true := by
    apply exists_reachable [
      { flags := { epollin := true }
        recvs := [.received [1, 2], .error EAGAIN]
        replies := [([9, 9], .sent 1)] },
      { flags := { epollin := true }
        recvs := [.received [3], .error EINTR, .received [4, 5]] }]
    · exact Meets.unrestricted ..
    · decide +kernel
  rcases run with ⟨s, reached, passed, present⟩
  exact ⟨s, reached, passed, present, arrived_eq_passed_append_dropped reached⟩

end InputStream

end Mprpc.Net
