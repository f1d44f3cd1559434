import Mprpc.Net.OutputStream
import Mprpc.Rpc.Answering
import Mprpc.Transition.Core
import Mprpc.Transition.Exchange

/-!
# A connection with a service behind it

`HandleRead` with `OnMessage`, a service that runs `done` once for each call and
`SendRpcResponse`, and `HandleWrite` in between, over the whole life of a
connection.  What goes out is one answer for each text that `OnMessage` was
given, in their order, whatever parts of it each `send` takes.
-/

namespace Mprpc.Rpc

open Mprpc.Net
open Mprpc.Protobuf
open Mprpc.Transition

universe u

variable {Msg : Type u}

namespace RpcProvider

/-- What is sent in answer to a text that `OnMessage` is given, where the
service runs `done` once with the response `service call`. -/
def answer (provider : RpcProvider Msg) (service : Dispatch Msg → Msg) (recvBuf : Bytes) : Bytes :=
  match provider.onMessage recvBuf with
  | .dispatched call => (call.method.output.serialize (service call)).getD []
  | _ => []

/-- The message callback with such a service; `ret` is the result of the `send`
that follows. -/
def serviceCallback (provider : RpcProvider Msg) (service : Dispatch Msg → Msg) (ret : SendRet)
    (conn : TcpConnection) : TcpConnection × Option (MessageOutcome Msg) :=
  match provider.onMessage conn.inputBuffer.readable with
  | .dispatched call => provider.messageCallback [(service call, ret)] conn
  | _ => provider.messageCallback [] conn

end RpcProvider

/-- A connection with the bytes that it has received, the texts that `OnMessage`
was given and the bytes that the socket took. -/
structure Session where
  conn : TcpConnection
  received : Bytes
  batches : List Bytes
  accepted : Bytes

/-- What the loop calls on a connection, with the results of the socket calls. -/
inductive SessionEvent
  | read (recvs : List RecvRet) (ret : SendRet)
  | write (ret : SendRet)
  deriving DecidableEq, Repr

namespace Session

/-- An accepted connection. -/
def start (fd : Fd) : Session where
  conn := .new fd
  received := []
  batches := []
  accepted := []

/-- What the `send` of one callback takes. -/
def taken (service : Dispatch Msg → Msg) (conn : TcpConnection) (ret : SendRet) :
    MessageOutcome Msg → Bytes
  | .dispatched call =>
      match call.method.output.serialize (service call) with
      | some responseStr => (conn.outputBuffer.readable ++ responseStr).take ret.taken
      | none => []
  | _ => []

/-- One call.  An exception out of `OnMessage` leaves the event loop, so nothing
is called after it. -/
def next (provider : RpcProvider Msg) (service : Dispatch Msg → Msg) (s : Session) :
    SessionEvent → Option Session
  | .read recvs ret =>
      match s.conn.handleRead (provider.serviceCallback service ret) recvs with
      | (_, some .outOfRange) => none
      | (conn, some outcome) =>
          some
            { conn := conn
              received := s.received ++ TcpConnection.received recvs
              batches := s.batches ++ [(s.conn.recvLoop recvs).inputBuffer.readable]
              accepted := s.accepted ++ taken service s.conn ret outcome }
      | (conn, none) =>
          some { s with
            conn := conn
            received := s.received ++ TcpConnection.received recvs }
  | .write ret =>
      some { s with
        conn := s.conn.handleWrite ret
        accepted := s.accepted ++ s.conn.handed ret }

/-- The peer stays: no `recv` reports the end of the stream or an error. -/
def PeerStays (_ : Session) : SessionEvent → Prop
  | .read recvs _ => TcpConnection.StaysOpen recvs
  | .write _ => True

instance (rets : List RecvRet) : Decidable (TcpConnection.StaysOpen rets) :=
  @List.decidableBAll _ _
    (fun
      | .received bytes => inferInstanceAs (Decidable (bytes ≠ []))
      | .error errno => inferInstanceAs (Decidable (errno = EAGAIN ∨ errno = EINTR)))
    rets

instance (s : Session) : (event : SessionEvent) → Decidable (PeerStays s event)
  | .read recvs _ => inferInstanceAs (Decidable (TcpConnection.StaysOpen recvs))
  | .write _ => isTrue trivial

end Session

/-! ## One callback -/

namespace RpcProvider

/-- A callback of a connected connection takes all of the input, and the answer
stands behind what was to be sent. -/
theorem serviceCallback_spec (provider : RpcProvider Msg) (service : Dispatch Msg → Msg)
    (ret : SendRet) {conn : TcpConnection} (connected : conn.state = .kConnected) :
    ∃ next, Idle next ∧
      provider.serviceCallback service ret conn =
        (next, some (provider.onMessage conn.inputBuffer.readable)) ∧
      Session.taken service conn ret (provider.onMessage conn.inputBuffer.readable) ++
          next.outputBuffer.readable =
        conn.outputBuffer.readable ++ provider.answer service conn.inputBuffer.readable := by
  unfold serviceCallback answer
  cases outcome : provider.onMessage conn.inputBuffer.readable with
  | dispatched call =>
      rcases messageCallback_spec provider [(service call, ret)] connected with
        ⟨next, idle, result⟩
      rw [outcome] at result
      refine ⟨next, idle, result, ?_⟩
      have retrieved : { conn with inputBuffer := conn.inputBuffer.retrieveAll }.connected =
          true := beq_iff_eq.mpr connected
      have replied : next = sendRpcResponse
          { conn with inputBuffer := conn.inputBuffer.retrieveAll } call.method.output
            (service call) ret := by
        unfold messageCallback Buffer.retrieveAllAsString at result
        simp only [outcome] at result
        exact (congrArg Prod.fst result).symm
      rw [replied]
      dsimp only [Session.taken, sendRpcResponse]
      cases call.method.output.serialize (service call) with
      | none => exact (List.append_nil _).symm
      | some responseStr =>
          dsimp only [Option.getD_some]
          rw [TcpConnection.readable_send retrieved, List.take_append_drop]
  | _ =>
      rcases messageCallback_spec provider [] connected with ⟨next, idle, result⟩
      rw [outcome] at result
      refine ⟨next, idle, result, ?_⟩
      have kept : next = { conn with inputBuffer := conn.inputBuffer.retrieveAll } := by
        unfold messageCallback Buffer.retrieveAllAsString at result
        simp only [outcome] at result
        exact (congrArg Prod.fst result).symm
      rw [kept]
      exact (List.append_nil _).symm

end RpcProvider

namespace Session

variable {provider : RpcProvider Msg} {service : Dispatch Msg → Msg} {s t : Session}

/-- What a session keeps: all input has been handed on, and what the socket took
and what waits are the answers in order. -/
structure Serves (provider : RpcProvider Msg) (service : Dispatch Msg → Msg) (s : Session) :
    Prop where
  idle : RpcProvider.Idle s.conn
  handedOn : s.batches.flatten = s.received
  answered : s.accepted ++ s.conn.outputBuffer.readable =
    s.batches.flatMap (provider.answer service)

/-- Up to the end of the stream the loop takes in what is received. -/
theorem arriving_eq_received {recvs : List RecvRet}
    (stays : TcpConnection.endsStream recvs = false) :
    TcpConnection.arriving recvs = TcpConnection.received recvs := by
  induction recvs with
  | nil => rfl
  | cons ret recvs inductionHypothesis =>
      cases ret with
      | received bytes =>
          cases bytes with
          | nil => cases stays
          | cons byte bytes =>
              exact congrArg ((byte :: bytes) ++ ·) (inductionHypothesis stays)
      | error errno =>
          unfold TcpConnection.endsStream at stays
          unfold TcpConnection.arriving TcpConnection.received
          by_cases again : errno = EAGAIN
          · rw [if_pos again, again]
            rfl
          · rw [if_neg again] at stays ⊢
            by_cases interrupted : errno = EINTR
            · rw [if_pos interrupted] at stays ⊢
              exact inductionHypothesis stays
            · rw [if_neg interrupted] at stays
              cases stays

theorem Serves.write (serves : s.Serves provider service) (ret : SendRet) :
    Serves provider service
      { s with
        conn := s.conn.handleWrite ret
        accepted := s.accepted ++ s.conn.handed ret } := by
  constructor
  · exact ⟨by rw [TcpConnection.handleWrite_state, serves.idle.1],
      by rw [TcpConnection.handleWrite_inputBuffer, serves.idle.2]⟩
  · exact serves.handedOn
  · rw [List.append_assoc, TcpConnection.handed_append_readable]
    exact serves.answered

/-- A read that leaves the stream open. -/
theorem Serves.read (serves : s.Serves provider service) {recvs : List RecvRet} {ret : SendRet}
    (stays : TcpConnection.endsStream recvs = false)
    (step : s.next provider service (.read recvs ret) = some t) : t.Serves provider service := by
  have state : (s.conn.recvLoop recvs).state = .kConnected := by
    rw [TcpConnection.recvLoop_state, stays]
    exact serves.idle.1
  have input : (s.conn.recvLoop recvs).inputBuffer.readable = TcpConnection.received recvs := by
    rw [TcpConnection.readable_recvLoop, serves.idle.2, List.nil_append,
      arriving_eq_received stays]
  have output := TcpConnection.recvLoop_outputBuffer s.conn recvs
  by_cases ready : (s.conn.recvLoop recvs).messageReady = true
  · rcases provider.serviceCallback_spec service ret state with ⟨conn, idle, called, sent⟩
    have read : s.conn.handleRead (provider.serviceCallback service ret) recvs =
        (conn, some (provider.onMessage (s.conn.recvLoop recvs).inputBuffer.readable)) := by
      rw [TcpConnection.handleRead, if_pos ready, called]
    have sameTaken : ∀ outcome, taken service (s.conn.recvLoop recvs) ret outcome =
        taken service s.conn ret outcome := by
      intro outcome
      cases outcome with
      | dispatched call => rw [taken, taken, output]
      | _ => rfl
    rw [sameTaken, output] at sent
    simp only [next, read] at step
    split at step
    · cases step
    · rename_i outcome _ same
      cases same
      cases step
      constructor
      · exact idle
      · rw [List.flatten_append, List.flatten_singleton, serves.handedOn, input]
      · rw [List.flatMap_append, List.flatMap_singleton, ← serves.answered, List.append_assoc,
          sent, List.append_assoc]
    · rename_i same
      cases same
  · have read : s.conn.handleRead (provider.serviceCallback service ret) recvs =
        (s.conn.recvLoop recvs, none) := by
      rw [TcpConnection.handleRead, if_neg ready]
    have nothing : (s.conn.recvLoop recvs).inputBuffer.readable = [] := by
      by_contra readable
      apply ready
      have positive := (Buffer.readableBytes_pos_iff _).mpr readable
      simp [TcpConnection.messageReady, TcpConnection.connected, state, positive]
    simp only [next, read] at step
    cases step
    constructor
    · exact ⟨state, nothing⟩
    · rw [← input, nothing, List.append_nil]
      exact serves.handedOn
    · rw [output]
      exact serves.answered

/-- A read passes on what it received, if that is anything. -/
theorem batches_of_read (idle : RpcProvider.Idle s.conn) {recvs : List RecvRet} {ret : SendRet}
    (stays : TcpConnection.endsStream recvs = false)
    (step : s.next provider service (.read recvs ret) = some t) :
    t.batches = s.batches ++ Exchange.batch (TcpConnection.received recvs) := by
  have state : (s.conn.recvLoop recvs).state = .kConnected := by
    rw [TcpConnection.recvLoop_state, stays]
    exact idle.1
  have input : (s.conn.recvLoop recvs).inputBuffer.readable = TcpConnection.received recvs := by
    rw [TcpConnection.readable_recvLoop, idle.2, List.nil_append, arriving_eq_received stays]
  have readyIff := Buffer.readableBytes_pos_iff (s.conn.recvLoop recvs).inputBuffer
  rw [input] at readyIff
  by_cases nothing : TcpConnection.received recvs = []
  · have notReady : (s.conn.recvLoop recvs).messageReady = false := by
      have empty := mt readyIff.mp (not_not.mpr nothing)
      simp [TcpConnection.messageReady, empty]
    have read : s.conn.handleRead (provider.serviceCallback service ret) recvs =
        (s.conn.recvLoop recvs, none) := by
      rw [TcpConnection.handleRead, notReady]
      rfl
    simp only [next, read] at step
    cases step
    rw [nothing]
    exact (List.append_nil _).symm
  · have ready : (s.conn.recvLoop recvs).messageReady = true := by
      have readable := readyIff.mpr nothing
      simp [TcpConnection.messageReady, TcpConnection.connected, state, readable]
    obtain ⟨conn, -, called, -⟩ := provider.serviceCallback_spec service ret state
    have read : s.conn.handleRead (provider.serviceCallback service ret) recvs =
        (conn, some (provider.onMessage (s.conn.recvLoop recvs).inputBuffer.readable)) := by
      rw [TcpConnection.handleRead, if_pos ready, called]
    simp only [next, read] at step
    split at step
    · cases step
    · cases step
      rw [input, Exchange.batch_of_ne nothing]
    · rename_i same
      cases same

/-- The end of the stream passes nothing on. -/
theorem next_read_of_ends {recvs : List RecvRet} (ends : TcpConnection.endsStream recvs = true)
    (ret : SendRet) :
    s.next provider service (.read recvs ret) =
      some { s with
        conn := s.conn.recvLoop recvs
        received := s.received ++ TcpConnection.received recvs } := by
  have closed : (s.conn.recvLoop recvs).state = .kDisconnected := by
    rw [TcpConnection.recvLoop_state, ends]
    rfl
  have notReady : (s.conn.recvLoop recvs).messageReady = false := by
    simp [TcpConnection.messageReady, TcpConnection.connected, closed]
  have read : s.conn.handleRead (provider.serviceCallback service ret) recvs =
      (s.conn.recvLoop recvs, none) := by
    rw [TcpConnection.handleRead, notReady]
    rfl
  simp only [next, read]

/-- What one call adds to the records of a session: the session goes on and passes on
all that it received, or it ends and passes nothing on. -/
theorem Serves.next (serves : s.Serves provider service) {event : SessionEvent}
    (step : s.next provider service event = some t) :
    ∃ taken bytes, t.received = s.received ++ taken ∧ t.accepted = s.accepted ++ bytes ∧
      (t.Serves provider service ∧ t.batches = s.batches ++ Exchange.batch taken ∨
        t.conn.connected = false ∧ t.batches = s.batches ∧ bytes = []) := by
  cases event with
  | write ret =>
      cases step
      exact ⟨[], s.conn.handed ret, (List.append_nil _).symm, rfl,
        .inl ⟨serves.write ret, (List.append_nil _).symm⟩⟩
  | read recvs ret =>
      cases ends : TcpConnection.endsStream recvs with
      | true =>
          rw [next_read_of_ends ends] at step
          cases step
          have closed : (s.conn.recvLoop recvs).connected = false := by
            rw [TcpConnection.connected, TcpConnection.recvLoop_state, ends]
            rfl
          exact ⟨_, [], rfl, (List.append_nil _).symm, .inr ⟨closed, rfl, rfl⟩⟩
      | false =>
          have after := serves.read ends step
          have batches := batches_of_read serves.idle ends step
          obtain ⟨bytes, received, accepted⟩ : ∃ bytes,
              t.received = s.received ++ TcpConnection.received recvs ∧
                t.accepted = s.accepted ++ bytes := by
            simp only [Session.next] at step
            split at step
            · cases step
            · cases step
              exact ⟨_, rfl, rfl⟩
            · cases step
              exact ⟨[], rfl, (List.append_nil _).symm⟩
          exact ⟨_, bytes, received, accepted, .inl ⟨after, batches⟩⟩

/-- In every sequence of reads and writes of a connection whose peer stays, the
texts given to `OnMessage` are what was received, and the bytes that the socket
took, followed by those that wait, are the answers to these texts in order. -/
theorem answers_in_order {fd : Fd}
    (reached : Reachable (next provider service) PeerStays (start fd) s) :
    s.batches.flatten = s.received ∧
      s.accepted ++ s.conn.outputBuffer.readable =
        s.batches.flatMap (provider.answer service) := by
  have serves : s.Serves provider service := by
    apply reached.invariant
    · exact ⟨⟨rfl, rfl⟩, rfl, rfl⟩
    · intro s event t serves stays step
      cases event with
      | read recvs ret =>
          exact serves.read (TcpConnection.arriving_of_staysOpen stays).1 step
      | write ret =>
          cases step
          exact serves.write ret
  exact ⟨serves.handedOn, serves.answered⟩

/-- The text of a request. -/
def frameOf (request : RpcRequest) : Bytes :=
  request.frame.getD []

/-- A frame in two pieces whose answer goes out in two pieces, and a request of
a service that is not there. -/
theorem answers_in_order_partial :
    ∃ s : Session, Reachable (next userProvider fun _ => { serviceName := [97] }) PeerStays
        (start 7) s ∧
      s.accepted = [10, 1, 97] ∧ s.batches.length = 2 ∧
      s.batches.flatten = s.received ∧
      s.accepted ++ s.conn.outputBuffer.readable =
        s.batches.flatMap (userProvider.answer fun _ => { serviceName := [97] }) := by
  have run : ∃ s : Session,
      Reachable (next userProvider fun _ => { serviceName := [97] }) PeerStays (start 7) s ∧
        s.accepted = [10, 1, 97] ∧ s.batches.length = 2 := by
    apply exists_reachable [
      .read [.received (frameOf RpcProvider.loginRequest |>.take 9), .error EINTR,
        .received (frameOf RpcProvider.loginRequest |>.drop 9), .error EAGAIN] (.sent 1),
      .read [.error EAGAIN] (.sent 0), .write (.sent 2),
      .read [.received (frameOf { RpcProvider.loginRequest with serviceName := [88] })] (.sent 0)]
    · decide +kernel
    · decide +kernel
  rcases run with ⟨s, reached, accepted, twice⟩
  exact ⟨s, reached, accepted, twice, answers_in_order reached⟩

end Session

end Mprpc.Rpc
