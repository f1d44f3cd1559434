import Mprpc.Net.Buffer
import Mprpc.Net.Socket

/-!
# Server-side connections: `TcpConnection`

A connection owns a descriptor, a state and two buffers.  The functions below
follow the source with the results of `recv` and `send` as arguments; the
message callback is an argument of `handleRead`, so that the RPC layer plugs in
its own.  The connection callback (`RpcProvider::OnConnection`) does nothing and
is left out.
-/

namespace Mprpc.Net

universe u

/-- `TcpConnection::StateE`. -/
inductive StateE
  | kDisconnected
  | kConnecting
  | kConnected
  | kDisconnecting
  deriving DecidableEq, Repr

/-- `class TcpConnection`. -/
structure TcpConnection where
  fd : Fd
  state : StateE
  inputBuffer : Buffer
  outputBuffer : Buffer

namespace TcpConnection

/-- `TcpConnection(fd)`. -/
def new (fd : Fd) : TcpConnection where
  fd := fd
  state := .kConnected
  inputBuffer := .new
  outputBuffer := .new

/-- `connected`. -/
def connected (conn : TcpConnection) : Bool :=
  conn.state == .kConnected

/-- `HandleClose`. -/
def handleClose (conn : TcpConnection) : TcpConnection :=
  { conn with state := .kDisconnected }

/-- `HandleWrite`, with the result of its `send`.  The test for
`kDisconnecting` stands under the test for `kConnected`, as in the source. -/
def handleWrite (conn : TcpConnection) (ret : SendRet) : TcpConnection :=
  if conn.state = .kConnected ∧ 0 < conn.outputBuffer.readableBytes then
    match ret with
    | .sent (n + 1) =>
        let conn := { conn with outputBuffer := conn.outputBuffer.retrieve (n + 1) }
        if conn.outputBuffer.readableBytes = 0 ∧ conn.state = .kDisconnecting then
          conn.handleClose
        else conn
    | _ => conn
  else conn

/-- `Send`: queue the message and try to write at once. -/
def send (conn : TcpConnection) (msg : Bytes) (ret : SendRet) : TcpConnection :=
  if conn.state = .kConnected then
    { conn with outputBuffer := conn.outputBuffer.append msg }.handleWrite ret
  else conn

/-- `Shutdown`. -/
def shutdown (conn : TcpConnection) : TcpConnection :=
  if conn.state = .kConnected then { conn with state := .kDisconnecting } else conn

/-- The receive loop of `HandleRead`, with the results of its `recv` calls.  A
list that ends stands for an `EAGAIN` at that point. -/
def recvLoop (conn : TcpConnection) : List RecvRet → TcpConnection
  | [] => conn
  | .received [] :: _ => conn.handleClose
  | .received bytes :: rets =>
      recvLoop { conn with inputBuffer := conn.inputBuffer.append bytes } rets
  | .error errno :: rets =>
      if errno = EAGAIN then conn
      else if errno = EINTR then recvLoop conn rets
      else conn.handleClose

/-- The condition under which `HandleRead` runs the message callback. -/
def messageReady (conn : TcpConnection) : Bool :=
  conn.connected && decide (0 < conn.inputBuffer.readableBytes)

/-- `HandleRead`: receive until there is nothing more, then hand the input
buffer to the message callback, whose result is returned. -/
def handleRead {ω : Type u} (messageCallback : TcpConnection → TcpConnection × Option ω)
    (conn : TcpConnection) (rets : List RecvRet) : TcpConnection × Option ω :=
  let conn := conn.recvLoop rets
  if conn.messageReady then messageCallback conn else (conn, none)

/-! ## What each operation leaves alone -/

@[simp]
theorem handleClose_fd (conn : TcpConnection) : conn.handleClose.fd = conn.fd :=
  rfl

theorem handleWrite_eq (conn : TcpConnection) (ret : SendRet) :
    conn.handleWrite ret =
      { conn with outputBuffer := (conn.handleWrite ret).outputBuffer } := by
  unfold handleWrite
  split
  · rename_i writable
    cases ret with
    | sent count =>
        cases count with
        | zero => rfl
        | succ n => simp [writable.1]
    | error errno => rfl
  · rfl

/-- `HandleWrite` never changes the state: the state it would close is excluded
by the guard around the test. -/
@[simp]
theorem handleWrite_state (conn : TcpConnection) (ret : SendRet) :
    (conn.handleWrite ret).state = conn.state := by
  rw [handleWrite_eq]

@[simp]
theorem handleWrite_fd (conn : TcpConnection) (ret : SendRet) :
    (conn.handleWrite ret).fd = conn.fd := by
  rw [handleWrite_eq]

@[simp]
theorem handleWrite_inputBuffer (conn : TcpConnection) (ret : SendRet) :
    (conn.handleWrite ret).inputBuffer = conn.inputBuffer := by
  rw [handleWrite_eq]

@[simp]
theorem send_state (conn : TcpConnection) (msg : Bytes) (ret : SendRet) :
    (conn.send msg ret).state = conn.state := by
  unfold send
  split
  · rw [handleWrite_state]
  · rfl

@[simp]
theorem send_fd (conn : TcpConnection) (msg : Bytes) (ret : SendRet) :
    (conn.send msg ret).fd = conn.fd := by
  unfold send
  split
  · rw [handleWrite_fd]
  · rfl

@[simp]
theorem send_inputBuffer (conn : TcpConnection) (msg : Bytes) (ret : SendRet) :
    (conn.send msg ret).inputBuffer = conn.inputBuffer := by
  unfold send
  split
  · rw [handleWrite_inputBuffer]
  · rfl

/-- The bytes left after one `HandleWrite` of a connected connection. -/
theorem readable_handleWrite {conn : TcpConnection} (connected : conn.state = .kConnected)
    (ret : SendRet) :
    (conn.handleWrite ret).outputBuffer.readable =
      match ret with
      | .sent count => conn.outputBuffer.readable.drop count
      | .error _ => conn.outputBuffer.readable := by
  unfold handleWrite
  by_cases pending : 0 < conn.outputBuffer.readableBytes
  · cases ret with
    | sent count =>
        cases count with
        | zero => simp [connected, pending]
        | succ n => simp [connected, pending, Buffer.readable_retrieve]
    | error errno => simp [connected, pending]
  · have empty : conn.outputBuffer.readable = [] := by
      rw [← List.length_eq_zero_iff, Buffer.length_readable]
      omega
    cases ret with
    | sent count => simp [pending, empty]
    | error errno => simp [pending]

/-! ## What the receive loop does -/

/-- The bytes that the receive loop takes in. -/
def arriving : List RecvRet → Bytes
  | [] => []
  | .received [] :: _ => []
  | .received bytes :: rets => bytes ++ arriving rets
  | .error errno :: rets => if errno = EINTR then arriving rets else []

/-- The receive loop meets the end of the stream or an error. -/
def endsStream : List RecvRet → Bool
  | [] => false
  | .received [] :: _ => true
  | .received (_ :: _) :: rets => endsStream rets
  | .error errno :: rets =>
      if errno = EAGAIN then false else if errno = EINTR then endsStream rets else true

/-- The loop puts what arrives behind the input and closes the connection at the
end of the stream; nothing else changes. -/
theorem recvLoop_eq (conn : TcpConnection) (rets : List RecvRet) :
    ∃ input : Buffer, input.readable = conn.inputBuffer.readable ++ arriving rets ∧
      conn.recvLoop rets = { conn with
        inputBuffer := input
        state := if endsStream rets then .kDisconnected else conn.state } := by
  induction rets generalizing conn with
  | nil => exact ⟨conn.inputBuffer, (List.append_nil _).symm, rfl⟩
  | cons ret rets inductionHypothesis =>
      cases ret with
      | received bytes =>
          cases bytes with
          | nil => exact ⟨conn.inputBuffer, (List.append_nil _).symm, rfl⟩
          | cons byte bytes =>
              rcases inductionHypothesis
                { conn with inputBuffer := conn.inputBuffer.append (byte :: bytes) } with
                ⟨input, readable, looped⟩
              rw [Buffer.readable_append, List.append_assoc] at readable
              exact ⟨input, readable, looped⟩
      | error errno =>
          unfold recvLoop arriving endsStream
          by_cases again : errno = EAGAIN
          · subst again
            exact ⟨conn.inputBuffer, (List.append_nil _).symm, rfl⟩
          · by_cases interrupted : errno = EINTR
            · subst interrupted
              exact inductionHypothesis conn
            · rw [if_neg again, if_neg again, if_neg interrupted, if_neg interrupted,
                if_neg interrupted]
              exact ⟨conn.inputBuffer, (List.append_nil _).symm, rfl⟩

theorem recvLoop_fd (conn : TcpConnection) (rets : List RecvRet) :
    (conn.recvLoop rets).fd = conn.fd := by
  rcases recvLoop_eq conn rets with ⟨input, -, looped⟩
  rw [looped]

theorem recvLoop_outputBuffer (conn : TcpConnection) (rets : List RecvRet) :
    (conn.recvLoop rets).outputBuffer = conn.outputBuffer := by
  rcases recvLoop_eq conn rets with ⟨input, -, looped⟩
  rw [looped]

theorem recvLoop_state (conn : TcpConnection) (rets : List RecvRet) :
    (conn.recvLoop rets).state = if endsStream rets then .kDisconnected else conn.state := by
  rcases recvLoop_eq conn rets with ⟨input, -, looped⟩
  rw [looped]

theorem readable_recvLoop (conn : TcpConnection) (rets : List RecvRet) :
    (conn.recvLoop rets).inputBuffer.readable = conn.inputBuffer.readable ++ arriving rets := by
  rcases recvLoop_eq conn rets with ⟨input, readable, looped⟩
  rw [looped, readable]

/-! ## Reading without end of stream -/

/-- The results of a `HandleRead` that ends with nothing more to read: chunks,
interruptions and perhaps a final `EAGAIN`. -/
def StaysOpen (rets : List RecvRet) : Prop :=
  ∀ ret ∈ rets, match ret with
    | .received bytes => bytes ≠ []
    | .error errno => errno = EAGAIN ∨ errno = EINTR

/-- The bytes that the receive loop takes in. -/
def received : List RecvRet → Bytes
  | [] => []
  | .received bytes :: rets => bytes ++ received rets
  | .error errno :: rets => if errno = EAGAIN then [] else received rets

theorem arriving_of_staysOpen {rets : List RecvRet} (staysOpen : StaysOpen rets) :
    endsStream rets = false ∧ arriving rets = received rets := by
  induction rets with
  | nil => exact ⟨rfl, rfl⟩
  | cons ret rets inductionHypothesis =>
      have headOpen := staysOpen ret List.mem_cons_self
      rcases inductionHypothesis fun other member =>
        staysOpen other (List.mem_cons_of_mem ret member) with ⟨stays, same⟩
      cases ret with
      | received bytes =>
          cases bytes with
          | nil => exact absurd rfl headOpen
          | cons byte bytes => exact ⟨stays, congrArg ((byte :: bytes) ++ ·) same⟩
      | error errno =>
          rcases headOpen with rfl | rfl
          · exact ⟨rfl, rfl⟩
          · exact ⟨stays, same⟩

/-- On results that keep the connection open, the loop appends what was
received to the input buffer and changes nothing else. -/
theorem recvLoop_of_staysOpen (conn : TcpConnection) {rets : List RecvRet}
    (staysOpen : StaysOpen rets) :
    (conn.recvLoop rets).state = conn.state ∧
      (conn.recvLoop rets).inputBuffer.readable =
        conn.inputBuffer.readable ++ received rets := by
  rcases arriving_of_staysOpen staysOpen with ⟨stays, same⟩
  rw [recvLoop_state, readable_recvLoop, stays, same]
  exact ⟨rfl, rfl⟩

end TcpConnection

end Mprpc.Net
