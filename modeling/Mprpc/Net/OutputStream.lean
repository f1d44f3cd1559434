import Mprpc.Net.Output

/-!
# The output stream of one connection

`Send`, `Shutdown`, `HandleWrite` and `HandleClose` in any order, with any
results of the `send` calls, and beside the connection what went through it: the
messages that `Send` queued and the bytes that the socket took.  Nothing is lost
or reordered on the way.  Nothing is drained after `Shutdown` either: it closes
the write side at once, and the branch of `HandleWrite` that would end a
draining connection stands under a guard that excludes it.
-/

namespace Mprpc.Net

open Mprpc.Transition

namespace TcpConnection

/-- The bytes that the `send` of one `HandleWrite` takes. -/
def handed (conn : TcpConnection) (ret : SendRet) : Bytes :=
  if conn.state = .kConnected ∧ 0 < conn.outputBuffer.readableBytes then
    conn.outputBuffer.readable.take ret.taken
  else []

/-- A call that moves the connection to `kDisconnected` has run `HandleClose`. -/
def closedBy (before after : TcpConnection) : Bool :=
  before.state != .kDisconnected && after.state == .kDisconnected

theorem handleWrite_of_not_connected {conn : TcpConnection} (ended : conn.state ≠ .kConnected)
    (ret : SendRet) : conn.handleWrite ret = conn := by
  unfold handleWrite
  rw [if_neg (fun writable => ended writable.1)]

/-- `HandleWrite` moves a prefix of the output buffer to the socket. -/
theorem handed_append_readable (conn : TcpConnection) (ret : SendRet) :
    conn.handed ret ++ (conn.handleWrite ret).outputBuffer.readable =
      conn.outputBuffer.readable := by
  by_cases connected : conn.state = .kConnected
  · rw [readable_handleWrite connected]
    unfold handed
    by_cases pending : 0 < conn.outputBuffer.readableBytes
    · rw [if_pos ⟨connected, pending⟩]
      cases ret with
      | sent count => exact List.take_append_drop count _
      | error errno => rfl
    · have empty : conn.outputBuffer.readable = [] := by
        by_contra readable
        exact pending ((Buffer.readableBytes_pos_iff _).mpr readable)
      rw [if_neg (fun writable => pending writable.2), empty]
      cases ret with
      | sent count => exact List.drop_nil
      | error errno => rfl
  · rw [handleWrite_of_not_connected connected, handed,
      if_neg (fun writable => connected writable.1)]
    rfl

theorem closedBy_handleWrite (conn : TcpConnection) (ret : SendRet) :
    closedBy conn (conn.handleWrite ret) = false := by
  unfold closedBy
  rw [handleWrite_state]
  cases conn.state <;> rfl

end TcpConnection

/-- What had been queued and handed over when the write side was shut down. -/
structure WriteShut where
  messages : List Bytes
  accepted : Bytes
  deriving DecidableEq, Repr

/-- A connection with what has gone through it: the messages passed to `Send`
while it was connected, the bytes that the socket has taken, the calls of
`shutdown(m_fd, SHUT_WR)`, and how often `Shutdown` was called and `HandleClose`
ran. -/
structure OutputStream where
  conn : TcpConnection
  messages : List Bytes
  accepted : Bytes
  writeShut : List WriteShut
  shutdowns : Nat
  closes : Nat

namespace OutputStream

/-- A connection that was just constructed. -/
def start (fd : Fd) : OutputStream where
  conn := .new fd
  messages := []
  accepted := []
  writeShut := []
  shutdowns := 0
  closes := 0

/-- `HandleWrite`. -/
def handleWrite (s : OutputStream) (ret : SendRet) : OutputStream :=
  { s with
    conn := s.conn.handleWrite ret
    accepted := s.accepted ++ s.conn.handed ret
    closes := s.closes + (TcpConnection.closedBy s.conn (s.conn.handleWrite ret)).toNat }

/-- The first half of `Send`. -/
def queue (s : OutputStream) (msg : Bytes) : OutputStream :=
  { s with
    conn := { s.conn with outputBuffer := s.conn.outputBuffer.append msg }
    messages := s.messages ++ [msg] }

/-- `Send`. -/
def send (s : OutputStream) (msg : Bytes) (ret : SendRet) : OutputStream :=
  if s.conn.state = .kConnected then (s.queue msg).handleWrite ret else s

/-- `Shutdown`, which shuts the write side down when it changes the state. -/
def shutdown (s : OutputStream) : OutputStream :=
  { s with
    conn := s.conn.shutdown
    shutdowns := s.shutdowns + 1
    writeShut :=
      if s.conn.state = .kConnected then s.writeShut ++ [⟨s.messages, s.accepted⟩]
      else s.writeShut }

/-- `HandleClose`. -/
def handleClose (s : OutputStream) : OutputStream :=
  { s with
    conn := s.conn.handleClose
    closes := s.closes + 1 }

/-- A call of one of the functions, with the result of its `send`. -/
inductive Call
  | send (msg : Bytes) (ret : SendRet)
  | shutdown
  | handleWrite (ret : SendRet)
  | handleClose
  deriving DecidableEq, Repr

def next (s : OutputStream) : Call → Option OutputStream
  | .send msg ret => some (s.send msg ret)
  | .shutdown => some s.shutdown
  | .handleWrite ret => some (s.handleWrite ret)
  | .handleClose => some s.handleClose

/-- `Send` here is `Send` of the connection. -/
theorem send_conn (s : OutputStream) (msg : Bytes) (ret : SendRet) :
    (s.send msg ret).conn = s.conn.send msg ret := by
  unfold send TcpConnection.send
  split
  · rfl
  · rfl

variable {s : OutputStream}

/-! ## Integrity -/

/-- What the socket took, followed by what is still in the buffer, is what was
queued. -/
def Intact (s : OutputStream) : Prop :=
  s.accepted ++ s.conn.outputBuffer.readable = s.messages.flatten

theorem Intact.queue (intact : s.Intact) (msg : Bytes) : (s.queue msg).Intact := by
  unfold Intact at intact ⊢
  rw [OutputStream.queue, Buffer.readable_append, ← List.append_assoc, intact]
  simp

theorem Intact.handleWrite (intact : s.Intact) (ret : SendRet) :
    (s.handleWrite ret).Intact := by
  unfold Intact at intact ⊢
  rw [OutputStream.handleWrite, List.append_assoc, TcpConnection.handed_append_readable]
  exact intact

theorem Intact.send (intact : s.Intact) (msg : Bytes) (ret : SendRet) :
    (s.send msg ret).Intact := by
  unfold OutputStream.send
  split
  · exact (intact.queue msg).handleWrite ret
  · exact intact

theorem Intact.shutdown (intact : s.Intact) : s.shutdown.Intact := by
  unfold Intact at intact ⊢
  unfold OutputStream.shutdown TcpConnection.shutdown
  split
  · exact intact
  · exact intact

/-- No sequence of calls loses, repeats or reorders a byte. -/
theorem intact_of_reachable {allowed : OutputStream → Call → Prop} {fd : Fd}
    (reached : Reachable next allowed (start fd) s) : s.Intact := by
  apply reached.invariant
  · rfl
  · intro s call s' intact _ step
    cases call with
    | send msg ret =>
        cases step
        exact intact.send msg ret
    | shutdown =>
        cases step
        exact intact.shutdown
    | handleWrite ret =>
        cases step
        exact intact.handleWrite ret
    | handleClose =>
        cases step
        exact intact

/-- In every sequence of calls the bytes that the socket took, followed by the
readable bytes of the output buffer, are the messages sent while the connection
was connected. -/
theorem accepted_append_readable {fd : Fd}
    (reached : Reachable next Unrestricted (start fd) s) :
    s.accepted ++ s.conn.outputBuffer.readable = s.messages.flatten :=
  intact_of_reachable reached

/-- Two messages of which the socket takes five bytes in three calls, one call
that fails, and one message that comes too late. -/
theorem accepted_append_readable_partial :
    ∃ s, Reachable next Unrestricted (start 7) s ∧
      s.messages = [[1, 2, 3], [4, 5, 6]] ∧ s.accepted = [1, 2, 3, 4, 5] ∧
      s.accepted ++ s.conn.outputBuffer.readable = s.messages.flatten := by
  have run : ∃ s, Reachable next Unrestricted (start 7) s ∧
      s.messages = [[1, 2, 3], [4, 5, 6]] ∧ s.accepted = [1, 2, 3, 4, 5] := by
    apply exists_reachable [.send [1, 2, 3] (.sent 2), .handleWrite (.error EAGAIN),
      .send [4, 5, 6] (.sent 1), .handleWrite (.sent 2), .handleClose, .send [7] (.sent 1)]
    · exact Meets.unrestricted ..
    · decide +kernel
  rcases run with ⟨s, reached, messages, accepted⟩
  exact ⟨s, reached, messages, accepted, accepted_append_readable reached⟩

/-! ## Draining after `Shutdown` -/

/-- The calls other than `HandleClose`, which the loop makes when the peer is
gone. -/
def NotClosed (_ : OutputStream) (call : Call) : Prop :=
  call ≠ .handleClose

instance (s : OutputStream) (call : Call) : Decidable (s.NotClosed call) :=
  inferInstanceAs (Decidable (call ≠ .handleClose))

/-- All that was sent is handed over before the write side is shut down, and a
disconnecting connection without pending output has been closed once. -/
def Graceful (s : OutputStream) : Prop :=
  (∀ shut ∈ s.writeShut, shut.accepted = shut.messages.flatten) ∧
    (s.conn.state = .kDisconnecting → s.conn.outputBuffer.readable = [] → s.closes = 1)

/-- The two phases of a connection that nobody else closes.  The second is never
left, and nothing is sent in it. -/
inductive Phase (s : OutputStream) : Prop
  | open (state : s.conn.state = .kConnected) (writeShut : s.writeShut = [])
      (shutdowns : s.shutdowns = 0)
  | shut (state : s.conn.state = .kDisconnecting)
      (writeShut : s.writeShut = [⟨s.messages, s.accepted⟩]) (shutdowns : s.shutdowns ≠ 0)

theorem handleWrite_of_not_connected (ended : s.conn.state ≠ .kConnected) (ret : SendRet) :
    s.handleWrite ret = s := by
  have same := TcpConnection.handleWrite_of_not_connected ended ret
  have closes := TcpConnection.closedBy_handleWrite s.conn ret
  unfold handleWrite TcpConnection.handed
  rw [closes, same, if_neg (fun writable => ended writable.1), List.append_nil]
  rfl

theorem Phase.handleWrite (phase : Phase s) (ret : SendRet) : Phase (s.handleWrite ret) := by
  cases phase with
  | «open» state writeShut shutdowns =>
      exact .open ((TcpConnection.handleWrite_state s.conn ret).trans state) writeShut shutdowns
  | shut state writeShut shutdowns =>
      rw [handleWrite_of_not_connected (by rw [state]; decide)]
      exact .shut state writeShut shutdowns

theorem Phase.send (phase : Phase s) (msg : Bytes) (ret : SendRet) :
    Phase (s.send msg ret) := by
  unfold OutputStream.send
  split
  · rename_i connected
    cases phase with
    | «open» state writeShut shutdowns =>
        have queued : Phase (s.queue msg) := .open state writeShut shutdowns
        exact queued.handleWrite ret
    | shut state writeShut shutdowns =>
        rw [state] at connected
        cases connected
  · exact phase

theorem Phase.shutdown (phase : Phase s) : Phase s.shutdown := by
  cases phase with
  | «open» state writeShut shutdowns =>
      refine .shut ?_ ?_ (Nat.succ_ne_zero _)
      · simp [OutputStream.shutdown, TcpConnection.shutdown, state]
      · simp [OutputStream.shutdown, state, writeShut]
  | shut state writeShut shutdowns =>
      have notConnected : s.conn.state ≠ .kConnected := by
        rw [state]
        decide
      refine .shut ?_ ?_ (Nat.succ_ne_zero _)
      · simp [OutputStream.shutdown, TcpConnection.shutdown, state]
      · simp [OutputStream.shutdown, notConnected, writeShut]

theorem phase_of_reachable {fd : Fd} (reached : Reachable next NotClosed (start fd) s) :
    Phase s := by
  apply reached.invariant
  · exact .open rfl rfl rfl
  · intro s call s' phase allowed step
    cases call with
    | send msg ret =>
        cases step
        exact phase.send msg ret
    | shutdown =>
        cases step
        exact phase.shutdown
    | handleWrite ret =>
        cases step
        exact phase.handleWrite ret
    | handleClose => exact absurd rfl allowed

/-- None of the three functions ever runs `HandleClose`. -/
theorem closes_of_reachable {fd : Fd} (reached : Reachable next NotClosed (start fd) s) :
    s.closes = 0 := by
  have written : ∀ (s : OutputStream) ret, (s.handleWrite ret).closes = s.closes := by
    intro s ret
    unfold handleWrite
    rw [TcpConnection.closedBy_handleWrite]
    rfl
  apply reached.invariant
  · rfl
  · intro s call s' none allowed step
    cases call with
    | send msg ret =>
        cases step
        unfold send
        split
        · exact (written _ ret).trans none
        · exact none
    | shutdown =>
        cases step
        exact none
    | handleWrite ret =>
        cases step
        exact (written s ret).trans none
    | handleClose => exact absurd rfl allowed

/-- A sequence of `Send`, `Shutdown` and `HandleWrite` calls ends gracefully just
when `Shutdown` is not among them; `HandleClose` runs in none. -/
theorem graceful_iff {fd : Fd} (reached : Reachable next NotClosed (start fd) s) :
    (s.Graceful ↔ s.shutdowns = 0) ∧ s.closes = 0 := by
  have intact := intact_of_reachable reached
  have closes := closes_of_reachable reached
  refine ⟨?_, closes⟩
  cases phase_of_reachable reached with
  | «open» state writeShut shutdowns =>
      refine iff_of_true ⟨?_, ?_⟩ shutdowns
      · rw [writeShut]
        exact fun shut member => absurd member List.not_mem_nil
      · intro disconnecting
        rw [state] at disconnecting
        cases disconnecting
  | shut state writeShut shutdowns =>
      refine iff_of_false ?_ shutdowns
      rintro ⟨handedOver, closed⟩
      have all : s.accepted = s.messages.flatten := by
        rw [writeShut] at handedOver
        exact handedOver _ (List.mem_singleton_self _)
      have drained : s.conn.outputBuffer.readable = [] := by
        rw [Intact, ← all] at intact
        exact List.append_right_eq_self.mp intact
      rw [closed state drained] at closes
      cases closes

/-- A response of three bytes of which the first `send` takes two; `Shutdown`
then shuts the write side down, and no `HandleWrite` sends the third byte. -/
theorem not_graceful :
    ∃ s, Reachable next NotClosed (start 7) s ∧ ¬ s.Graceful ∧
      s.writeShut = [⟨[[1, 2, 3]], [1, 2]⟩] ∧ s.conn.outputBuffer.readable = [3] := by
  have run : ∃ s, Reachable next NotClosed (start 7) s ∧
      s.writeShut = [⟨[[1, 2, 3]], [1, 2]⟩] ∧ s.conn.outputBuffer.readable = [3] := by
    apply exists_reachable [.send [1, 2, 3] (.sent 2), .shutdown, .handleWrite (.sent 1)]
    · decide +kernel
    · decide +kernel
  rcases run with ⟨s, reached, writeShut, readable⟩
  refine ⟨s, reached, ?_, writeShut, readable⟩
  rintro ⟨handedOver, -⟩
  rw [writeShut] at handedOver
  exact absurd (handedOver _ (List.mem_singleton_self _)) (by decide)

/-- The same with `Shutdown` after the last byte: all is handed over, and the
connection is never closed. -/
theorem graceful_iff_drained :
    ∃ s, Reachable next NotClosed (start 7) s ∧ s.conn.state = .kDisconnecting ∧
      s.conn.outputBuffer.readable = [] ∧
      (s.Graceful ↔ s.shutdowns = 0) ∧ s.closes = 0 := by
  have run : ∃ s, Reachable next NotClosed (start 7) s ∧ s.conn.state = .kDisconnecting ∧
      s.conn.outputBuffer.readable = [] := by
    apply exists_reachable [.send [1, 2, 3] (.sent 3), .shutdown, .handleWrite (.sent 1)]
    · decide +kernel
    · decide +kernel
  rcases run with ⟨s, reached, state, drained⟩
  exact ⟨s, reached, state, drained, graceful_iff reached⟩

end OutputStream

end Mprpc.Net
