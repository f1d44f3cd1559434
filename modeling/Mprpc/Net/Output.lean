import Mprpc.Net.Bookkeeping

/-!
# Pending output and `EPOLLOUT`

A connection with bytes in its output buffer needs `EPOLLOUT` to get them out.
The loop has a branch for it, but no line of the server registers it: `addfd`
and both re-arming lines ask for `EPOLLIN` and `EPOLLRDHUP` only.  So bytes are
stranded as soon as a `send` leaves some, and the loop is right just as long as
none does.
-/

namespace Mprpc.Net

open Mprpc.Transition

/-- The bytes that a `send` takes. -/
def SendRet.taken : SendRet → Nat
  | .sent count => count
  | .error _ => 0

namespace TcpConnection

/-- The bytes that are left unsent after the acts of a callback, for a connection
with `pending` bytes before.  A connection that is shut down is removed. -/
def unsent : Bytes → List CallbackAct → Bytes
  | pending, [] => pending
  | pending, .retrieve _ :: acts => unsent pending acts
  | pending, .send msg ret :: acts => unsent ((pending ++ msg).drop ret.taken) acts
  | _, .shutdown :: _ => []

theorem readable_send {conn : TcpConnection} (connected : conn.connected = true) (msg : Bytes)
    (ret : SendRet) :
    (conn.send msg ret).outputBuffer.readable =
      (conn.outputBuffer.readable ++ msg).drop ret.taken := by
  have isConnected : conn.state = .kConnected := eq_of_beq connected
  have queued := Buffer.readable_append conn.outputBuffer msg
  unfold send
  rw [if_pos isConnected]
  refine (readable_handleWrite (by exact isConnected) ret).trans ?_
  rw [queued]
  cases ret with
  | sent count => rfl
  | error errno => rfl

/-- A connection that is not connected stays so. -/
theorem act_not_connected {conn : TcpConnection} (ended : conn.connected = false)
    (act : CallbackAct) : (conn.act act).connected = false := by
  have notConnected : ¬ conn.state = .kConnected := by
    intro same
    simp [connected, same] at ended
  cases act with
  | retrieve len => exact ended
  | send msg ret =>
      rw [TcpConnection.act, connected, send_state]
      exact ended
  | shutdown =>
      rw [TcpConnection.act, shutdown, if_neg notConnected]
      exact ended

theorem callback_not_connected {conn : TcpConnection} (ended : conn.connected = false)
    (acts : List CallbackAct) : (conn.callback acts).1.connected = false := by
  unfold callback
  induction acts generalizing conn with
  | nil => exact ended
  | cons act acts inductionHypothesis => exact inductionHypothesis (act_not_connected ended act)

/-- What a callback leaves in the output buffer of a connection that is still
connected afterwards. -/
theorem readable_callback {conn : TcpConnection} {acts : List CallbackAct}
    (connected : conn.connected = true) (after : (conn.callback acts).1.connected = true) :
    (conn.callback acts).1.outputBuffer.readable =
      unsent conn.outputBuffer.readable acts := by
  induction acts generalizing conn with
  | nil => rfl
  | cons act acts inductionHypothesis =>
      have rest : (conn.callback (act :: acts)).1 = ((conn.act act).callback acts).1 := rfl
      rw [rest] at after ⊢
      cases act with
      | retrieve len => exact inductionHypothesis connected after
      | send msg ret =>
          have stays : (conn.send msg ret).connected = true := by
            rw [TcpConnection.connected, send_state]
            exact connected
          rw [unsent, ← readable_send connected]
          exact inductionHypothesis stays after
      | shutdown =>
          have isConnected : conn.state = .kConnected := eq_of_beq connected
          have ended : (conn.act .shutdown).connected = false := by
            rw [TcpConnection.act, shutdown, if_pos isConnected]
            rfl
          rw [callback_not_connected ended] at after
          cases after

/-- `HandleRead` leaves nothing unsent when its callback does not. -/
theorem readable_handleRead {conn : TcpConnection} {acts : List CallbackAct}
    {rets : List RecvRet} (drained : conn.outputBuffer.readable = []) (all : unsent [] acts = [])
    (after : (conn.handleRead (callback acts) rets).1.connected = true) :
    (conn.handleRead (callback acts) rets).1.outputBuffer.readable = [] := by
  have looped := recvLoop_outputBuffer conn rets
  unfold handleRead at after ⊢
  dsimp only at after ⊢
  cases ready : (conn.recvLoop rets).messageReady with
  | false =>
      rw [if_neg Bool.false_ne_true, looped]
      exact drained
  | true =>
      have connected : (conn.recvLoop rets).connected = true := by
        unfold messageReady at ready
        exact (Bool.and_eq_true_iff.mp ready).1
      rw [ready, if_pos rfl] at after
      rw [if_pos rfl, readable_callback connected after, looped, drained, all]

end TcpConnection

namespace Reactor

open Descriptors

variable {r r' : Reactor}

/-! ## `EPOLLOUT` is never registered -/

/-- No descriptor is registered for `EPOLLOUT`. -/
def NoEpollout (fds : Descriptors) : Prop :=
  ∀ fd interest, fds.epoll fd = some interest → interest.events.epollout = false

theorem NoEpollout.initial {fds fds' : Descriptors} (no : NoEpollout fds) (fd : Fd)
    (oneShot : Bool)
    (changed : fds'.epoll = Function.update fds.epoll fd (some (.initial oneShot))) :
    NoEpollout fds' := by
  refine forall_of_update no fd _ changed ?_
  intro interest same
  cases same
  rfl

theorem NoEpollout.addfd {fds : Descriptors} (no : NoEpollout fds) (fd : Fd) (oneShot : Bool) :
    NoEpollout (fds.addfd fd oneShot) := by
  unfold Descriptors.addfd
  cases fds.epoll fd with
  | some interest => exact no
  | none => exact no.initial fd oneShot rfl

theorem NoEpollout.rearm {fds : Descriptors} (no : NoEpollout fds) (fd : Fd) :
    NoEpollout (fds.rearm fd) := by
  unfold Descriptors.rearm
  cases fds.epoll fd with
  | some interest => exact no.initial fd true rfl
  | none => exact no

theorem NoEpollout.removefd {fds : Descriptors} (no : NoEpollout fds) (tables : fds.Tables)
    (fd : Fd) : NoEpollout (fds.removefd fd) := by
  rcases tables.removefd_eq fd with ⟨fdCalls, removed⟩
  rw [removed]
  refine forall_of_update no fd none rfl ?_
  intro interest none
  cases none

theorem NoEpollout.acceptLoop {accepts : List (Fd × Int)} (no : NoEpollout r.fds)
    (agree : Agree r.timerLst r.fds) (looped : r.acceptLoop accepts = some r') :
    NoEpollout r'.fds := by
  apply acceptLoop_invariant (fun r => NoEpollout r.fds) _ agree no looped
  intro r connfd time agree no unused
  unfold accepted
  rw [agree.tables.accept_eq time unused]
  exact no.initial connfd true rfl

theorem NoEpollout.activity {fd : Fd} {conn : TcpConnection} (no : NoEpollout r.fds)
    (agree : Agree r.timerLst r.fds) (isLive : r.fds.live fd = true) (sameFd : conn.fd = fd) :
    NoEpollout ((r.adjust fd).settle fd conn).fds := by
  have adjusted : NoEpollout ((r.adjust fd).fds.setConnection fd (some conn)) := no
  cases connected : conn.connected with
  | true =>
      rw [settle_connected connected]
      exact adjusted.rearm fd
  | false =>
      have tables := (handled_adjust agree isLive).agree.tables.setConnection isLive sameFd
      rw [settle_disconnected connected]
      exact adjusted.removefd tables fd

theorem NoEpollout.tick {t : TimeHeap} {fds : Descriptors} (no : NoEpollout fds)
    (agree : Agree t fds) (cur : Int) : NoEpollout (t.tick (cbFunc cur) cur fds).2 := by
  apply (agree.tick_invariant cur (fun _ fds => NoEpollout fds) _ _ no).2
  · intro t fds root agree no many atRoot _ _
    rcases agree.kicked_eq (TimeHeap.root_mem_entries many atRoot) cur with ⟨fdCalls, kicked⟩
    rw [kicked]
    refine forall_of_update no (t.timers root).userData none rfl ?_
    intro interest none
    cases none
  · intro t fds root _ no _ _ _
    exact no

theorem NoEpollout.of_stepped (no : NoEpollout r.fds) (consistent : r.Consistent)
    {action : ReactorAction} (stepped : Stepped r action r') : NoEpollout r'.fds := by
  have agree := consistent.agree
  cases stepped with
  | waited idle reports =>
      intro fd interest found
      simp only [report] at found
      split at found
      · rcases Option.map_eq_some_iff.mp found with ⟨before, known, rfl⟩
        exact no fd before known
      · exact no fd interest found
  | @handled fd flags results rest after pending branch =>
      have handled : NoEpollout after.fds := by
        cases branch with
        | accepts accepted => exact no.acceptLoop agree accepted
        | signals =>
            rcases signals_eq r results.signals with ⟨timeout, stopServer, same⟩
            rw [same]
            exact no
        | hangUp isLive => exact no.removefd agree.tables fd
        | @readable conn found reads stays =>
            apply no.activity agree (live_of_found found)
            rw [TcpConnection.handleRead_fd, agree.tables.fd_eq found]
        | @writable conn found writes =>
            apply no.activity agree (live_of_found found)
            rw [TcpConnection.handleWrite_fd, agree.tables.fd_eq found]
        | ignored => exact no
      exact handled
  | finished done =>
      unfold Reactor.finish
      split
      · exact no.tick agree r.now
      · exact no
  | clock time => exact no
  | @sent fd msg ret after sent =>
      rcases Option.map_eq_some_iff.mp sent with ⟨conn, found, rfl⟩
      exact no

/-- In no run is a descriptor registered for `EPOLLOUT`. -/
theorem noEpollout_of_reachable {allowed : Reactor → ReactorAction → Prop}
    {serverFd pipeRead : Fd} {inUse : Fd → Bool}
    (reached : Reachable next allowed (start serverFd pipeRead inUse) r) : NoEpollout r.fds := by
  apply invariant_of_stepped (fun r => NoEpollout r.fds) _ _ reached
  · have nothing : NoEpollout (Descriptors.new serverFd pipeRead inUse) := by
      intro fd interest found
      cases found
    exact (nothing.addfd serverFd false).addfd pipeRead false
  · intro state action successor _ consistent no _ stepped
    exact no.of_stepped consistent stepped

/-! ## Stranded bytes -/

/-- Every connected connection with pending output is registered for
`EPOLLOUT`. -/
def OutputWatched (fds : Descriptors) : Prop :=
  ∀ fd conn, fds.connections fd = some conn → conn.connected = true →
    0 < conn.outputBuffer.readableBytes →
      ∃ interest ∈ fds.epoll fd, interest.events.epollout = true

/-- As nothing registers `EPOLLOUT`, this means that no connection has pending
output. -/
theorem outputWatched_iff {allowed : Reactor → ReactorAction → Prop} {serverFd pipeRead : Fd}
    {inUse : Fd → Bool} (reached : Reachable next allowed (start serverFd pipeRead inUse) r) :
    OutputWatched r.fds ↔ Each (fun conn => conn.outputBuffer.readable = []) r.fds := by
  constructor
  · intro watched fd conn found
    by_contra pending
    rcases watched fd conn found (connected_of_reachable reached fd conn found)
      ((Buffer.readableBytes_pos_iff _).mpr pending) with ⟨interest, registered, writable⟩
    rw [noEpollout_of_reachable reached fd interest registered] at writable
    cases writable
  · intro drained fd conn found _ pending
    exact absurd (drained fd conn found) ((Buffer.readableBytes_pos_iff _).mp pending)

/-- The `Send` that an action makes outside the events of its connection. -/
def sending : ReactorAction → Option (Bytes × SendRet)
  | .send _ msg ret => some (msg, ret)
  | _ => none

/-- The `send` calls take all bytes: what a message callback queues is sent by
its end, and what any other `Send` queues is sent at once. -/
def SendsAll (r : Reactor) (action : ReactorAction) : Prop :=
  (∀ handled ∈ r.handling action, r.ReadsConnection handled.1 →
    TcpConnection.unsent [] handled.2.acts = []) ∧
  ∀ sent ∈ sending action, sent.1.drop sent.2.taken = []

instance (r : Reactor) (action : ReactorAction) : Decidable (r.SendsAll action) :=
  inferInstanceAs (Decidable ((∀ handled ∈ r.handling action, _ → _) ∧ _))

theorem survives_of_sendsAll (action : ReactorAction) (allowed : r.SendsAll action) :
    Survives (fun conn => conn.connected = true ∧ conn.outputBuffer.readable = []) r action := by
  rcases allowed with ⟨callbacks, others⟩
  refine ⟨fun fd => ⟨rfl, Buffer.readable_new _⟩, ?_, ?_, ?_⟩
  · intro event results conn current reads drained after
    exact ⟨after, TcpConnection.readable_handleRead drained.2 (callbacks _ current reads) after⟩
  · intro conn ret drained
    rw [TcpConnection.handleWrite_connected,
      TcpConnection.readable_handleWrite (eq_of_beq drained.1), drained.2]
    refine ⟨drained.1, ?_⟩
    cases ret with
    | sent count => exact List.drop_nil
    | error errno => rfl
  · rintro fd msg ret conn rfl drained
    rw [TcpConnection.connected, TcpConnection.send_state,
      TcpConnection.readable_send drained.1, drained.2]
    exact ⟨drained.1, others _ rfl⟩

/-- In every run whose `send` calls take all bytes, no pending output goes
unwatched. -/
theorem output_watched {serverFd pipeRead : Fd} {inUse : Fd → Bool}
    (reached : Reachable next SendsAll (start serverFd pipeRead inUse) r) :
    OutputWatched r.fds := by
  have drained := each_of_reachable (fun r => survives_of_sendsAll (r := r)) reached
  exact (outputWatched_iff reached).mpr fun fd conn found => (drained fd conn found).2

/-- A response of three bytes of which the first `send` takes two.  The last byte
stays in the buffer, and the descriptor waits for `EPOLLIN` only. -/
theorem output_stranded :
    ∃ r, Reachable next Unrestricted exampleLoop r ∧ r.batch = none ∧ ¬ OutputWatched r.fds := by
  have run : ∃ r, Reachable next Unrestricted exampleLoop r ∧ r.batch = none ∧
      ∃ conn ∈ r.fds.connections 7, conn.connected = true ∧ 0 < conn.outputBuffer.readableBytes ∧
        r.fds.epoll 7 = some (.initial true) := by
    apply exists_reachable [.wait [(3, readableFlags)], .handle { accepts := [(7, 0)] }, .finish,
      .wait [(7, readableFlags)],
      .handle {
        recvs := [.received [1, 2], .error EAGAIN]
        acts := [.retrieve 2, .send [1, 2, 3] (.sent 2)] },
      .finish]
    · exact Meets.unrestricted ..
    · decide +kernel
  rcases run with ⟨r, reached, idle, conn, found, connected, pending, registered⟩
  refine ⟨r, reached, idle, ?_⟩
  intro watched
  rcases watched 7 conn found connected pending with ⟨interest, same, writable⟩
  rw [registered] at same
  cases same
  cases writable

/-- A response that two `send` calls take in two parts is not stranded. -/
theorem output_watched_two_parts :
    ∃ r, Reachable next SendsAll exampleLoop r ∧ OutputWatched r.fds ∧
      (r.fds.connections 7).isSome = true := by
  have run : ∃ r, Reachable next SendsAll exampleLoop r ∧
      (r.fds.connections 7).isSome = true := by
    apply exists_reachable [.wait [(3, readableFlags)], .handle { accepts := [(7, 0)] }, .finish,
      .wait [(7, readableFlags)],
      .handle {
        recvs := [.received [1, 2], .error EAGAIN]
        acts := [.retrieve 2, .send [1, 2, 3] (.sent 2), .send [4] (.sent 2)] },
      .send 7 [5] (.sent 1),
      .finish]
    · decide +kernel
    · decide +kernel
  rcases run with ⟨r, reached, open'⟩
  exact ⟨r, reached, output_watched reached, open'⟩

end Reactor

end Mprpc.Net
