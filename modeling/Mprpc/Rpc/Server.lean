import Mprpc.Net.Bookkeeping
import Mprpc.Rpc.Serving

/-!
# The server as a whole

`TcpServer::Start` with `RpcProvider::OnMessage` as its message callback and services
that run `done` once for each call.  Beside the loop stands, for each descriptor, the
session of its current connection: what it received, what `OnMessage` was given, and
what its socket took.  Connections come and go, time out and leave their descriptors
to others; every connection of the table is at each moment the one of its session.
-/

namespace Mprpc.Rpc

open Mprpc.Net
open Mprpc.Protobuf
open Mprpc.Transition

universe u

variable {Msg : Type u}

namespace RpcProvider

/-- What `OnMessage` does to its connection. -/
def acts (provider : RpcProvider Msg) (service : Dispatch Msg → Msg) (ret : SendRet)
    (recvBuf : Bytes) : List CallbackAct :=
  match provider.onMessage recvBuf with
  | .dispatched call =>
      match call.method.output.serialize (service call) with
      | some responseStr => [.retrieve recvBuf.length, .send responseStr ret]
      | none => [.retrieve recvBuf.length]
  | _ => [.retrieve recvBuf.length]

theorem retrieve_readable (b : Buffer) : b.retrieve b.readable.length = b.retrieveAll := by
  rw [Buffer.length_readable, Buffer.retrieve, dif_neg (Nat.lt_irrefl _)]

/-- The acts are those of the callback. -/
theorem callback_acts (provider : RpcProvider Msg) (service : Dispatch Msg → Msg) (ret : SendRet)
    (conn : TcpConnection) :
    (TcpConnection.callback (provider.acts service ret conn.inputBuffer.readable) conn).1 =
      (provider.serviceCallback service ret conn).1 := by
  have emptied : conn.act (.retrieve conn.inputBuffer.readable.length) =
      { conn with inputBuffer := conn.inputBuffer.retrieveAll } := by
    rw [TcpConnection.act, retrieve_readable]
  unfold TcpConnection.callback acts serviceCallback messageCallback Buffer.retrieveAllAsString
  cases outcome : provider.onMessage conn.inputBuffer.readable with
  | dispatched call =>
      have replied : ∀ emptied : TcpConnection, reply emptied call [(service call, ret)] =
          sendRpcResponse emptied call.method.output (service call) ret := fun _ => rfl
      simp only [outcome, replied, sendRpcResponse]
      cases call.method.output.serialize (service call) with
      | some responseStr =>
          dsimp only
          rw [List.foldl_cons, emptied]
          rfl
      | none =>
          dsimp only
          rw [List.foldl_cons, emptied]
          rfl
  | _ =>
      simp only [outcome]
      rw [List.foldl_cons, emptied]
      rfl

theorem handleRead_acts (provider : RpcProvider Msg) (service : Dispatch Msg → Msg)
    (ret : SendRet) (conn : TcpConnection) (recvs : List RecvRet) :
    (conn.handleRead (TcpConnection.callback
        (provider.acts service ret (conn.recvLoop recvs).inputBuffer.readable)) recvs).1 =
      (conn.handleRead (provider.serviceCallback service ret) recvs).1 := by
  unfold TcpConnection.handleRead
  dsimp only
  split
  · exact provider.callback_acts service ret _
  · rfl

end RpcProvider

/-- The loop with the sessions of its connections. -/
structure Server where
  reactor : Reactor
  sessions : Fd → Session

namespace Server

/-- The server at its start. -/
def start (serverFd pipeRead : Fd) (inUse : Fd → Bool) : Server where
  reactor := .start serverFd pipeRead inUse
  sessions := Session.start

/-- The results of an event with the acts of `OnMessage` on its connection. -/
def served (provider : RpcProvider Msg) (service : Dispatch Msg → Msg) (s : Server) (sockfd : Fd)
    (results : EventResults) : EventResults :=
  match s.reactor.fds.connections sockfd with
  | some conn =>
      { results with
        acts := provider.acts service results.sent
          (conn.recvLoop results.recvs).inputBuffer.readable }
  | none => results

/-- The sessions after an event.  A new connection starts its own, and an exception
out of `OnMessage` leaves the loop. -/
def observe (provider : RpcProvider Msg) (service : Dispatch Msg → Msg) (s : Server) (sockfd : Fd)
    (flags : EpollEvents) (results : EventResults) : Option (Fd → Session) :=
  if sockfd = s.reactor.fds.serverFd then
    some (results.accepts.foldl
      (fun sessions accepted => Function.update sessions accepted.1 (.start accepted.1)) s.sessions)
  else if sockfd = s.reactor.fds.pipeRead ∧ flags.epollin = true then some s.sessions
  else if flags.hangsUp then some s.sessions
  else if flags.epollin then
    ((s.sessions sockfd).next provider service (.read results.recvs results.sent)).map
      (Function.update s.sessions sockfd)
  else if flags.epollout then
    ((s.sessions sockfd).next provider service (.write results.sent)).map
      (Function.update s.sessions sockfd)
  else some s.sessions

/-- One step.  Nobody else sends on a connection. -/
def next (provider : RpcProvider Msg) (service : Dispatch Msg → Msg) (s : Server) :
    ReactorAction → Option Server
  | .handle results =>
      match s.reactor.batch with
      | some ((sockfd, flags) :: _) =>
          (s.observe provider service sockfd flags results).bind fun sessions =>
            (s.reactor.next (.handle (s.served provider service sockfd results))).map fun reactor =>
              { reactor := reactor, sessions := sessions }
      | _ => none
  | .send .. => none
  | action => (s.reactor.next action).map fun reactor => { s with reactor := reactor }

/-! ## The connections of the loop are those of the sessions -/

/-- Every connection of a table is the one of its session. -/
def Tracks (provider : RpcProvider Msg) (service : Dispatch Msg → Msg) (sessions : Fd → Session)
    (connections : Fd → Option TcpConnection) : Prop :=
  ∀ fd conn, connections fd = some conn →
    (sessions fd).conn = conn ∧ (sessions fd).Serves provider service

variable {provider : RpcProvider Msg} {service : Dispatch Msg → Msg} {sessions : Fd → Session}
  {connections : Fd → Option TcpConnection} {s t : Server} {r r' : Reactor}

theorem Tracks.update (tracks : Tracks provider service sessions connections) (fd : Fd)
    {session : Session} {entry : Option TcpConnection}
    (agrees : ∀ conn, entry = some conn → session.conn = conn ∧ session.Serves provider service) :
    Tracks provider service (Function.update sessions fd session)
      (Function.update connections fd entry) := by
  intro other conn found
  by_cases same : other = fd
  · subst same
    rw [Function.update_self] at found ⊢
    exact agrees conn found
  · rw [Function.update_of_ne same] at found ⊢
    exact tracks other conn found

/-- A connection is removed. -/
theorem Tracks.remove (tracks : Tracks provider service sessions connections) (fd : Fd) :
    Tracks provider service sessions (Function.update connections fd none) := by
  have removed : Tracks provider service (Function.update sessions fd (sessions fd))
      (Function.update connections fd none) := tracks.update fd fun conn none => nomatch none
  rw [Function.update_eq_self] at removed
  exact removed

theorem Tracks.removefd (tracks : Tracks provider service sessions r.fds.connections)
    (tables : r.fds.Tables) (fd : Fd) :
    Tracks provider service sessions (r.fds.removefd fd).connections := by
  rcases tables.removefd_eq fd with ⟨fdCalls, removed⟩
  rw [removed]
  exact tracks.remove fd

theorem Tracks.tick (tracks : Tracks provider service sessions r.fds.connections)
    (agree : Reactor.Agree r.timerLst r.fds) (cur : Int) :
    Tracks provider service sessions
      (r.timerLst.tick (Descriptors.cbFunc cur) cur r.fds).2.connections := by
  apply (agree.tick_invariant cur
    (fun _ fds => Tracks provider service sessions fds.connections) _ _ tracks).2
  · intro t fds root agree tracks many atRoot _ _
    rcases agree.kicked_eq (TimeHeap.root_mem_entries many atRoot) cur with ⟨fdCalls, kicked⟩
    rw [kicked]
    exact tracks.remove _
  · intro t fds root _ tracks _ _ _
    exact tracks

theorem Tracks.acceptLoop (tracks : Tracks provider service sessions r.fds.connections)
    (agree : Reactor.Agree r.timerLst r.fds) {accepts : List (Fd × Int)}
    (looped : r.acceptLoop accepts = some r') :
    Tracks provider service
      (accepts.foldl
        (fun sessions accepted => Function.update sessions accepted.1 (.start accepted.1)) sessions)
      r'.fds.connections := by
  induction accepts generalizing r sessions with
  | nil =>
      cases looped
      exact tracks
  | cons first accepts inductionHypothesis =>
      rcases first with ⟨connfd, time⟩
      rcases Option.bind_eq_some_iff.mp looped with ⟨middle, accepted, rest⟩
      unfold Reactor.accept at accepted
      split at accepted
      · cases accepted
      · rename_i notOpen
        cases accepted
        have unused : r.fds.isOpen connfd = false := Bool.eq_false_iff.mpr notOpen
        refine inductionHypothesis ?_ (Reactor.handled_accepted agree time unused connfd).agree rest
        unfold Reactor.accepted
        rw [agree.tables.accept_eq time unused]
        apply tracks.update connfd
        intro conn same
        cases same
        exact ⟨rfl, ⟨rfl, rfl⟩, rfl, rfl⟩

/-- A connection that is not connected any more is removed. -/
theorem Tracks.settle (tracks : Tracks provider service sessions r.fds.connections)
    (agree : Reactor.Agree r.timerLst r.fds) {fd : Fd} (isLive : r.fds.live fd = true)
    {conn : TcpConnection} (sameFd : conn.fd = fd) {session : Session}
    (agrees : conn.connected = true →
      session.conn = conn ∧ session.Serves provider service) :
    Tracks provider service (Function.update sessions fd session)
      (r.settle fd conn).fds.connections := by
  cases connected : conn.connected with
  | true =>
      rw [Reactor.settle_connected connected, Descriptors.rearm_eq]
      apply tracks.update fd
      intro other same
      cases same
      exact agrees connected
  | false =>
      rcases (agree.tables.setConnection isLive sameFd).removefd_eq fd with ⟨fdCalls, removed⟩
      rw [Reactor.settle_disconnected connected, removed]
      show Tracks provider service _
        (Function.update (Function.update r.fds.connections fd (some conn)) fd none)
      rw [Function.update_idem]
      exact tracks.update fd fun conn none => nomatch none

/-- The connection after a read of a session. -/
theorem conn_of_read {session after : Session} {recvs : List RecvRet} {ret : SendRet}
    (read : session.next provider service (.read recvs ret) = some after) :
    after.conn = (session.conn.handleRead (provider.serviceCallback service ret) recvs).1 := by
  simp only [Session.next] at read
  split at read
  · cases read
  · rename_i conn outcome _ called
    cases read
    rw [called]
  · rename_i conn called
    cases read
    rw [called]

/-- The end of the stream leaves no connection behind. -/
theorem stays_of_connected {ω : Type u} {conn : TcpConnection}
    {callback : TcpConnection → TcpConnection × Option ω} {recvs : List RecvRet}
    (connected : (conn.handleRead callback recvs).1.connected = true) :
    TcpConnection.endsStream recvs = false := by
  cases ends : TcpConnection.endsStream recvs with
  | false => rfl
  | true =>
      have closed : (conn.recvLoop recvs).connected = false := by
        rw [TcpConnection.connected, TcpConnection.recvLoop_state, ends]
        rfl
      have notReady : (conn.recvLoop recvs).messageReady = false := by
        rw [TcpConnection.messageReady, closed, Bool.false_and]
      have left : (conn.handleRead callback recvs).1 = conn.recvLoop recvs := by
        rw [TcpConnection.handleRead, notReady]
        rfl
      rw [left, closed] at connected
      cases connected

theorem Tracks.handle (tracks : Tracks provider service s.sessions s.reactor.fds.connections)
    (agree : Reactor.Agree s.reactor.timerLst s.reactor.fds) {sockfd : Fd} {flags : EpollEvents}
    {results : EventResults} {sessions : Fd → Session} {after : Reactor}
    (expected : Reactor.Expected s.reactor.fds sockfd flags)
    (observed : s.observe provider service sockfd flags results = some sessions)
    (handled : s.reactor.handleEvent sockfd flags (s.served provider service sockfd results) =
      some after) :
    Tracks provider service sessions after.fds.connections := by
  have sameAccepts : (s.served provider service sockfd results).accepts = results.accepts := by
    unfold served
    split
    · rfl
    · rfl
  unfold observe at observed
  unfold Reactor.handleEvent at handled
  by_cases listener : sockfd = s.reactor.fds.serverFd
  · rw [if_pos listener] at observed handled
    cases observed
    rw [sameAccepts] at handled
    exact tracks.acceptLoop agree handled
  · rw [if_neg listener] at observed handled
    by_cases pipe : sockfd = s.reactor.fds.pipeRead ∧ flags.epollin = true
    · rw [if_pos pipe] at observed handled
      cases observed
      cases handled
      rcases Reactor.signals_eq s.reactor (s.served provider service sockfd results).signals with
        ⟨timeout, stopServer, same⟩
      rw [same]
      exact tracks
    · rw [if_neg pipe] at observed handled
      have isLive : s.reactor.fds.live sockfd = true :=
        (expected.resolve_left listener).resolve_left pipe
      rcases Option.isSome_iff_exists.mp isLive with ⟨conn, found⟩
      rcases tracks sockfd conn found with ⟨same, serves⟩
      have sameFd := agree.tables.fd_eq found
      have adjusted := (Reactor.handled_adjust agree isLive).agree
      have filled : s.served provider service sockfd results =
          { results with
            acts := provider.acts service results.sent
              (conn.recvLoop results.recvs).inputBuffer.readable } := by
        unfold served
        rw [found]
      by_cases hangsUp : flags.hangsUp = true
      · rw [if_pos hangsUp] at observed handled
        cases observed
        cases handled
        exact tracks.removefd agree.tables sockfd
      · rw [if_neg hangsUp] at observed handled
        by_cases reads : flags.epollin = true
        · rw [if_pos reads] at observed handled
          rcases Option.map_eq_some_iff.mp observed with ⟨session, read, rfl⟩
          cases handled
          have moved := conn_of_read read
          rw [same] at moved
          rw [Reactor.readable_eq found, filled, RpcProvider.handleRead_acts, ← moved]
          have before : Tracks provider service s.sessions
              (s.reactor.adjust sockfd).fds.connections := tracks
          apply before.settle adjusted isLive
          · rw [moved, ← RpcProvider.handleRead_acts, TcpConnection.handleRead_fd, sameFd]
          · intro connected
            rw [moved] at connected
            exact ⟨rfl, serves.read (stays_of_connected connected) read⟩
        · rw [if_neg reads] at observed handled
          by_cases writes : flags.epollout = true
          · rw [if_pos writes] at observed handled
            rcases Option.map_eq_some_iff.mp observed with ⟨session, written, rfl⟩
            cases handled
            cases written
            rw [Reactor.writable_eq found, filled]
            have before : Tracks provider service s.sessions
                (s.reactor.adjust sockfd).fds.connections := tracks
            apply before.settle adjusted isLive
            · rw [TcpConnection.handleWrite_fd, sameFd]
            · intro _
              rw [← same]
              exact ⟨rfl, serves.write results.sent⟩
          · rw [if_neg writes] at observed handled
            cases observed
            cases handled
            exact tracks

/-- The loop under the server runs as it does alone, and tracks its sessions. -/
structure Running (provider : RpcProvider Msg) (service : Dispatch Msg → Msg)
    (serverFd pipeRead : Fd) (inUse : Fd → Bool) (s : Server) : Prop where
  loop : Reachable Reactor.next Unrestricted (.start serverFd pipeRead inUse) s.reactor
  tracks : Tracks provider service s.sessions s.reactor.fds.connections

variable {serverFd pipeRead : Fd} {inUse : Fd → Bool}

theorem Running.of_next (running : Running provider service serverFd pipeRead inUse s)
    {action : ReactorAction} (step : s.next provider service action = some t) :
    Running provider service serverFd pipeRead inUse t := by
  have consistent := Reactor.consistent_of_reachable running.loop
  have alone : ∀ {action : ReactorAction} {reactor : Reactor},
      s.reactor.next action = some reactor →
        Reachable Reactor.next Unrestricted (.start serverFd pipeRead inUse) reactor :=
    fun moved => .tail running.loop trivial moved
  cases action with
  | handle results =>
      simp only [next] at step
      split at step
      · rename_i sockfd flags rest pending
        rcases Option.bind_eq_some_iff.mp step with ⟨sessions, observed, step⟩
        rcases Option.map_eq_some_iff.mp step with ⟨reactor, moved, rfl⟩
        refine ⟨alone moved, ?_⟩
        simp only [Reactor.next, pending] at moved
        rcases Option.map_eq_some_iff.mp moved with ⟨after, handled, rfl⟩
        have expected := consistent.expected _ pending _ List.mem_cons_self
        have tracks := running.tracks.handle consistent.agree expected observed handled
        exact tracks
      · cases step
  | wait events =>
      rcases Option.map_eq_some_iff.mp step with ⟨reactor, moved, rfl⟩
      refine ⟨alone moved, ?_⟩
      cases Reactor.stepped_of_next consistent moved with
      | waited idle reports => exact running.tracks
  | finish =>
      rcases Option.map_eq_some_iff.mp step with ⟨reactor, moved, rfl⟩
      refine ⟨alone moved, ?_⟩
      cases Reactor.stepped_of_next consistent moved with
      | finished done =>
          unfold Reactor.finish
          split
          · exact running.tracks.tick consistent.agree s.reactor.now
          · exact running.tracks
  | clock time =>
      have moved : s.reactor.next (.clock time) = some { s.reactor with now := time } := rfl
      cases step
      exact ⟨alone moved, running.tracks⟩
  | send fd msg ret => cases step

theorem running_of_reachable
    (reached : Reachable (next provider service) Unrestricted (start serverFd pipeRead inUse) s) :
    Running provider service serverFd pipeRead inUse s := by
  apply reached.invariant
  · refine ⟨.refl, fun fd conn found => ?_⟩
    rw [start, Reactor.start_connections] at found
    cases found
  · intro s action t running _ step
    exact running.of_next step

/-- `accept` returns no descriptor of a connection. -/
theorem ne_accepted_of_live (agree : Reactor.Agree r.timerLst r.fds) {accepts : List (Fd × Int)}
    (looped : r.acceptLoop accepts = some r') {fd : Fd} (isLive : r.fds.live fd = true) :
    ∀ accepted ∈ accepts, fd ≠ accepted.1 := by
  induction accepts generalizing r with
  | nil => exact fun accepted member => nomatch member
  | cons first accepts inductionHypothesis =>
      obtain ⟨connfd, time⟩ := first
      obtain ⟨middle, accepted, rest⟩ := Option.bind_eq_some_iff.mp looped
      unfold Reactor.accept at accepted
      split at accepted
      · cases accepted
      · rename_i notOpen
        cases accepted
        have different : fd ≠ connfd := by
          rintro rfl
          exact notOpen (agree.tables.isOpen (.inr isLive))
        have handled := Reactor.handled_accepted agree time (Bool.eq_false_iff.mpr notOpen) connfd
        intro other member
        rcases List.mem_cons.mp member with rfl | later
        · exact different
        · exact inductionHypothesis handled.agree rest (handled.others fd different isLive)
            other later

theorem foldl_start_of_ne {fd : Fd} {accepts : List (Fd × Int)}
    (others : ∀ accepted ∈ accepts, fd ≠ accepted.1) (sessions : Fd → Session) :
    accepts.foldl
        (fun sessions accepted => Function.update sessions accepted.1 (.start accepted.1))
        sessions fd = sessions fd := by
  induction accepts generalizing sessions with
  | nil => rfl
  | cons first accepts inductionHypothesis =>
      rw [List.foldl_cons, inductionHypothesis fun accepted later =>
        others accepted (List.mem_cons_of_mem _ later)]
      exact Function.update_of_ne (others first List.mem_cons_self) _ _

/-- A session that is called at most once. -/
theorem session_of_update {fd sockfd : Fd} {event : SessionEvent} {after : Fd → Session}
    (updated : ((sessions sockfd).next provider service event).map
      (Function.update sessions sockfd) = some after) :
    after fd = sessions fd ∨
      ∃ event, (sessions fd).next provider service event = some (after fd) := by
  obtain ⟨session, called, rfl⟩ := Option.map_eq_some_iff.mp updated
  by_cases same : fd = sockfd
  · subst same
    rw [Function.update_self]
    exact .inr ⟨event, called⟩
  · exact .inl (Function.update_of_ne same _ _)

/-- What a step of the server does to the session of a connection: nothing, or one
call. -/
theorem session_of_next (agree : Reactor.Agree s.reactor.timerLst s.reactor.fds) {fd : Fd}
    (isLive : s.reactor.fds.live fd = true) {action : ReactorAction}
    (step : s.next provider service action = some t) :
    t.sessions fd = s.sessions fd ∨
      ∃ event, (s.sessions fd).next provider service event = some (t.sessions fd) := by
  cases action with
  | handle results =>
      simp only [next] at step
      split at step
      · rename_i sockfd flags rest pending
        obtain ⟨sessions, observed, step⟩ := Option.bind_eq_some_iff.mp step
        obtain ⟨reactor, moved, rfl⟩ := Option.map_eq_some_iff.mp step
        simp only [Reactor.next, pending] at moved
        obtain ⟨after, handled, rfl⟩ := Option.map_eq_some_iff.mp moved
        have sameAccepts : (s.served provider service sockfd results).accepts =
            results.accepts := by
          unfold served
          split
          · rfl
          · rfl
        unfold observe at observed
        unfold Reactor.handleEvent at handled
        split at observed
        · rename_i listener
          rw [if_pos listener, sameAccepts] at handled
          cases observed
          exact .inl (foldl_start_of_ne (ne_accepted_of_live agree handled isLive) _)
        · split at observed
          · cases observed
            exact .inl rfl
          · split at observed
            · cases observed
              exact .inl rfl
            · split at observed
              · exact session_of_update observed
              · split at observed
                · exact session_of_update observed
                · cases observed
                  exact .inl rfl
      · cases step
  | wait events =>
      obtain ⟨reactor, -, rfl⟩ := Option.map_eq_some_iff.mp step
      exact .inl rfl
  | finish =>
      obtain ⟨reactor, -, rfl⟩ := Option.map_eq_some_iff.mp step
      exact .inl rfl
  | clock time =>
      cases step
      exact .inl rfl
  | send fd msg ret => cases step

/-- What a step of the server adds to the records of a connection.  If the connection
stays, it passes on all that it received; if not, it may pass nothing on. -/
theorem Running.session (running : Running provider service serverFd pipeRead inUse s)
    {action : ReactorAction} (step : s.next provider service action = some t) {fd : Fd}
    (isLive : s.reactor.fds.live fd = true) :
    ∃ taken bytes, (t.sessions fd).received = (s.sessions fd).received ++ taken ∧
      (t.sessions fd).accepted = (s.sessions fd).accepted ++ bytes ∧
      ((t.sessions fd).Serves provider service ∧
          (t.sessions fd).batches = (s.sessions fd).batches ++ Exchange.batch taken ∨
        t.reactor.fds.live fd = false ∧
          (t.sessions fd).batches = (s.sessions fd).batches ∧ bytes = []) := by
  obtain ⟨conn, found⟩ := Option.isSome_iff_exists.mp isLive
  obtain ⟨-, serves⟩ := running.tracks fd conn found
  have agree := (Reactor.consistent_of_reachable running.loop).agree
  rcases session_of_next agree isLive step with same | ⟨event, called⟩
  · rw [same]
    exact ⟨[], [], (List.append_nil _).symm, (List.append_nil _).symm,
      .inl ⟨serves, (List.append_nil _).symm⟩⟩
  · obtain ⟨taken, bytes, received, accepted, goesOn | ⟨ended, batches, nothing⟩⟩ :=
      serves.next called
    · exact ⟨taken, bytes, received, accepted, .inl goesOn⟩
    · refine ⟨taken, bytes, received, accepted, .inr ⟨?_, batches, nothing⟩⟩
      by_contra stillLive
      obtain ⟨conn, found⟩ := Option.isSome_iff_exists.mp (Bool.eq_true_of_not_eq_false stillLive)
      obtain ⟨same, serves⟩ := (running.of_next step).tracks fd conn found
      rw [TcpConnection.connected, serves.idle.1] at ended
      cases ended

/-- In every run of the server, whatever its other connections do, the bytes that a
connection's socket took and those that wait in its buffer are the answers to what
`OnMessage` was given on this connection, in order, and that is all that it received. -/
theorem answers_of_server
    (reached : Reachable (next provider service) Unrestricted (start serverFd pipeRead inUse) s)
    {fd : Fd} {conn : TcpConnection} (found : s.reactor.fds.connections fd = some conn) :
    (s.sessions fd).batches.flatten = (s.sessions fd).received ∧
      (s.sessions fd).accepted ++ conn.outputBuffer.readable =
        (s.sessions fd).batches.flatMap (provider.answer service) := by
  rcases (running_of_reachable reached).tracks fd conn found with ⟨rfl, serves⟩
  exact ⟨serves.handedOn, serves.answered⟩

/-- Two connections in one batch.  Descriptor 7 is closed and accepted again before its
second connection sends a request, whose answer goes out in two pieces. -/
theorem answers_of_server_reused :
    ∃ (s : Server) (conn : TcpConnection),
      Reachable (next userProvider fun _ => { serviceName := [97] }) Unrestricted
        (start 3 4 fun _ => false) s ∧
      s.reactor.fds.connections 7 = some conn ∧ (s.sessions 7).accepted = [10] ∧
      (s.sessions 7).batches.flatten = (s.sessions 7).received ∧
      (s.sessions 7).accepted ++ conn.outputBuffer.readable =
        (s.sessions 7).batches.flatMap
          (userProvider.answer fun _ => { serviceName := [97] }) := by
  have run : ∃ s : Server, Reachable (next userProvider fun _ => { serviceName := [97] })
      Unrestricted (start 3 4 fun _ => false) s ∧
        (s.reactor.fds.connections 7).isSome = true ∧ (s.sessions 7).accepted = [10] := by
    apply exists_reachable [
      .wait [(3, Reactor.readableFlags)], .handle { accepts := [(7, 0), (8, 0)] }, .finish,
      .wait [(7, Reactor.readableFlags), (8, Reactor.readableFlags), (3, Reactor.readableFlags)],
      .handle { recvs := [.received []] },
      .handle { recvs := [.received (Session.frameOf RpcProvider.loginRequest)],
                sent := .sent 3 },
      .handle { accepts := [(7, 1)] }, .finish,
      .wait [(7, Reactor.readableFlags)],
      .handle { recvs := [.received (Session.frameOf RpcProvider.loginRequest), .error EAGAIN],
                sent := .sent 1 }]
    · exact Meets.unrestricted ..
    · decide +kernel
  rcases run with ⟨s, reached, isLive, accepted⟩
  rcases Option.isSome_iff_exists.mp isLive with ⟨conn, found⟩
  exact ⟨s, conn, reached, found, accepted, answers_of_server reached found⟩

end Server

end Mprpc.Rpc
