import Mprpc.Net.Lifecycle

/-!
# No connection is out of sight of `epoll`

A reported descriptor is disarmed until a branch re-arms it, so each branch must
re-arm or remove its connection.  At the call of `epoll_wait` the entries of
`m_connections` are the accepted descriptors that are open and registered, and
all of them are connected and armed.
-/

namespace Mprpc.Net

open Mprpc.Transition

namespace Descriptors

variable {fds fds' : Descriptors}

/-- Connections are registered, and armed unless an event of theirs is yet to be
handled. -/
def Watched (pending : List Fd) (fds : Descriptors) : Prop :=
  ∀ fd, fds.live fd = true → fds.epoll fd ≠ none ∧
    (fd ∉ pending → fds.epoll fd = some (.initial true))

/-- It is enough to look at the descriptor that has changed. -/
theorem Watched.update {pending pending' : List Fd} (watched : fds.Watched pending) (fd : Fd)
    (others : ∀ other, other ≠ fd → fds'.live other = fds.live other ∧
      fds'.epoll other = fds.epoll other)
    (fewer : ∀ other, other ≠ fd → other ∉ pending' → other ∉ pending)
    (changed : fds'.live fd = true → fds'.epoll fd = some (.initial true)) :
    fds'.Watched pending' := by
  intro other isLive
  by_cases same : other = fd
  · subst same
    have armed := changed isLive
    rw [armed]
    exact ⟨Option.some_ne_none _, fun _ => rfl⟩
  · rcases others other same with ⟨sameLive, sameEpoll⟩
    rw [sameLive] at isLive
    rw [sameEpoll]
    rcases watched other isLive with ⟨registered, armed⟩
    exact ⟨registered, fun notPending => armed (fewer other same notPending)⟩

/-- Other changes do not matter. -/
theorem Watched.congr {pending : List Fd} (watched : fds.Watched pending)
    (live : fds'.live = fds.live) (epoll : fds'.epoll = fds.epoll) : fds'.Watched pending := by
  intro fd isLive
  rw [live] at isLive
  rw [epoll]
  exact watched fd isLive

/-- A descriptor without a connection need not be watched. -/
theorem Watched.drop {pending : List Fd} {fd : Fd} (watched : fds.Watched (fd :: pending))
    (notLive : fds.live fd = false) : fds.Watched pending := by
  apply watched.update fd (fun _ _ => ⟨rfl, rfl⟩)
  · exact fun _ => List.not_mem_cons_of_ne_of_not_mem
  · intro isLive
    rw [notLive] at isLive
    cases isLive

theorem Watched.removefd {pending pending' : List Fd} (watched : fds.Watched pending)
    (tables : fds.Tables) (fd : Fd)
    (fewer : ∀ other, other ≠ fd → other ∉ pending' → other ∉ pending) :
    (fds.removefd fd).Watched pending' := by
  have live := tables.live_removefd fd
  rcases tables.removefd_eq fd with ⟨fdCalls, removed⟩
  apply watched.update fd _ fewer
  · intro isLive
    exact absurd rfl (tables.live_removefd_iff.mp isLive).1
  · intro other different
    rw [live, Function.update_of_ne different, removed]
    exact ⟨rfl, Function.update_of_ne different ..⟩

theorem Watched.accept {pending : List Fd} (watched : fds.Watched pending) (tables : fds.Tables)
    (now : Int) {connfd : Fd} (unused : fds.isOpen connfd = false) :
    (fds.accept now connfd).Watched pending := by
  have live := tables.live_accept now unused
  have shape := tables.accept_eq now unused
  apply watched.update connfd _ (fun _ _ notPending => notPending)
  · intro _
    rw [shape]
    exact Function.update_self ..
  · intro other different
    rw [live, Function.update_of_ne different, shape]
    exact ⟨rfl, Function.update_of_ne different ..⟩

/-- Re-arming a registered descriptor. -/
theorem rearm_epoll {fd : Fd} (registered : fds.epoll fd ≠ none) :
    (fds.rearm fd).epoll = Function.update fds.epoll fd (some (.initial true)) := by
  unfold rearm
  cases found : fds.epoll fd with
  | none => exact absurd found registered
  | some interest => rfl

theorem Watched.rearm {pending pending' : List Fd} (watched : fds.Watched pending) {fd : Fd}
    (isLive : fds.live fd = true)
    (fewer : ∀ other, other ≠ fd → other ∉ pending' → other ∉ pending) :
    (fds.rearm fd).Watched pending' := by
  have epoll := rearm_epoll (watched fd isLive).1
  apply watched.update fd _ fewer
  · intro _
    rw [epoll]
    exact Function.update_self ..
  · intro other different
    rw [epoll, rearm_eq]
    exact ⟨rfl, Function.update_of_ne different ..⟩

end Descriptors

namespace Reactor

open Descriptors

variable {r r' : Reactor}

/-- The descriptors with a reported event that is left. -/
def pending (r : Reactor) : List Fd :=
  (r.batch.getD []).map Prod.fst

/-- What holds of the tables between any two steps. -/
structure Bookkept (r : Reactor) : Prop where
  watched : r.fds.Watched r.pending
  history : r.fds.History
  flagged : ∀ events, r.batch = some events → ∀ event ∈ events, event.2.nonempty = true

/-- A descriptor that is no client has no connection. -/
theorem not_live_of_not_client {fds : Descriptors} (tables : fds.Tables) {fd : Fd}
    (listener : ¬ fds.Client fd) : fds.live fd = false := by
  cases isLive : fds.live fd with
  | false => rfl
  | true => exact absurd (tables.client isLive) listener

theorem watched_acceptLoop {accepts : List (Fd × Int)} {rest : List Fd}
    (watched : r.fds.Watched rest) (agree : Agree r.timerLst r.fds)
    (looped : r.acceptLoop accepts = some r') : r'.fds.Watched rest := by
  apply acceptLoop_invariant (fun r => r.fds.Watched rest) _ agree watched looped
  intro r connfd time agree watched unused
  exact watched.accept agree.tables time unused

/-- A connection is re-armed after its event, or removed. -/
theorem watched_activity {fd : Fd} {conn : TcpConnection} {rest : List Fd}
    (watched : r.fds.Watched (fd :: rest)) (agree : Agree r.timerLst r.fds)
    (isLive : r.fds.live fd = true) (sameFd : conn.fd = fd) :
    ((r.adjust fd).settle fd conn).fds.Watched rest := by
  have adjusted := handled_adjust agree isLive
  have stillLive : (r.adjust fd).fds.live fd = true := isLive
  have live := live_replaced stillLive conn
  have set : ((r.adjust fd).fds.setConnection fd (some conn)).Watched (fd :: rest) :=
    watched.congr live rfl
  cases connected : conn.connected with
  | true =>
      rw [settle_connected connected]
      apply set.rearm _ fun _ => List.not_mem_cons_of_ne_of_not_mem
      rw [live]
      exact stillLive
  | false =>
      have tables := adjusted.agree.tables.setConnection stillLive sameFd
      rw [settle_disconnected connected]
      exact set.removefd tables fd fun _ => List.not_mem_cons_of_ne_of_not_mem

theorem watched_branch {fd : Fd} {flags : EpollEvents} {results : EventResults} {rest : List Fd}
    (watched : r.fds.Watched (fd :: rest)) (agree : Agree r.timerLst r.fds)
    (flagged : flags.nonempty = true) (branch : Branch r fd flags results r') :
    r'.fds.Watched rest := by
  cases branch with
  | accepts accepted listener =>
      have notLive := not_live_of_not_client agree.tables fun client => client.1 listener
      exact watched_acceptLoop (watched.drop notLive) agree accepted
  | signals pipe =>
      have notLive := not_live_of_not_client agree.tables fun client => client.2 pipe
      rcases signals_eq r results.signals with ⟨timeout, stopServer, same⟩
      rw [same]
      exact watched.drop notLive
  | hangUp isLive =>
      exact watched.removefd agree.tables fd fun _ => List.not_mem_cons_of_ne_of_not_mem
  | readable found reads stays =>
      apply watched_activity watched agree (live_of_found found)
      rw [TcpConnection.handleRead_fd, agree.tables.fd_eq found]
  | writable found writes =>
      apply watched_activity watched agree (live_of_found found)
      rw [TcpConnection.handleWrite_fd, agree.tables.fd_eq found]
  | ignored empty =>
      rw [empty] at flagged
      cases flagged

theorem watched_tick {t : TimeHeap} {fds : Descriptors} (watched : fds.Watched [])
    (agree : Agree t fds) (cur : Int) : (t.tick (cbFunc cur) cur fds).2.Watched [] := by
  apply (agree.tick_invariant cur (fun _ fds => fds.Watched []) _ _ watched).2
  · intro t fds root agree watched many atRoot _ _
    rw [agree.cbFunc_eq (TimeHeap.root_mem_entries many atRoot) cur]
    have recorded : { fds with kicks := fds.kicks ++ [kickOf cur t root fds] }.Watched [] :=
      watched
    exact recorded.removefd (agree.record _) _ fun _ _ notPending => notPending
  · intro t fds root _ kept _ _ _
    exact kept

/-- Reported descriptors are disarmed and pending. -/
theorem watched_report {fds : Descriptors} (watched : fds.Watched [])
    (events : List (Fd × EpollEvents)) :
    (fds.report events).Watched (events.map Prod.fst) := by
  intro fd isLive
  rcases watched fd isLive with ⟨registered, armed⟩
  refine ⟨(report_registered fds events fd).mpr registered, ?_⟩
  intro notPending
  unfold report
  dsimp only
  rw [if_neg notPending]
  exact armed List.not_mem_nil

theorem Bookkept.of_stepped (bookkept : r.Bookkept) (consistent : r.Consistent)
    {action : ReactorAction} (stepped : Stepped r action r') : r'.Bookkept := by
  have watched := bookkept.watched
  have history := lifecycle_of_stepped lifecycle_history bookkept.history consistent
    (accepts_true action) stepped
  unfold pending at watched
  cases stepped with
  | @waited events idle reports =>
      rw [idle] at watched
      refine ⟨watched_report watched events, history, ?_⟩
      intro others same event member
      cases same
      exact (reports.2.2 event member).2.2
  | @handled fd flags results rest after current branch =>
      rw [current] at watched
      have flagged := bookkept.flagged _ current
      have kept := watched_branch watched consistent.agree (flagged _ List.mem_cons_self) branch
      refine ⟨kept, history, ?_⟩
      intro others same event member
      cases same
      exact flagged event (List.mem_cons_of_mem _ member)
  | finished done =>
      rw [done] at watched
      refine ⟨?_, history, fun _ none => ?_⟩
      · unfold Reactor.finish
        split
        · exact watched_tick watched consistent.agree r.now
        · exact watched
      · unfold Reactor.finish at none
        split at none
        · cases none
        · cases none
  | clock time => exact ⟨watched, history, bookkept.flagged⟩
  | @sent fd msg ret after sent =>
      rcases Option.map_eq_some_iff.mp sent with ⟨conn, found, rfl⟩
      have live := live_replaced (live_of_found found) (conn.send msg ret)
      exact ⟨watched.congr live rfl, history, bookkept.flagged⟩

theorem bookkept_of_reachable {allowed : Reactor → ReactorAction → Prop} {serverFd pipeRead : Fd}
    {inUse : Fd → Bool} (reached : Reachable next allowed (start serverFd pipeRead inUse) r) :
    r.Bookkept := by
  apply invariant_of_stepped (fun r => r.Bookkept) _ _ reached
  · refine ⟨?_, history_start serverFd pipeRead inUse, fun _ none => by cases none⟩
    intro fd isLive
    rw [start_live] at isLive
    cases isLive
  · intro state action successor _ consistent bookkept _ stepped
    exact bookkept.of_stepped consistent stepped

/-- In every run, at the call of `epoll_wait`, the entries of `m_connections` are
the accepted descriptors that are open and registered, and every entry is
connected and armed. -/
theorem connections_watched {serverFd pipeRead : Fd} {inUse : Fd → Bool}
    (reached : Reachable next Unrestricted (start serverFd pipeRead inUse) r)
    (idle : r.batch = none) :
    (∀ fd, (r.fds.connections fd).isSome = true ↔
      r.fds.Accepted fd ∧ r.fds.isOpen fd = true ∧ r.fds.epoll fd ≠ none) ∧
    ∀ fd conn, r.fds.connections fd = some conn → conn.state = .kConnected ∧
      ∃ interest ∈ r.fds.epoll fd, interest.armed = true := by
  have tables := (consistent_of_reachable reached).agree.tables
  have bookkept := bookkept_of_reachable reached
  have watched := bookkept.watched
  unfold pending at watched
  rw [idle] at watched
  constructor
  · intro fd
    constructor
    · intro isLive
      exact ⟨bookkept.history.accepted isLive, tables.isOpen (.inr isLive), (watched fd isLive).1⟩
    · rintro ⟨accepted, -, registered⟩
      exact (tables.registered registered).resolve_left fun listener =>
        listener (bookkept.history.client accepted)
  · intro fd conn found
    have armed := (watched fd (live_of_found found)).2 List.not_mem_nil
    refine ⟨eq_of_beq (connected_of_reachable reached fd conn found), _, armed, rfl⟩

/-- A connection that has been read from, back at `epoll_wait`. -/
theorem connections_watched_after_read :
    ∃ r, Reachable next Unrestricted exampleLoop r ∧
      (r.batch = none ∧ r.fds.live 7 = true) ∧
        ((∀ fd, (r.fds.connections fd).isSome = true ↔
          r.fds.Accepted fd ∧ r.fds.isOpen fd = true ∧ r.fds.epoll fd ≠ none) ∧
        ∀ fd conn, r.fds.connections fd = some conn → conn.state = .kConnected ∧
          ∃ interest ∈ r.fds.epoll fd, interest.armed = true) := by
  have run : ∃ r, Reachable next Unrestricted exampleLoop r ∧
      (r.batch = none ∧ r.fds.live 7 = true) := by
    apply exists_reachable [.wait [(3, readableFlags)], .handle { accepts := [(7, 0)] }, .finish,
      .wait [(7, readableFlags)], .handle { recvs := [.received [0], .error EAGAIN] }, .finish]
    · exact Meets.unrestricted ..
    · decide +kernel
  rcases run with ⟨r, reached, idle, isLive⟩
  exact ⟨r, reached, ⟨idle, isLive⟩, connections_watched reached idle⟩

end Reactor

end Mprpc.Net
