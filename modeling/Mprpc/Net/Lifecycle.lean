import Mprpc.Net.Bookkeeping

/-!
# Connections come and go

Much of what is true of the tables of the loop depends only on which connections
there are and which descriptors were accepted and closed.  Such a property holds
throughout if it survives one `accept` and one `removefd`; the branches of the
loop and the ticks are made of these.  The descriptors that `accept` returns may be
known to have a property of their own.
-/

namespace Mprpc.Net

open Mprpc.Transition

namespace Descriptors

/-- A property that survives connections that come, on descriptors that are known to
`accept`, and go, and sees nothing else. -/
structure Lifecycle (known : Fd → Prop) (holds : Descriptors → Prop) : Prop where
  accept : ∀ {fds}, holds fds → fds.Tables → ∀ (now : Int) {connfd}, known connfd →
    fds.isOpen connfd = false → holds (fds.accept now connfd)
  removefd : ∀ {fds}, holds fds → fds.Tables → ∀ fd, holds (fds.removefd fd)
  congr : ∀ {fds fds' : Descriptors}, holds fds → fds'.live = fds.live →
    fds'.fdCalls = fds.fdCalls → fds'.serverFd = fds.serverFd →
      fds'.pipeRead = fds.pipeRead → holds fds'

end Descriptors

namespace Reactor

open Descriptors

variable {r r' : Reactor}

/-- The descriptors that `accept` returns in a step have a property. -/
def Accepts (known : Fd → Prop) (r : Reactor) (action : ReactorAction) : Prop :=
  ∀ handled ∈ r.handling action, handled.1.1 = r.fds.serverFd →
    ∀ accepted ∈ handled.2.accepts, known accepted.1

theorem accepts_true (action : ReactorAction) : Accepts (fun _ => True) r action :=
  fun _ _ _ _ _ => trivial

section Lifecycle

variable {known : Fd → Prop} {holds : Descriptors → Prop}

theorem lifecycle_activity (rule : Lifecycle known holds) (held : holds r.fds)
    (agree : Agree r.timerLst r.fds) {fd : Fd} {conn : TcpConnection}
    (isLive : r.fds.live fd = true) (sameFd : conn.fd = fd) :
    holds ((r.adjust fd).settle fd conn).fds := by
  have tables := (handled_adjust agree isLive).agree.tables
  have stillLive : (r.adjust fd).fds.live fd = true := isLive
  have set : holds ((r.adjust fd).fds.setConnection fd (some conn)) :=
    rule.congr held (live_replaced stillLive conn) rfl rfl rfl
  cases connected : conn.connected with
  | true =>
      rw [settle_connected connected]
      dsimp only
      rw [rearm_eq]
      exact rule.congr set rfl rfl rfl rfl
  | false =>
      rw [settle_disconnected connected]
      exact rule.removefd set (tables.setConnection stillLive sameFd) fd

theorem lifecycle_branch (rule : Lifecycle known holds) (held : holds r.fds)
    (agree : Agree r.timerLst r.fds) {fd : Fd} {flags : EpollEvents} {results : EventResults}
    (accepts : fd = r.fds.serverFd → ∀ accepted ∈ results.accepts, known accepted.1)
    (branch : Branch r fd flags results r') : holds r'.fds := by
  cases branch with
  | accepts accepted listener =>
      apply acceptLoop_known (fun connfd _ => known connfd) (fun r => holds r.fds) _ agree held
        (accepts listener) accepted
      intro r connfd time isKnown agree held unused
      exact rule.accept held agree.tables time isKnown unused
  | signals =>
      rcases signals_eq r results.signals with ⟨timeout, stopServer, same⟩
      rw [same]
      exact held
  | hangUp isLive => exact rule.removefd held agree.tables fd
  | readable found reads stays =>
      apply lifecycle_activity rule held agree (live_of_found found)
      rw [TcpConnection.handleRead_fd, agree.tables.fd_eq found]
  | writable found writes =>
      apply lifecycle_activity rule held agree (live_of_found found)
      rw [TcpConnection.handleWrite_fd, agree.tables.fd_eq found]
  | ignored => exact held

theorem lifecycle_tick (rule : Lifecycle known holds) {t : TimeHeap} {fds : Descriptors}
    (held : holds fds) (agree : Agree t fds) (cur : Int) :
    holds (t.tick (cbFunc cur) cur fds).2 := by
  apply (agree.tick_invariant cur (fun _ fds => holds fds) _ _ held).2
  · intro t fds root agree held many atRoot _ _
    rw [agree.cbFunc_eq (TimeHeap.root_mem_entries many atRoot) cur]
    have recorded : holds { fds with kicks := fds.kicks ++ [kickOf cur t root fds] } :=
      rule.congr held rfl rfl rfl rfl
    exact rule.removefd recorded (agree.record _) _
  · intro t fds root _ held _ _ _
    exact held

theorem lifecycle_of_stepped (rule : Lifecycle known holds) (held : holds r.fds)
    (consistent : r.Consistent) {action : ReactorAction} (accepts : r.Accepts known action)
    (stepped : Stepped r action r') : holds r'.fds := by
  cases stepped with
  | waited idle reports => exact rule.congr held rfl rfl rfl rfl
  | @handled fd flags results rest after pending branch =>
      have returned := accepts ((fd, flags), results) (by simp [handling, pending])
      have handled := lifecycle_branch rule held consistent.agree returned branch
      exact handled
  | finished done =>
      unfold Reactor.finish
      split
      · exact lifecycle_tick rule held consistent.agree r.now
      · exact held
  | clock time => exact held
  | @sent fd msg ret after sent =>
      rcases Option.map_eq_some_iff.mp sent with ⟨conn, found, rfl⟩
      exact rule.congr held (live_replaced (live_of_found found) (conn.send msg ret)) rfl rfl rfl

/-- What survives connections that come and go holds in every run. -/
theorem lifecycle_of_reachable (rule : Lifecycle known holds)
    {allowed : Reactor → ReactorAction → Prop} {serverFd pipeRead : Fd} {inUse : Fd → Bool}
    (accepts : ∀ {r action}, allowed r action → r.Accepts known action)
    (initial : holds (start serverFd pipeRead inUse).fds)
    (reached : Reachable next allowed (start serverFd pipeRead inUse) r) : holds r.fds := by
  apply invariant_of_stepped (fun r => holds r.fds) initial _ reached
  intro state action successor _ consistent held allowedStep stepped
  exact lifecycle_of_stepped rule held consistent (accepts allowedStep) stepped

end Lifecycle

end Reactor

namespace Descriptors

variable {fds fds' : Descriptors}

/-! ## Accepted descriptors -/

/-- The descriptor was returned by `accept`. -/
def Accepted (fds : Descriptors) (fd : Fd) : Prop :=
  .accepted fd ∈ fds.fdCalls

instance (fds : Descriptors) (fd : Fd) : Decidable (fds.Accepted fd) :=
  inferInstanceAs (Decidable (_ ∈ _))

/-- Connections were accepted, and what was accepted is neither the listening
socket nor the signal pipe. -/
structure History (fds : Descriptors) : Prop where
  accepted : ∀ {fd}, fds.live fd = true → fds.Accepted fd
  client : ∀ {fd}, fds.Accepted fd → fds.Client fd

/-- `removefd` closes the descriptor, and the destructor of its connection does
so again. -/
theorem removefd_fdCalls (tables : fds.Tables) (fd : Fd) :
    (fds.removefd fd).fdCalls =
      fds.fdCalls ++ if fds.live fd then [.closed fd, .closed fd] else [.closed fd] := by
  cases found : fds.connections fd with
  | none => simp [Descriptors.removefd, erase, close, setInterest, live, found]
  | some conn =>
      simp [Descriptors.removefd, erase, close, setInterest, setConnection, live, found,
        tables.fd_eq found]

theorem accepted_removefd_iff (tables : fds.Tables) (fd other : Fd) :
    (fds.removefd fd).Accepted other ↔ fds.Accepted other := by
  unfold Accepted
  rw [removefd_fdCalls tables fd]
  split
  · simp
  · simp

theorem lifecycle_history : Lifecycle (fun _ => True) History := by
  constructor
  · intro fds history tables now connfd _ unused
    have shape := tables.accept_eq now unused
    constructor
    · intro fd isLive
      unfold Accepted
      rw [shape]
      rcases (tables.live_accept_iff unused).mp isLive with rfl | before
      · exact List.mem_append_right _ (List.mem_singleton_self _)
      · exact List.mem_append_left _ (history.accepted before)
    · intro fd wasAccepted
      unfold Accepted at wasAccepted
      rw [shape] at wasAccepted ⊢
      rcases List.mem_append.mp wasAccepted with before | now
      · exact history.client before
      · cases List.mem_singleton.mp now
        exact (tables.unused unused).1
  · intro fds history tables fd
    have accepted := accepted_removefd_iff tables fd
    rcases tables.removefd_eq fd with ⟨fdCalls, removed⟩
    constructor
    · intro other isLive
      exact (accepted other).mpr (history.accepted (tables.live_removefd_iff.mp isLive).2)
    · intro other wasAccepted
      rw [removed]
      exact history.client ((accepted other).mp wasAccepted)
  · intro fds fds' history live calls serverFd pipeRead
    constructor
    · intro fd isLive
      rw [live] at isLive
      unfold Accepted
      rw [calls]
      exact history.accepted isLive
    · intro fd wasAccepted
      unfold Accepted at wasAccepted
      rw [calls] at wasAccepted
      unfold Client
      rw [serverFd, pipeRead]
      exact history.client wasAccepted

end Descriptors

theorem Reactor.history_start (serverFd pipeRead : Fd) (inUse : Fd → Bool) :
    (start serverFd pipeRead inUse).fds.History := by
  constructor
  · intro fd isLive
    rw [start_live] at isLive
    cases isLive
  · intro fd accepted
    unfold Descriptors.Accepted at accepted
    rw [start_fdCalls] at accepted
    cases accepted

end Mprpc.Net
