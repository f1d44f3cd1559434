import Mprpc.Net.Deadlines
import Mprpc.Net.Reactor

/-!
# Tables and timers in every run of the loop

`Consistent` holds between any two steps of `Start`, whatever the connections
do: the tables agree about which descriptors are connections, the reported
events that are left belong to registered descriptors, and every connection has
its timer in the heap.  Nothing is said about other timers; see
`Mprpc.Net.Timeout` for those.
-/

namespace Mprpc.Net

open Mprpc.Transition

namespace TcpConnection

@[simp]
theorem handleWrite_connected (conn : TcpConnection) (ret : SendRet) :
    (conn.handleWrite ret).connected = conn.connected := by
  unfold connected
  rw [handleWrite_state]

theorem shutdown_fd (conn : TcpConnection) : conn.shutdown.fd = conn.fd := by
  unfold shutdown
  split
  · rfl
  · rfl

theorem act_fd (conn : TcpConnection) (act : CallbackAct) : (conn.act act).fd = conn.fd := by
  cases act with
  | retrieve len => rfl
  | send msg ret => exact send_fd conn msg ret
  | shutdown => exact shutdown_fd conn

theorem callback_fd (acts : List CallbackAct) (conn : TcpConnection) :
    (conn.callback acts).1.fd = conn.fd := by
  unfold callback
  induction acts generalizing conn with
  | nil => rfl
  | cons act acts inductionHypothesis => exact (inductionHypothesis _).trans (act_fd conn act)

theorem handleRead_fd (conn : TcpConnection) (acts : List CallbackAct) (rets : List RecvRet) :
    (conn.handleRead (callback acts) rets).1.fd = conn.fd := by
  unfold handleRead
  dsimp only
  split
  · rw [callback_fd, recvLoop_fd]
  · exact recvLoop_fd conn rets

end TcpConnection

namespace Descriptors

/-- The descriptors that `accept` can return while the listening socket and the
signal pipe are open. -/
def Client (fds : Descriptors) (fd : Fd) : Prop :=
  fd ≠ fds.serverFd ∧ fd ≠ fds.pipeRead

/-- The tables agree. -/
structure Tables (fds : Descriptors) : Prop where
  fd_eq : ∀ {fd conn}, fds.connections fd = some conn → conn.fd = fd
  client : ∀ {fd}, fds.live fd = true → fds.Client fd
  isOpen : ∀ {fd}, ¬ fds.Client fd ∨ fds.live fd = true → fds.isOpen fd = true
  registered : ∀ {fd}, fds.epoll fd ≠ none → ¬ fds.Client fd ∨ fds.live fd = true

variable {fds : Descriptors}

theorem live_setConnection (fds : Descriptors) (fd : Fd) (conn : Option TcpConnection) :
    (fds.setConnection fd conn).live = Function.update fds.live fd conn.isSome := by
  funext other
  unfold live setConnection
  by_cases same : other = fd
  · subst same
    simp
  · simp [same]

/-- An entry that is replaced leaves the live descriptors as they were. -/
theorem live_replaced {fd : Fd} (isLive : fds.live fd = true) (conn : TcpConnection) :
    (fds.setConnection fd (some conn)).live = fds.live := by
  rw [live_setConnection, Option.isSome_some, ← isLive, Function.update_eq_self]

theorem live_of_found {fd : Fd} {conn : TcpConnection} (found : fds.connections fd = some conn) :
    fds.live fd = true :=
  Option.isSome_iff_exists.mpr ⟨conn, found⟩

/-- What holds of all values of a table holds after an update with such a value. -/
theorem forall_of_update {β : Type} {holds : β → Prop} {table table' : Fd → Option β}
    (each : ∀ fd value, table fd = some value → holds value) (fd : Fd) (entry : Option β)
    (changed : table' = Function.update table fd entry)
    (holdsEntry : ∀ value, entry = some value → holds value) :
    ∀ fd value, table' fd = some value → holds value := by
  intro other value found
  rw [changed] at found
  by_cases same : other = fd
  · subst same
    rw [Function.update_self] at found
    exact holdsEntry value found
  · rw [Function.update_of_ne same] at found
    exact each other value found

/-- What `removefd` does to the tables. -/
theorem Tables.removefd_eq (tables : fds.Tables) (fd : Fd) :
    ∃ fdCalls, fds.removefd fd =
      { fds with
        isOpen := Function.update fds.isOpen fd false
        epoll := Function.update fds.epoll fd none
        connections := Function.update fds.connections fd none
        fdCalls := fdCalls } := by
  cases found : fds.connections fd with
  | none =>
      have kept : Function.update fds.connections fd none = fds.connections := by
        rw [← found, Function.update_eq_self]
      refine ⟨fds.fdCalls ++ [.closed fd], ?_⟩
      simp [Descriptors.removefd, erase, close, setInterest, found, kept]
  | some conn =>
      refine ⟨fds.fdCalls ++ [.closed fd] ++ [.closed fd], ?_⟩
      simp [Descriptors.removefd, erase, close, setInterest, setConnection, found,
        tables.fd_eq found]

theorem Tables.live_removefd (tables : fds.Tables) (fd : Fd) :
    (fds.removefd fd).live = Function.update fds.live fd false := by
  rcases tables.removefd_eq fd with ⟨fdCalls, removed⟩
  rw [removed]
  exact live_setConnection fds fd none

/-- The connections that `removefd` leaves. -/
theorem Tables.live_removefd_iff (tables : fds.Tables) {fd other : Fd} :
    (fds.removefd fd).live other = true ↔ other ≠ fd ∧ fds.live other = true := by
  rw [tables.live_removefd]
  by_cases same : other = fd
  · simp [same]
  · simp [same]

theorem Tables.removefd (tables : fds.Tables) {fd : Fd} (client : fds.Client fd) :
    (fds.removefd fd).Tables := by
  have live := tables.live_removefd fd
  rcases tables.removefd_eq fd with ⟨fdCalls, removed⟩
  rw [removed] at live ⊢
  constructor
  · intro other conn found
    by_cases same : other = fd
    · subst same
      simp at found
    · simp only [Function.update_of_ne same] at found
      exact tables.fd_eq found
  · intro other isLive
    rw [live] at isLive
    by_cases same : other = fd
    · subst same
      exact client
    · rw [Function.update_of_ne same] at isLive
      exact tables.client isLive
  · intro other needed
    rw [live] at needed
    by_cases same : other = fd
    · subst same
      rw [Function.update_self] at needed
      rcases needed with listener | isLive
      · exact absurd client listener
      · cases isLive
    · rw [Function.update_of_ne same] at needed
      simp only [Function.update_of_ne same]
      exact tables.isOpen needed
  · intro other registered
    rw [live]
    by_cases same : other = fd
    · subst same
      simp at registered
    · simp only [Function.update_of_ne same] at registered ⊢
      exact tables.registered registered

/-- What accepting a connection does to the tables. -/
theorem Tables.accept_eq (tables : fds.Tables) (now : Int) {connfd : Fd}
    (unused : fds.isOpen connfd = false) :
    fds.accept now connfd =
      { fds with
        isOpen := Function.update fds.isOpen connfd true
        epoll := Function.update fds.epoll connfd (some (.initial true))
        connections := Function.update fds.connections connfd (some (.new connfd))
        lastEvent := Function.update fds.lastEvent connfd now
        fdCalls := fds.fdCalls ++ [.accepted connfd] } := by
  have notNeeded : ¬ (¬ fds.Client connfd ∨ fds.live connfd = true) := by
    intro needed
    rw [tables.isOpen needed] at unused
    cases unused
  have notLive : fds.connections connfd = none := by
    cases found : fds.connections connfd with
    | none => rfl
    | some conn => exact absurd (.inr (by simp [live, found])) notNeeded
  have notRegistered : fds.epoll connfd = none := by
    by_contra registered
    exact notNeeded (tables.registered registered)
  simp [Descriptors.accept, erase, setConnection, addfd, setInterest, notLive, notRegistered]

theorem Tables.unused (tables : fds.Tables) {connfd : Fd} (unused : fds.isOpen connfd = false) :
    fds.Client connfd ∧ fds.live connfd = false := by
  constructor
  · by_contra listener
    rw [tables.isOpen (.inl listener)] at unused
    cases unused
  · cases isLive : fds.live connfd with
    | false => rfl
    | true =>
        rw [tables.isOpen (.inr isLive)] at unused
        cases unused

theorem Tables.live_accept (tables : fds.Tables) (now : Int) {connfd : Fd}
    (unused : fds.isOpen connfd = false) :
    (fds.accept now connfd).live = Function.update fds.live connfd true := by
  rw [tables.accept_eq now unused]
  exact live_setConnection fds connfd (some (.new connfd))

theorem Tables.live_accept_iff (tables : fds.Tables) {now : Int} {connfd other : Fd}
    (unused : fds.isOpen connfd = false) :
    (fds.accept now connfd).live other = true ↔ other = connfd ∨ fds.live other = true := by
  rw [tables.live_accept now unused]
  by_cases same : other = connfd
  · simp [same]
  · simp [same]

theorem Tables.accept (tables : fds.Tables) (now : Int) {connfd : Fd}
    (unused : fds.isOpen connfd = false) : (fds.accept now connfd).Tables := by
  have live := tables.live_accept now unused
  have client := (tables.unused unused).1
  rw [tables.accept_eq now unused] at live ⊢
  constructor
  · intro other conn found
    by_cases same : other = connfd
    · subst same
      simp only [Function.update_self] at found
      cases found
      rfl
    · simp only [Function.update_of_ne same] at found
      exact tables.fd_eq found
  · intro other isLive
    rw [live] at isLive
    by_cases same : other = connfd
    · subst same
      exact client
    · rw [Function.update_of_ne same] at isLive
      exact tables.client isLive
  · intro other needed
    rw [live] at needed
    by_cases same : other = connfd
    · subst same
      simp
    · simp only [Function.update_of_ne same] at needed ⊢
      exact tables.isOpen needed
  · intro other registered
    rw [live]
    by_cases same : other = connfd
    · subst same
      simp
    · simp only [Function.update_of_ne same] at registered ⊢
      exact tables.registered registered

/-- A connection whose state has changed. -/
theorem Tables.setConnection (tables : fds.Tables) {fd : Fd} {conn : TcpConnection}
    (isLive : fds.live fd = true) (sameFd : conn.fd = fd) :
    (fds.setConnection fd (some conn)).Tables := by
  have live := live_replaced isLive conn
  constructor
  · intro other otherConn found
    by_cases same : other = fd
    · subst same
      simp only [Descriptors.setConnection, Function.update_self] at found
      cases found
      exact sameFd
    · simp only [Descriptors.setConnection, Function.update_of_ne same] at found
      exact tables.fd_eq found
  · intro other otherLive
    rw [live] at otherLive
    exact tables.client otherLive
  · intro other needed
    rw [live] at needed
    exact tables.isOpen needed
  · intro other registered
    rw [live]
    exact tables.registered registered

theorem rearm_eq (fds : Descriptors) (fd : Fd) :
    fds.rearm fd = { fds with epoll := (fds.rearm fd).epoll } := by
  unfold rearm
  split
  · rfl
  · rfl

theorem rearm_registered (fds : Descriptors) (fd other : Fd) :
    (fds.rearm fd).epoll other ≠ none ↔ fds.epoll other ≠ none := by
  unfold rearm
  cases registered : fds.epoll fd with
  | none => rfl
  | some interest =>
      by_cases same : other = fd
      · subst same
        simp [setInterest, registered]
      · simp [setInterest, same]

theorem addfd_eq (fds : Descriptors) (fd : Fd) (oneShot : Bool) :
    fds.addfd fd oneShot = { fds with epoll := (fds.addfd fd oneShot).epoll } := by
  unfold addfd
  split
  · rfl
  · rfl

theorem registered_of_addfd {fds : Descriptors} {fd other : Fd} {oneShot : Bool}
    (registered : (fds.addfd fd oneShot).epoll other ≠ none) :
    other = fd ∨ fds.epoll other ≠ none := by
  by_cases same : other = fd
  · exact .inl same
  · right
    unfold addfd at registered
    cases known : fds.epoll fd with
    | some interest =>
        rw [known] at registered
        exact registered
    | none =>
        rw [known] at registered
        simpa [setInterest, same] using registered

theorem report_registered (fds : Descriptors) (events : List (Fd × EpollEvents)) (other : Fd) :
    (fds.report events).epoll other ≠ none ↔ fds.epoll other ≠ none := by
  unfold report
  dsimp only
  split
  · simp
  · rfl

/-- Only which descriptors are registered matters to the tables. -/
theorem Tables.of_registered (tables : fds.Tables) {epoll : Fd → Option Interest}
    (registered : ∀ fd, epoll fd ≠ none → fds.epoll fd ≠ none) :
    { fds with epoll := epoll }.Tables where
  fd_eq := tables.fd_eq
  client := tables.client
  isOpen := tables.isOpen
  registered isRegistered := tables.registered (registered _ isRegistered)

theorem Tables.rearm (tables : fds.Tables) (fd : Fd) : (fds.rearm fd).Tables := by
  rw [rearm_eq]
  exact tables.of_registered fun other => (rearm_registered fds fd other).mp

end Descriptors

namespace Reactor

open Descriptors

/-- A reported event belongs to a descriptor that the loop knows. -/
def Expected (fds : Descriptors) (fd : Fd) (flags : EpollEvents) : Prop :=
  fd = fds.serverFd ∨ (fd = fds.pipeRead ∧ flags.epollin = true) ∨ fds.live fd = true

/-- The tables agree with each other and with the timers. -/
structure Agree (t : TimeHeap) (fds : Descriptors) : Prop where
  tables : fds.Tables
  linked : t.Linked fds.Client fds.live fds.lastEvent

/-- What holds between any two steps. -/
structure Consistent (r : Reactor) : Prop where
  agree : Agree r.timerLst r.fds
  nodup : ∀ events, r.batch = some events → (events.map Prod.fst).Nodup
  expected : ∀ events, r.batch = some events → ∀ event ∈ events, Expected r.fds event.1 event.2

/-- What handling one event of `fd` preserves: other connections stay. -/
structure Handled (fd : Fd) (r r' : Reactor) : Prop where
  agree : Agree r'.timerLst r'.fds
  serverFd : r'.fds.serverFd = r.fds.serverFd
  pipeRead : r'.fds.pipeRead = r.fds.pipeRead
  others : ∀ other, other ≠ fd → r.fds.live other = true → r'.fds.live other = true

theorem Handled.trans {fd : Fd} {r₁ r₂ r₃ : Reactor} (first : Handled fd r₁ r₂)
    (second : Handled fd r₂ r₃) : Handled fd r₁ r₃ where
  agree := second.agree
  serverFd := second.serverFd.trans first.serverFd
  pipeRead := second.pipeRead.trans first.pipeRead
  others other different isLive :=
    second.others other different (first.others other different isLive)

variable {r r' : Reactor}

theorem handled_accepted (agree : Agree r.timerLst r.fds) {connfd : Fd} (time : Int)
    (unused : r.fds.isOpen connfd = false) (fd : Fd) :
    Handled fd r (r.accepted connfd time) := by
  have live := agree.tables.live_accept time unused
  have added := agree.linked.accept time (agree.tables.unused unused).1
  have shape := agree.tables.accept_eq time unused
  unfold accepted
  refine ⟨⟨agree.tables.accept time unused, ?_⟩, ?_, ?_, ?_⟩
  · dsimp only
    rw [live, shape]
    exact added
  · simp only [shape]
  · simp only [shape]
  · intro other _ isLive
    dsimp only
    rw [live]
    by_cases same : other = connfd
    · subst same
      exact Function.update_self ..
    · rw [Function.update_of_ne same]
      exact isLive

/-- The rule for the accept loop: what one more connection keeps, all of them
keep.  The descriptors and the times may be known to have a property. -/
theorem acceptLoop_known (known : Fd → Int → Prop) (holds : Reactor → Prop)
    (kept : ∀ r connfd time, known connfd time → Agree r.timerLst r.fds → holds r →
      r.fds.isOpen connfd = false → holds (r.accepted connfd time))
    (agree : Agree r.timerLst r.fds) (initial : holds r) {accepts : List (Fd × Int)}
    (returned : ∀ accepted ∈ accepts, known accepted.1 accepted.2)
    (looped : r.acceptLoop accepts = some r') : holds r' := by
  induction accepts generalizing r with
  | nil =>
      cases looped
      exact initial
  | cons first accepts inductionHypothesis =>
      rcases first with ⟨connfd, time⟩
      rcases Option.bind_eq_some_iff.mp looped with ⟨middle, acceptedFirst, rest⟩
      unfold accept at acceptedFirst
      split at acceptedFirst
      · cases acceptedFirst
      · rename_i notOpen
        cases acceptedFirst
        have unused : r.fds.isOpen connfd = false := Bool.eq_false_iff.mpr notOpen
        have first := kept r connfd time (returned _ List.mem_cons_self) agree initial unused
        exact inductionHypothesis (handled_accepted agree time unused connfd).agree first
          (fun accepted member => returned accepted (List.mem_cons_of_mem _ member)) rest

theorem acceptLoop_invariant (holds : Reactor → Prop)
    (kept : ∀ r connfd time, Agree r.timerLst r.fds → holds r → r.fds.isOpen connfd = false →
      holds (r.accepted connfd time))
    (agree : Agree r.timerLst r.fds) (initial : holds r) {accepts : List (Fd × Int)}
    (looped : r.acceptLoop accepts = some r') : holds r' :=
  acceptLoop_known (fun _ _ => True) holds
    (fun r connfd time _ agree held unused => kept r connfd time agree held unused)
    agree initial (fun _ _ => trivial) looped

theorem handled_acceptLoop {fd : Fd} {accepts : List (Fd × Int)}
    (agree : Agree r.timerLst r.fds) (looped : r.acceptLoop accepts = some r') :
    Handled fd r r' := by
  apply acceptLoop_invariant (Handled fd r) _ agree _ looped
  · intro middle connfd time agree handled unused
    exact handled.trans (handled_accepted agree time unused fd)
  · exact ⟨agree, rfl, rfl, fun _ _ isLive => isLive⟩

theorem signal_eq (r : Reactor) (sig : UInt8) :
    ∃ timeout stopServer,
      r.signal sig = { r with timeout := timeout, stopServer := stopServer } := by
  unfold signal
  split
  · exact ⟨_, _, rfl⟩
  · split
    · exact ⟨_, _, rfl⟩
    · exact ⟨_, _, rfl⟩

theorem signals_eq (r : Reactor) (signals : Bytes) :
    ∃ timeout stopServer, signals.foldl signal r =
      { r with timeout := timeout, stopServer := stopServer } := by
  induction signals generalizing r with
  | nil => exact ⟨_, _, rfl⟩
  | cons sig signals inductionHypothesis =>
      rcases signal_eq r sig with ⟨timeout, stopServer, first⟩
      rcases inductionHypothesis (r.signal sig) with ⟨timeout', stopServer', rest⟩
      exact ⟨timeout', stopServer', rest.trans (by rw [first])⟩

theorem handled_removefd {fd : Fd} {timerLst : TimeHeap} (tables : r.fds.Tables)
    (client : r.fds.Client fd)
    (linked : timerLst.Linked r.fds.Client (Function.update r.fds.live fd false)
      r.fds.lastEvent) :
    Handled fd r { r with timerLst := timerLst, fds := r.fds.removefd fd } := by
  have live := tables.live_removefd fd
  rcases tables.removefd_eq fd with ⟨fdCalls, removed⟩
  refine ⟨⟨tables.removefd client, ?_⟩, ?_, ?_, ?_⟩
  · dsimp only
    rw [live, removed]
    exact linked
  · simp only [removed]
  · simp only [removed]
  · intro other different isLive
    dsimp only
    rw [live, Function.update_of_ne different]
    exact isLive

theorem handled_hangUp {fd : Fd} (agree : Agree r.timerLst r.fds)
    (isLive : r.fds.live fd = true) : Handled fd r (r.hangUp fd) := by
  rcases agree.linked.stored isLive with ⟨timer, stored, -⟩
  unfold hangUp
  rw [stored]
  exact handled_removefd agree.tables (agree.tables.client isLive)
    (agree.linked.del isLive stored)

/-- The timer of the connection is replaced. -/
theorem adjust_eq {fd : Fd} {timer : TimerId}
    (stored : (r.timerLst.user fd).timer = some timer) :
    r.adjust fd =
      { r with
        timerLst := r.timerLst.adjustTimer r.now timer
        fds := { r.fds with lastEvent := Function.update r.fds.lastEvent fd r.now } } := by
  unfold adjust
  rw [stored]

theorem handled_adjust {fd : Fd} (agree : Agree r.timerLst r.fds)
    (isLive : r.fds.live fd = true) : Handled fd r (r.adjust fd) := by
  rcases agree.linked.stored isLive with ⟨timer, stored, -⟩
  rw [adjust_eq stored]
  refine ⟨⟨?_, agree.linked.adjust r.now isLive stored⟩, rfl, rfl, fun _ _ otherLive => otherLive⟩
  exact ⟨agree.tables.fd_eq, agree.tables.client, agree.tables.isOpen, agree.tables.registered⟩

/-- Another state of the connection. -/
theorem handled_setConnection {fd : Fd} {conn : TcpConnection} (agree : Agree r.timerLst r.fds)
    (isLive : r.fds.live fd = true) (sameFd : conn.fd = fd) :
    Handled fd r { r with fds := r.fds.setConnection fd (some conn) } := by
  have live := live_replaced isLive conn
  refine ⟨⟨agree.tables.setConnection isLive sameFd, ?_⟩, rfl, rfl, ?_⟩
  · dsimp only
    rw [live]
    exact agree.linked
  · intro other _ otherLive
    dsimp only
    rw [live]
    exact otherLive

theorem handled_rearm {fd : Fd} (agree : Agree r.timerLst r.fds) :
    Handled fd r { r with fds := r.fds.rearm fd } := by
  have rearmed := agree.tables.rearm fd
  rw [rearm_eq] at rearmed ⊢
  exact ⟨⟨rearmed, agree.linked⟩, rfl, rfl, fun _ _ otherLive => otherLive⟩

theorem settle_connected {conn : TcpConnection} (connected : conn.connected = true) (fd : Fd) :
    r.settle fd conn = { r with fds := (r.fds.setConnection fd (some conn)).rearm fd } := by
  unfold settle
  rw [connected]
  rfl

theorem settle_disconnected {conn : TcpConnection} (ended : conn.connected = false) (fd : Fd) :
    r.settle fd conn = { r with fds := (r.fds.setConnection fd (some conn)).removefd fd } := by
  unfold settle
  rw [ended]
  rfl

theorem handled_settle {fd : Fd} {conn : TcpConnection} (agree : Agree r.timerLst r.fds)
    (isLive : r.fds.live fd = true) (sameFd : conn.fd = fd) :
    Handled fd r (r.settle fd conn) := by
  have set := handled_setConnection agree isLive sameFd
  cases connected : conn.connected with
  | false =>
      have stillLive : (r.fds.setConnection fd (some conn)).live fd = true := by
        simp [live_setConnection]
      rw [settle_disconnected connected]
      exact set.trans (handled_removefd set.agree.tables (set.agree.tables.client stillLive)
        (set.agree.linked.forget fd))
  | true =>
      rw [settle_connected connected]
      exact set.trans (handled_rearm set.agree)

theorem readable_eq {fd : Fd} {conn : TcpConnection} (found : r.fds.connections fd = some conn)
    (results : EventResults) :
    r.readable fd results = (r.adjust fd).settle fd
      (conn.handleRead (TcpConnection.callback results.acts) results.recvs).1 := by
  have kept : (r.adjust fd).fds.connections fd = some conn := found
  unfold readable
  dsimp only
  rw [kept]

theorem writable_eq {fd : Fd} {conn : TcpConnection} (found : r.fds.connections fd = some conn)
    (results : EventResults) :
    r.writable fd results = (r.adjust fd).settle fd (conn.handleWrite results.sent) := by
  have kept : (r.adjust fd).fds.connections fd = some conn := found
  unfold writable
  dsimp only
  rw [kept]

theorem handled_activity {fd : Fd} {conn : TcpConnection} (agree : Agree r.timerLst r.fds)
    (isLive : r.fds.live fd = true) (sameFd : conn.fd = fd) :
    Handled fd r ((r.adjust fd).settle fd conn) := by
  have adjusted := handled_adjust agree isLive
  have stillLive : (r.adjust fd).fds.live fd = true := isLive
  exact adjusted.trans (handled_settle adjusted.agree stillLive sameFd)

/-- Which branch handles an event that the loop expects. -/
inductive Branch (r : Reactor) (fd : Fd) (flags : EpollEvents) (results : EventResults) :
    Reactor → Prop
  | accepts {r' : Reactor} (accepted : r.acceptLoop results.accepts = some r')
      (listener : fd = r.fds.serverFd) : Branch r fd flags results r'
  | signals (pipe : fd = r.fds.pipeRead) :
      Branch r fd flags results (results.signals.foldl signal r)
  | hangUp (isLive : r.fds.live fd = true) (hangsUp : flags.hangsUp = true) :
      Branch r fd flags results (r.hangUp fd)
  | readable {conn : TcpConnection} (found : r.fds.connections fd = some conn)
      (reads : flags.epollin = true) (stays : flags.hangsUp = false) :
      Branch r fd flags results ((r.adjust fd).settle fd
        (conn.handleRead (TcpConnection.callback results.acts) results.recvs).1)
  | writable {conn : TcpConnection} (found : r.fds.connections fd = some conn)
      (writes : flags.epollout = true) :
      Branch r fd flags results ((r.adjust fd).settle fd (conn.handleWrite results.sent))
  | ignored (empty : flags.nonempty = false) : Branch r fd flags results r

theorem branch_of_handleEvent {fd : Fd} {flags : EpollEvents} {results : EventResults}
    (expected : Expected r.fds fd flags) (handled : r.handleEvent fd flags results = some r') :
    Branch r fd flags results r' := by
  unfold handleEvent at handled
  by_cases listener : fd = r.fds.serverFd
  · rw [if_pos listener] at handled
    exact .accepts handled listener
  · rw [if_neg listener] at handled
    by_cases pipe : fd = r.fds.pipeRead ∧ flags.epollin = true
    · rw [if_pos pipe] at handled
      cases handled
      exact .signals pipe.1
    · rw [if_neg pipe] at handled
      have isLive : r.fds.live fd = true :=
        (expected.resolve_left listener).resolve_left pipe
      rcases Option.isSome_iff_exists.mp isLive with ⟨conn, found⟩
      by_cases hangsUp : flags.hangsUp = true
      · rw [if_pos hangsUp] at handled
        cases handled
        exact .hangUp isLive hangsUp
      · rw [if_neg hangsUp] at handled
        by_cases reads : flags.epollin = true
        · rw [if_pos reads] at handled
          cases handled
          rw [readable_eq found]
          exact .readable found reads (Bool.eq_false_iff.mpr hangsUp)
        · rw [if_neg reads] at handled
          by_cases writes : flags.epollout = true
          · rw [if_pos writes] at handled
            cases handled
            rw [writable_eq found]
            exact .writable found writes
          · rw [if_neg writes] at handled
            cases handled
            exact .ignored (by simp [EpollEvents.nonempty, reads, writes, hangsUp])

theorem handled_branch {fd : Fd} {flags : EpollEvents} {results : EventResults}
    (agree : Agree r.timerLst r.fds) (branch : Branch r fd flags results r') :
    Handled fd r r' := by
  cases branch with
  | accepts accepted => exact handled_acceptLoop agree accepted
  | signals =>
      rcases signals_eq r results.signals with ⟨timeout, stopServer, same⟩
      rw [same]
      exact ⟨agree, rfl, rfl, fun _ _ isLive => isLive⟩
  | hangUp isLive => exact handled_hangUp agree isLive
  | @readable conn found reads stays =>
      apply handled_activity agree (live_of_found found)
      rw [TcpConnection.handleRead_fd, agree.tables.fd_eq found]
  | @writable conn found writes =>
      apply handled_activity agree (live_of_found found)
      rw [TcpConnection.handleWrite_fd, agree.tables.fd_eq found]
  | ignored => exact ⟨agree, rfl, rfl, fun _ _ isLive => isLive⟩

/-! ## Ticks -/

/-- The record of a kick by a timer of the heap. -/
def kickOf (cur : Int) (t : TimeHeap) (timer : TimerId) (fds : Descriptors) : Kick where
  timer := timer
  fd := (t.timers timer).userData
  cur := cur
  present := fds.live (t.timers timer).userData
  stored := (t.user (t.timers timer).userData).timer
  lastEvent := fds.lastEvent (t.timers timer).userData

section Tick

variable {t : TimeHeap} {fds : Descriptors} {root : TimerId}

/-- A timer kicks the descriptor that it was made for. -/
theorem Agree.cbFunc_eq (agree : Agree t fds) (member : some root ∈ t.entries) (cur : Int) :
    cbFunc cur t root fds =
      { fds with kicks := fds.kicks ++ [kickOf cur t root fds] }.removefd
        (t.timers root).userData := by
  unfold cbFunc kickOf
  rw [(agree.linked.user member).2]

theorem Agree.record (agree : Agree t fds) (kick : Kick) :
    { fds with kicks := fds.kicks ++ [kick] }.Tables :=
  ⟨agree.tables.fd_eq, agree.tables.client, agree.tables.isOpen, agree.tables.registered⟩

/-- What one kick does to the tables. -/
theorem Agree.kicked_eq (agree : Agree t fds) (member : some root ∈ t.entries) (cur : Int) :
    ∃ fdCalls, cbFunc cur t root fds =
      { fds with
        isOpen := Function.update fds.isOpen (t.timers root).userData false
        epoll := Function.update fds.epoll (t.timers root).userData none
        connections := Function.update fds.connections (t.timers root).userData none
        kicks := fds.kicks ++ [kickOf cur t root fds]
        fdCalls := fdCalls } := by
  rw [agree.cbFunc_eq member]
  exact (agree.record _).removefd_eq _

theorem Agree.live_kicked (agree : Agree t fds) (member : some root ∈ t.entries) (cur : Int) :
    (cbFunc cur t root fds).live = Function.update fds.live (t.timers root).userData false := by
  rw [agree.cbFunc_eq member]
  exact (agree.record _).live_removefd _

theorem Agree.kick (agree : Agree t fds) (many : t.curSize ≠ 0) (atRoot : t.array 0 = some root)
    (cur : Int) : Agree t.popTimer (cbFunc cur t root fds) := by
  have member := TimeHeap.root_mem_entries many atRoot
  constructor
  · rw [agree.cbFunc_eq member]
    exact (agree.record _).removefd (agree.linked.user member).1
  · rw [agree.live_kicked member]
    rcases agree.kicked_eq member cur with ⟨fdCalls, kicked⟩
    rw [kicked]
    exact agree.linked.fire many atRoot

/-- The rule for ticks: what kicks and dropped timers keep, a tick keeps. -/
theorem Agree.tick_invariant (cur : Int) (holds : TimeHeap → Descriptors → Prop)
    (kicks : ∀ t fds root, Agree t fds → holds t fds → t.curSize ≠ 0 → t.array 0 = some root →
      t.expire root ≤ cur → (t.timers root).cbFunc = true →
        holds t.popTimer (cbFunc cur t root fds))
    (drops : ∀ t fds root, Agree t fds → holds t fds → t.curSize ≠ 0 → t.array 0 = some root →
      (t.timers root).cbFunc = false → holds t.popTimer fds)
    (agree : Agree t fds) (initial : holds t fds) :
    Agree (t.tick (cbFunc cur) cur fds).1 (t.tick (cbFunc cur) cur fds).2 ∧
      holds (t.tick (cbFunc cur) cur fds).1 (t.tick (cbFunc cur) cur fds).2 := by
  apply TimeHeap.tick_invariant (fun t fds => Agree t fds ∧ holds t fds) _ _ ⟨agree, initial⟩
  · rintro t fds root ⟨agree, held⟩ many atRoot expired active
    exact ⟨agree.kick many atRoot cur, kicks t fds root agree held many atRoot expired active⟩
  · rintro t fds root ⟨agree, held⟩ many atRoot retired
    exact ⟨⟨agree.tables, agree.linked.drop many atRoot retired⟩,
      drops t fds root agree held many atRoot retired⟩

/-- A tick keeps the tables and the timers of the connections that are left. -/
theorem Agree.tick (agree : Agree t fds) (cur : Int) :
    Agree (t.tick (cbFunc cur) cur fds).1 (t.tick (cbFunc cur) cur fds).2 := by
  have both := agree.tick_invariant cur (fun _ _ => True) (by intros; trivial)
    (by intros; trivial) trivial
  exact both.1

end Tick

/-! ## Runs -/

theorem start_connections (serverFd pipeRead : Fd) (inUse : Fd → Bool) :
    (start serverFd pipeRead inUse).fds.connections = fun _ => none := by
  unfold start
  rw [addfd_eq _ pipeRead, addfd_eq _ serverFd]
  rfl

theorem start_live (serverFd pipeRead : Fd) (inUse : Fd → Bool) (fd : Fd) :
    (start serverFd pipeRead inUse).fds.live fd = false := by
  unfold live
  rw [start_connections]
  rfl

theorem start_fdCalls (serverFd pipeRead : Fd) (inUse : Fd → Bool) :
    (start serverFd pipeRead inUse).fds.fdCalls = [] := by
  unfold start
  rw [addfd_eq _ pipeRead, addfd_eq _ serverFd]
  rfl

theorem start_kicks (serverFd pipeRead : Fd) (inUse : Fd → Bool) :
    (start serverFd pipeRead inUse).fds.kicks = [] := by
  unfold start
  rw [addfd_eq _ pipeRead, addfd_eq _ serverFd]
  rfl

/-- At the call of `epoll_wait` no event is left. -/
theorem Consistent.of_idle (agree : Agree r.timerLst r.fds) (idle : r.batch = none) :
    r.Consistent := by
  refine ⟨agree, ?_, ?_⟩
  · intro events pending
    rw [idle] at pending
    cases pending
  · intro events pending
    rw [idle] at pending
    cases pending

theorem consistent_start (serverFd pipeRead : Fd) (inUse : Fd → Bool) :
    (start serverFd pipeRead inUse).Consistent := by
  apply Consistent.of_idle _ rfl
  unfold start
  dsimp only
  rw [addfd_eq _ pipeRead, addfd_eq _ serverFd]
  refine ⟨⟨?_, ?_, ?_, ?_⟩, TimeHeap.linked_new ..⟩
  · intro fd conn found
    cases found
  · intro fd isLive
    cases isLive
  · intro fd needed
    rcases needed with listener | isLive
    · have known : fd = serverFd ∨ fd = pipeRead := by
        by_contra neither
        exact listener (not_or.mp neither)
      rcases known with rfl | rfl
      · simp [Descriptors.new]
      · simp [Descriptors.new]
    · cases isLive
  · intro fd registered
    left
    rintro ⟨notServer, notPipe⟩
    rcases registered_of_addfd registered with pipe | registered
    · exact notPipe pipe
    · rw [← addfd_eq] at registered
      rcases registered_of_addfd registered with server | registered
      · exact notServer server
      · exact registered rfl

theorem Consistent.handle (consistent : r.Consistent) {fd : Fd} {flags : EpollEvents}
    {rest : List (Fd × EpollEvents)} (pending : r.batch = some ((fd, flags) :: rest))
    (handled : Handled fd r r') : Consistent { r' with batch := some rest } := by
  have nodup := consistent.nodup _ pending
  rw [List.map_cons, List.nodup_cons] at nodup
  refine ⟨handled.agree, ?_, ?_⟩
  · intro events same
    cases same
    exact nodup.2
  · intro events same event member
    cases same
    have different : event.1 ≠ fd := by
      intro same
      exact nodup.1 (List.mem_map.mpr ⟨event, member, same⟩)
    rcases consistent.expected _ pending event (List.mem_cons_of_mem _ member) with
      listener | ⟨pipe, reads⟩ | isLive
    · exact .inl (listener.trans handled.serverFd.symm)
    · exact .inr (.inl ⟨pipe.trans handled.pipeRead.symm, reads⟩)
    · exact .inr (.inr (handled.others _ different isLive))

theorem Consistent.wait (consistent : r.Consistent) {events : List (Fd × EpollEvents)}
    (reports : r.fds.Reports events) :
    Consistent { r with fds := r.fds.report events, batch := some events } := by
  have tables : (r.fds.report events).Tables :=
    consistent.agree.tables.of_registered fun fd => (report_registered r.fds events fd).mp
  refine ⟨⟨tables, consistent.agree.linked⟩, ?_, ?_⟩
  · intro others same
    cases same
    exact reports.2.1
  · intro others same event member
    cases same
    rcases reports.2.2 event member with ⟨⟨interest, registered, -⟩, pipeFlags, -⟩
    by_cases listener : event.1 = r.fds.serverFd
    · exact .inl listener
    · by_cases pipe : event.1 = r.fds.pipeRead
      · rw [pipeFlags pipe]
        exact .inr (.inl ⟨pipe, rfl⟩)
      · have isRegistered : r.fds.epoll event.1 ≠ none := by
          rw [registered]
          exact Option.some_ne_none _
        have known := consistent.agree.tables.registered isRegistered
        exact .inr (.inr (known.resolve_left fun no => no ⟨listener, pipe⟩))

theorem Consistent.send (consistent : r.Consistent) {fd : Fd} {msg : Bytes} {ret : SendRet}
    (sent : r.send fd msg ret = some r') : r'.Consistent := by
  rcases Option.map_eq_some_iff.mp sent with ⟨conn, found, rfl⟩
  have isLive := live_of_found found
  have live := live_replaced isLive (conn.send msg ret)
  have sameFd : (conn.send msg ret).fd = fd := by
    rw [TcpConnection.send_fd, consistent.agree.tables.fd_eq found]
  refine ⟨(handled_setConnection consistent.agree isLive sameFd).agree, consistent.nodup, ?_⟩
  intro events pending event member
  unfold Expected
  dsimp only
  rw [live]
  exact consistent.expected events pending event member

theorem Consistent.finish (consistent : r.Consistent) : r.finish.Consistent := by
  unfold Reactor.finish
  split
  · exact .of_idle (consistent.agree.tick r.now) rfl
  · exact .of_idle consistent.agree rfl

/-- The effect of one step between consistent states. -/
inductive Stepped (r : Reactor) : ReactorAction → Reactor → Prop
  | waited {events : List (Fd × EpollEvents)} (idle : r.batch = none)
      (reports : r.fds.Reports events) :
      Stepped r (.wait events) { r with fds := r.fds.report events, batch := some events }
  | handled {fd : Fd} {flags : EpollEvents} {results : EventResults}
      {rest : List (Fd × EpollEvents)} {r' : Reactor}
      (pending : r.batch = some ((fd, flags) :: rest)) (branch : Branch r fd flags results r') :
      Stepped r (.handle results) { r' with batch := some rest }
  | finished (done : r.batch = some []) : Stepped r .finish r.finish
  | clock (time : Int) : Stepped r (.clock time) { r with now := time }
  | sent {fd : Fd} {msg : Bytes} {ret : SendRet} {r' : Reactor}
      (sent : r.send fd msg ret = some r') : Stepped r (.send fd msg ret) r'

theorem stepped_of_next (consistent : r.Consistent) {action : ReactorAction}
    (step : r.next action = some r') : Stepped r action r' := by
  cases action with
  | wait events =>
      unfold next at step
      dsimp only at step
      split at step
      · rename_i enabled
        cases step
        exact .waited enabled.1 enabled.2.2
      · cases step
  | handle results =>
      cases pending : r.batch with
      | none => simp [next, pending] at step
      | some events =>
          cases events with
          | nil => simp [next, pending] at step
          | cons event rest =>
              rcases event with ⟨fd, flags⟩
              simp only [next, pending] at step
              rcases Option.map_eq_some_iff.mp step with ⟨after, handled, rfl⟩
              have expected := consistent.expected _ pending _ List.mem_cons_self
              exact .handled pending (branch_of_handleEvent expected handled)
  | finish =>
      cases pending : r.batch with
      | none => simp [next, pending] at step
      | some events =>
          cases events with
          | nil =>
              simp only [next, pending] at step
              cases step
              exact .finished pending
          | cons event rest => simp [next, pending] at step
  | clock time =>
      cases step
      exact .clock time
  | send fd msg ret =>
      cases pending : r.batch with
      | none => simp [next, pending] at step
      | some events =>
          simp only [next, pending] at step
          exact .sent step

/-- Every step keeps the loop consistent. -/
theorem Consistent.of_stepped (consistent : r.Consistent) {action : ReactorAction}
    (stepped : Stepped r action r') : r'.Consistent := by
  cases stepped with
  | waited idle reports => exact consistent.wait reports
  | handled pending branch =>
      exact consistent.handle pending (handled_branch consistent.agree branch)
  | finished done => exact consistent.finish
  | clock time =>
      exact ⟨consistent.agree, consistent.nodup, consistent.expected⟩
  | sent sent => exact consistent.send sent

theorem consistent_of_reachable {allowed : Reactor → ReactorAction → Prop} {serverFd pipeRead : Fd}
    {inUse : Fd → Bool} (reached : Reachable next allowed (start serverFd pipeRead inUse) r) :
    r.Consistent := by
  apply reached.invariant (consistent_start serverFd pipeRead inUse)
  intro state action successor consistent _ step
  exact consistent.of_stepped (stepped_of_next consistent step)

/-- The rule for runs: what every allowed step keeps between reachable states
holds of all of them. -/
theorem invariant_of_stepped {allowed : Reactor → ReactorAction → Prop} {serverFd pipeRead : Fd}
    {inUse : Fd → Bool} (holds : Reactor → Prop) (initial : holds (start serverFd pipeRead inUse))
    (kept : ∀ r action r', Reachable next allowed (start serverFd pipeRead inUse) r →
      r.Consistent → holds r → allowed r action → Stepped r action r' → holds r')
    (reached : Reachable next allowed (start serverFd pipeRead inUse) r) : holds r := by
  apply @Reachable.invariant_of _ _ next allowed _ _
    (Reachable next allowed (start serverFd pipeRead inUse)) holds (fun _ before => before)
    initial _ reached
  intro state action successor before held allowedStep step
  have consistent := consistent_of_reachable before
  exact kept state action successor before consistent held allowedStep
    (stepped_of_next consistent step)

/-! ## What holds of every connection -/

/-- The event that an action handles, with its results. -/
def handling (r : Reactor) : ReactorAction → Option ((Fd × EpollEvents) × EventResults)
  | .handle results => (r.batch.bind List.head?).map fun event => (event, results)
  | _ => none

/-- A readable event of a connection that does not hang up. -/
def ReadsConnection (r : Reactor) (event : Fd × EpollEvents) : Prop :=
  r.fds.live event.1 = true ∧ event.2.epollin = true ∧ event.2.hangsUp = false

instance (r : Reactor) (event : Fd × EpollEvents) : Decidable (r.ReadsConnection event) :=
  inferInstanceAs (Decidable (_ ∧ _ ∧ _))

/-- Every entry of `m_connections` has a property. -/
def Each (holds : TcpConnection → Prop) (fds : Descriptors) : Prop :=
  ∀ fd conn, fds.connections fd = some conn → holds conn

section Each

variable {holds : TcpConnection → Prop}

theorem Each.removefd {fds : Descriptors} (each : Each holds fds) (tables : fds.Tables)
    (fd : Fd) : Each holds (fds.removefd fd) := by
  rcases tables.removefd_eq fd with ⟨fdCalls, removed⟩
  rw [removed]
  refine forall_of_update each fd none rfl ?_
  intro conn none
  cases none

theorem Each.acceptLoop {accepts : List (Fd × Int)} (each : Each holds r.fds)
    (fresh : ∀ fd, holds (.new fd)) (agree : Agree r.timerLst r.fds)
    (looped : r.acceptLoop accepts = some r') : Each holds r'.fds := by
  apply acceptLoop_invariant (fun r => Each holds r.fds) _ agree each looped
  intro r connfd time agree each unused
  unfold accepted
  rw [agree.tables.accept_eq time unused]
  refine forall_of_update each connfd (some (.new connfd)) rfl ?_
  intro conn same
  cases same
  exact fresh connfd

/-- A connection that is not connected any more is not put back. -/
theorem Each.settle {fd : Fd} {conn : TcpConnection} (each : Each holds r.fds)
    (agree : Agree r.timerLst r.fds) (isLive : r.fds.live fd = true) (sameFd : conn.fd = fd)
    (kept : conn.connected = true → holds conn) : Each holds (r.settle fd conn).fds := by
  cases connected : conn.connected with
  | true =>
      rw [settle_connected connected, rearm_eq]
      refine forall_of_update each fd (some conn) rfl ?_
      intro other same
      cases same
      exact kept connected
  | false =>
      have set := agree.tables.setConnection isLive sameFd
      rcases set.removefd_eq fd with ⟨fdCalls, removed⟩
      rw [settle_disconnected connected, removed]
      refine forall_of_update each fd none (Function.update_idem ..) ?_
      intro other none
      cases none

theorem Each.tick {t : TimeHeap} {fds : Descriptors} (each : Each holds fds)
    (agree : Agree t fds) (cur : Int) : Each holds (t.tick (cbFunc cur) cur fds).2 := by
  apply (agree.tick_invariant cur (fun _ fds => Each holds fds) _ _ each).2
  · intro t fds root agree each many atRoot _ _
    rcases agree.kicked_eq (TimeHeap.root_mem_entries many atRoot) cur with ⟨fdCalls, kicked⟩
    rw [kicked]
    refine forall_of_update each (t.timers root).userData none rfl ?_
    intro conn none
    cases none
  · intro t fds root _ each _ _ _
    exact each

/-- What a property has to survive so that it holds of every connection. -/
structure Survives (holds : TcpConnection → Prop) (r : Reactor) (action : ReactorAction) :
    Prop where
  fresh : ∀ fd, holds (.new fd)
  reads : ∀ {event results conn}, r.handling action = some (event, results) →
    r.ReadsConnection event → holds conn →
      (conn.handleRead (TcpConnection.callback results.acts) results.recvs).1.connected = true →
        holds (conn.handleRead (TcpConnection.callback results.acts) results.recvs).1
  writes : ∀ {conn} (ret : SendRet), holds conn → holds (conn.handleWrite ret)
  sends : ∀ {fd msg ret conn}, action = .send fd msg ret → holds conn →
    holds (conn.send msg ret)

theorem Each.of_stepped (each : Each holds r.fds) (consistent : r.Consistent)
    {action : ReactorAction} (survives : Survives holds r action)
    (stepped : Stepped r action r') : Each holds r'.fds := by
  cases stepped with
  | waited idle reports => exact each
  | @handled fd flags results rest after pending branch =>
      have current : r.handling (.handle results) = some ((fd, flags), results) := by
        simp [handling, pending]
      have agree := consistent.agree
      have handled : Each holds after.fds := by
        cases branch with
        | accepts accepted => exact each.acceptLoop survives.fresh agree accepted
        | signals =>
            rcases signals_eq r results.signals with ⟨timeout, stopServer, same⟩
            rw [same]
            exact each
        | hangUp isLive => exact each.removefd agree.tables fd
        | @readable conn found reads stays =>
            have isLive := live_of_found found
            have adjusted : Each holds (r.adjust fd).fds := each
            apply adjusted.settle (handled_adjust agree isLive).agree isLive
            · rw [TcpConnection.handleRead_fd, agree.tables.fd_eq found]
            · exact survives.reads current ⟨isLive, reads, stays⟩ (each fd conn found)
        | @writable conn found writes =>
            have isLive := live_of_found found
            have adjusted : Each holds (r.adjust fd).fds := each
            apply adjusted.settle (handled_adjust agree isLive).agree isLive
            · rw [TcpConnection.handleWrite_fd, agree.tables.fd_eq found]
            · exact fun _ => survives.writes results.sent (each fd conn found)
        | ignored => exact each
      exact handled
  | finished done =>
      unfold Reactor.finish
      split
      · exact each.tick consistent.agree r.now
      · exact each
  | clock time => exact each
  | @sent fd msg ret after sent =>
      rcases Option.map_eq_some_iff.mp sent with ⟨conn, found, rfl⟩
      refine forall_of_update each fd (some (conn.send msg ret)) rfl ?_
      intro other same
      cases same
      exact survives.sends rfl (each fd conn found)

theorem each_of_reachable {allowed : Reactor → ReactorAction → Prop} {serverFd pipeRead : Fd}
    {inUse : Fd → Bool} (survives : ∀ r action, allowed r action → Survives holds r action)
    (reached : Reachable next allowed (start serverFd pipeRead inUse) r) : Each holds r.fds := by
  apply invariant_of_stepped (fun r => Each holds r.fds) _ _ reached
  · intro fd conn found
    rw [start_connections] at found
    cases found
  · intro state action successor _ consistent each allowedStep stepped
    exact each.of_stepped consistent (survives state action allowedStep) stepped

end Each

/-- Every entry of `m_connections` is in state `kConnected`. -/
theorem connected_of_reachable {allowed : Reactor → ReactorAction → Prop} {serverFd pipeRead : Fd}
    {inUse : Fd → Bool} (reached : Reachable next allowed (start serverFd pipeRead inUse) r) :
    Each (fun conn => conn.connected = true) r.fds := by
  refine each_of_reachable ?_ reached
  intro r action _
  refine ⟨fun fd => rfl, fun _ _ _ connected => connected, ?_, ?_⟩
  · intro conn ret connected
    rw [TcpConnection.handleWrite_connected]
    exact connected
  · intro fd msg ret conn _ connected
    rw [TcpConnection.connected, TcpConnection.send_state]
    exact connected

end Reactor

end Mprpc.Net
