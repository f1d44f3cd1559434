import Mprpc.Net.Lifecycle
import Mprpc.Transition.EdgeSource

/-!
# The listening socket and the signal pipe

Both are registered with `EPOLLET` and without `EPOLLONESHOT`, so the loop has to
empty them whenever they are reported.  The accept loop goes on until `accept`
fails, for whatever reason, and the signal pipe is read once, into 1024 bytes.

The loop is the one of `TcpServer::Start`, with the queue of each descriptor beside
it.  Connections and signals come at any time, also between two calls of `accept`.
-/

namespace Mprpc.Net

open Mprpc.Transition

/-- The peer has given up a connection that was in the queue. -/
def ECONNABORTED : Errno := 103

/-- The process has no descriptor left. -/
def EMFILE : Errno := 24

/-- The loop with the listen queue and the bytes in `pipefd`.  `accepted` is what
the accept loop under way has returned so far. -/
structure EdgeLoop where
  reactor : Reactor
  listen : EdgeSource Nat
  pipe : EdgeSource UInt8
  accepted : List (Fd × Int) := []

/-- A step of the loop or of its environment. -/
inductive EdgeAction
  /-- a connection is established -/
  | connect (client : Nat)
  /-- a signal handler writes its byte -/
  | signal (sig : UInt8)
  | wait (events : List (Fd × EpollEvents))
  /-- `accept` returns a descriptor -/
  | accept (connfd : Fd) (time : Int)
  /-- `accept` fails, which ends the accept loop -/
  | acceptError (errno : Errno)
  /-- the `recv` on the signal pipe, which may fail -/
  | recvSignals (fails : Bool)
  /-- the handling of an event of a connection -/
  | handle (results : EventResults)
  | finish
  | clock (time : Int)
  | send (fd : Fd) (msg : Bytes) (ret : SendRet)

namespace Reactor

/-- The descriptors whose reported events are left to be handled. -/
def due (r : Reactor) : List Fd :=
  match r.batch with
  | some events => events.map Prod.fst
  | none => []

/-- The loop handles an event of this descriptor next. -/
def Next (r : Reactor) (fd : Fd) : Prop :=
  r.due.head? = some fd

instance (r : Reactor) (fd : Fd) : Decidable (r.Next fd) :=
  inferInstanceAs (Decidable (r.due.head? = some fd))

end Reactor

namespace EdgeLoop

/-- The loop before its first `epoll_wait`; connections may have been established
since the `listen`. -/
def start (serverFd pipeRead : Fd) (inUse : Fd → Bool) (backlog : List Nat) : EdgeLoop where
  reactor := .start serverFd pipeRead inUse
  listen := .register backlog
  pipe := .register []

/-- What is reported is reported once. -/
def reportIf {β : Type} (source : EdgeSource β) (reported : Bool) : EdgeSource β :=
  if reported then source.report else source

/-- A step of the loop that leaves the two queues alone. -/
def loop (s : EdgeLoop) (action : ReactorAction) : Option EdgeLoop :=
  (s.reactor.next action).map fun reactor => { s with reactor := reactor }

/-- The number of connections that a failing `accept` takes out of the queue. -/
def aborted (errno : Errno) : Nat :=
  if errno = ECONNABORTED then 1 else 0

/-- The number of bytes that a `recv` of signals takes out of the pipe. -/
def taken (fails : Bool) : Nat :=
  if fails then 0 else 1024

def next (s : EdgeLoop) : EdgeAction → Option EdgeLoop
  | .connect client => some { s with listen := s.listen.arrive client }
  | .signal sig => some { s with pipe := s.pipe.arrive sig }
  | .wait events =>
      let server := decide (s.reactor.fds.serverFd ∈ events.map Prod.fst)
      let signals := decide (s.reactor.fds.pipeRead ∈ events.map Prod.fst)
      if (server = true → s.listen.edge = true) ∧ (signals = true → s.pipe.edge = true) then
        { s with
          listen := reportIf s.listen server
          pipe := reportIf s.pipe signals }.loop (.wait events)
      else none
  | .accept connfd time =>
      if s.reactor.Next s.reactor.fds.serverFd ∧ s.listen.pending ≠ [] then
        some { s with listen := s.listen.take 1, accepted := s.accepted ++ [(connfd, time)] }
      else none
  | .acceptError errno =>
      if s.reactor.Next s.reactor.fds.serverFd ∧
          (errno = EAGAIN → s.listen.pending = []) ∧
          (errno = ECONNABORTED → s.listen.pending ≠ []) then
        { s with listen := s.listen.take (aborted errno), accepted := [] }.loop
          (.handle { accepts := s.accepted })
      else none
  | .recvSignals fails =>
      if s.reactor.Next s.reactor.fds.pipeRead then
        { s with pipe := s.pipe.take (taken fails) }.loop
          (.handle { signals := s.pipe.pending.take (taken fails) })
      else none
  | .handle results =>
      if s.reactor.Next s.reactor.fds.serverFd ∨ s.reactor.Next s.reactor.fds.pipeRead then none
      else s.loop (.handle results)
  | .finish => s.loop .finish
  | .clock time => s.loop (.clock time)
  | .send fd msg ret => s.loop (.send fd msg ret)

/-- The calls leave nothing behind.  An `accept` that fails with another error than
`EAGAIN` finds no connection in the queue but one that it takes out itself, and a
`recv` finds no more signals than it takes, unless something has come since the
report. -/
def Drains (s : EdgeLoop) : EdgeAction → Prop
  | .acceptError errno =>
      errno = EAGAIN ∨ s.listen.edge = true ∨ s.listen.pending.length ≤ aborted errno
  | .recvSignals fails => s.pipe.edge = true ∨ s.pipe.pending.length ≤ taken fails
  | _ => True

instance (s : EdgeLoop) : (action : EdgeAction) → Decidable (s.Drains action)
  | .acceptError errno => inferInstanceAs (Decidable (errno = EAGAIN ∨ _ ∨ _))
  | .recvSignals fails => inferInstanceAs (Decidable (_ ∨ s.pipe.pending.length ≤ taken fails))
  | .connect _ => isTrue trivial
  | .signal _ => isTrue trivial
  | .wait _ => isTrue trivial
  | .accept _ _ => isTrue trivial
  | .handle _ => isTrue trivial
  | .finish => isTrue trivial
  | .clock _ => isTrue trivial
  | .send _ _ _ => isTrue trivial

end EdgeLoop

/-! ## What is due -/

namespace Reactor

variable {r r' : Reactor}

theorem due_of_handle {results : EventResults} (step : r.next (.handle results) = some r') :
    ∃ fd, r.due = fd :: r'.due := by
  unfold next at step
  dsimp only at step
  split at step
  · rename_i fd flags rest pending
    rcases Option.map_eq_some_iff.mp step with ⟨handled, -, rfl⟩
    exact ⟨fd, by rw [due, pending]; rfl⟩
  · cases step

/-- One event at most is handled next. -/
theorem Next.unique {first second : Fd} (one : r.Next first) (other : r.Next second) :
    first = second :=
  Option.some.inj (one.symm.trans other)

/-- Handling an event takes no other one out of what is due. -/
theorem mem_due_of_handle {results : EventResults} (step : r.next (.handle results) = some r')
    {fd : Fd} (later : ¬ r.Next fd) (isDue : fd ∈ r.due) : fd ∈ r'.due := by
  rcases due_of_handle step with ⟨first, due⟩
  rw [due] at isDue
  rcases List.mem_cons.mp isDue with same | rest
  · rw [Next, due, same] at later
    exact absurd rfl later
  · exact rest

theorem due_of_wait {events : List (Fd × EpollEvents)} (step : r.next (.wait events) = some r') :
    r.due = [] ∧ r'.due = events.map Prod.fst := by
  unfold next at step
  dsimp only at step
  split at step
  · rename_i enabled
    cases step
    exact ⟨by rw [due, enabled.1], rfl⟩
  · cases step

theorem due_of_finish (step : r.next .finish = some r') : r.due = [] ∧ r'.due = [] := by
  have idle : r.finish.batch = none := by
    unfold finish
    split
    · rfl
    · rfl
  unfold next at step
  dsimp only at step
  split at step
  · rename_i pending
    cases step
    exact ⟨by rw [due, pending]; rfl, by rw [due, idle]⟩
  · cases step

theorem due_of_send {fd : Fd} {msg : Bytes} {ret : SendRet}
    (step : r.next (.send fd msg ret) = some r') : r'.due = r.due := by
  unfold next at step
  dsimp only at step
  split at step
  · rcases Option.map_eq_some_iff.mp step with ⟨conn, -, rfl⟩
    rfl
  · cases step

/-- The two descriptors stay what they are. -/
theorem listeners_of_reachable {allowed : Reactor → ReactorAction → Prop} {serverFd pipeRead : Fd}
    {inUse : Fd → Bool} (reached : Reachable next allowed (start serverFd pipeRead inUse) r) :
    r.fds.serverFd = serverFd ∧ r.fds.pipeRead = pipeRead := by
  have rule : Descriptors.Lifecycle (fun _ => True) fun fds =>
      fds.serverFd = serverFd ∧ fds.pipeRead = pipeRead := by
    constructor
    · intro fds same tables now connfd _ unused
      rw [tables.accept_eq now unused]
      exact same
    · intro fds same tables fd
      rcases tables.removefd_eq fd with ⟨fdCalls, removed⟩
      rw [removed]
      exact same
    · intro fds fds' same live calls server pipe
      exact ⟨server.trans same.1, pipe.trans same.2⟩
  refine lifecycle_of_reachable rule (fun _ => accepts_true _) ?_ reached
  unfold start
  dsimp only
  rw [Descriptors.addfd_eq _ pipeRead, Descriptors.addfd_eq _ serverFd]
  exact ⟨rfl, rfl⟩

end Reactor

namespace EdgeLoop

variable {s t : EdgeLoop} {serverFd pipeRead : Fd}

/-- The loop under a run of this model is a run of the loop, and both sources are
attended. -/
structure Attending (serverFd pipeRead : Fd) (inUse : Fd → Bool) (s : EdgeLoop) : Prop where
  loop : Reachable Reactor.next Unrestricted (.start serverFd pipeRead inUse) s.reactor
  listen : s.listen.Attended (serverFd ∈ s.reactor.due)
  pipe : s.pipe.Attended (pipeRead ∈ s.reactor.due)

theorem attended_reportIf {β : Type} {source : EdgeSource β} {reported : Bool} {due due' : Prop}
    (attended : source.Attended due) (notDue : ¬ due) (reports : reported = true → due') :
    (reportIf source reported).Attended due' := by
  cases reported with
  | false => exact .inl (attended.settled notDue)
  | true => exact .inr (reports rfl)

theorem exists_of_loop {action : ReactorAction} (step : s.loop action = some t) :
    ∃ reactor, s.reactor.next action = some reactor ∧ t = { s with reactor := reactor } := by
  rcases Option.map_eq_some_iff.mp step with ⟨reactor, moved, same⟩
  exact ⟨reactor, moved, same.symm⟩

/-- A step that handles no event of the two descriptors. -/
theorem Attending.loop_step {inUse : Fd → Bool} (attending : Attending serverFd pipeRead inUse s)
    {action : ReactorAction} (step : s.loop action = some t)
    (due : ∀ reactor, s.reactor.next action = some reactor →
      (serverFd ∈ s.reactor.due → serverFd ∈ reactor.due) ∧
        (pipeRead ∈ s.reactor.due → pipeRead ∈ reactor.due)) :
    Attending serverFd pipeRead inUse t := by
  rcases exists_of_loop step with ⟨reactor, moved, rfl⟩
  rcases due reactor moved with ⟨server, signals⟩
  exact ⟨.tail attending.loop trivial moved, attending.listen.mono server,
    attending.pipe.mono signals⟩

theorem Attending.of_next (distinct : serverFd ≠ pipeRead) {inUse : Fd → Bool}
    (attending : Attending serverFd pipeRead inUse s) {action : EdgeAction}
    (allowed : s.Drains action) (step : s.next action = some t) :
    Attending serverFd pipeRead inUse t := by
  rcases Reactor.listeners_of_reachable attending.loop with ⟨server, signals⟩
  cases action with
  | connect client =>
      cases step
      exact ⟨attending.loop, EdgeSource.attended_arrive _ _ _, attending.pipe⟩
  | signal sig =>
      cases step
      exact ⟨attending.loop, attending.listen, EdgeSource.attended_arrive _ _ _⟩
  | wait events =>
      simp only [next] at step
      split at step
      · rcases exists_of_loop step with ⟨reactor, moved, rfl⟩
        rcases Reactor.due_of_wait moved with ⟨before, after⟩
        have nothing : ∀ fd, fd ∉ s.reactor.due := by
          intro fd
          rw [before]
          exact List.not_mem_nil
        refine ⟨.tail attending.loop trivial moved, ?_, ?_⟩
        · refine attended_reportIf attending.listen (nothing serverFd) ?_
          rw [decide_eq_true_eq, server]
          dsimp only
          rw [after]
          exact id
        · refine attended_reportIf attending.pipe (nothing pipeRead) ?_
          rw [decide_eq_true_eq, signals]
          dsimp only
          rw [after]
          exact id
      · cases step
  | accept connfd time =>
      simp only [next] at step
      split at step
      · cases step
        exact ⟨attending.loop, attending.listen.take 1, attending.pipe⟩
      · cases step
  | acceptError errno =>
      simp only [next] at step
      split at step
      · rename_i enabled
        rcases enabled with ⟨handles, again, -⟩
        rcases exists_of_loop step with ⟨reactor, moved, rfl⟩
        have later : ¬ s.reactor.Next pipeRead := fun isNext =>
          distinct (server.symm.trans (handles.unique isNext))
        refine ⟨.tail attending.loop trivial moved, .inl (EdgeSource.settled_take ?_),
          attending.pipe.mono (Reactor.mem_due_of_handle moved later)⟩
        rcases allowed with isAgain | edge | few
        · right
          rw [again isAgain]
          exact Nat.zero_le _
        · exact .inl edge
        · exact .inr few
      · cases step
  | recvSignals fails =>
      simp only [next] at step
      split at step
      · rename_i handles
        rcases exists_of_loop step with ⟨reactor, moved, rfl⟩
        have later : ¬ s.reactor.Next serverFd := fun isNext =>
          distinct (isNext.unique (signals ▸ handles))
        exact ⟨.tail attending.loop trivial moved,
          attending.listen.mono (Reactor.mem_due_of_handle moved later),
          .inl (EdgeSource.settled_take allowed)⟩
      · cases step
  | handle results =>
      simp only [next] at step
      split at step
      · cases step
      · rename_i others
        rw [server, signals] at others
        refine attending.loop_step step fun reactor moved => ?_
        exact ⟨Reactor.mem_due_of_handle moved fun handles => others (.inl handles),
          Reactor.mem_due_of_handle moved fun handles => others (.inr handles)⟩
  | finish =>
      refine attending.loop_step step fun reactor moved => ?_
      rcases Reactor.due_of_finish moved with ⟨before, after⟩
      rw [before, after]
      exact ⟨id, id⟩
  | clock time =>
      refine attending.loop_step step fun reactor moved => ?_
      cases moved
      exact ⟨id, id⟩
  | send fd msg ret =>
      refine attending.loop_step step fun reactor moved => ?_
      rw [Reactor.due_of_send moved]
      exact ⟨id, id⟩

theorem attending_of_reachable (distinct : serverFd ≠ pipeRead) {inUse : Fd → Bool}
    {backlog : List Nat}
    (reached : Reachable next Drains (start serverFd pipeRead inUse backlog) s) :
    Attending serverFd pipeRead inUse s := by
  apply reached.invariant
  · exact ⟨.refl, .inl (EdgeSource.settled_register backlog),
      .inl (EdgeSource.settled_register [])⟩
  · intro s action t attending allowed step
    exact attending.of_next distinct allowed step

/-- In every run whose calls leave nothing behind, whenever the loop is at
`epoll_wait`, each of the two descriptors has nothing left or an unreported edge. -/
theorem settled_at_wait (distinct : serverFd ≠ pipeRead) {inUse : Fd → Bool} {backlog : List Nat}
    (reached : Reachable next Drains (start serverFd pipeRead inUse backlog) s)
    (waiting : s.reactor.batch = none) : s.listen.Settled ∧ s.pipe.Settled := by
  have attending := attending_of_reachable distinct reached
  have nothing : ∀ fd, fd ∉ s.reactor.due := by
    intro fd
    rw [Reactor.due, waiting]
    exact List.not_mem_nil
  exact ⟨attending.listen.settled (nothing serverFd), attending.pipe.settled (nothing pipeRead)⟩

/-- The first call that leaves something behind leaves it without an edge. -/
theorem not_settled_of_not_drains {action : EdgeAction} (leaves : ¬ s.Drains action)
    (step : s.next action = some t) : ¬ (t.listen.Settled ∧ t.pipe.Settled) := by
  have left : ∀ {β : Type} {source : EdgeSource β} {n : Nat},
      ¬ (source.edge = true ∨ source.pending.length ≤ n) → ¬ (source.take n).Settled := by
    rintro β source n more (empty | edge)
    · exact more (.inr (List.drop_eq_nil_iff.mp empty))
    · exact more (.inl edge)
  cases action with
  | acceptError errno =>
      simp only [next] at step
      split at step
      · rcases exists_of_loop step with ⟨reactor, -, rfl⟩
        exact fun settled => left (fun few => leaves (.inr few)) settled.1
      · cases step
  | recvSignals fails =>
      simp only [next] at step
      split at step
      · rcases exists_of_loop step with ⟨reactor, -, rfl⟩
        exact fun settled => left leaves settled.2
      · cases step
  | _ => exact absurd trivial leaves

/-- The process is out of descriptors: the connection stays in the queue, and no edge
is left to report it. -/
theorem pending_connection_unreported :
    ∃ s, Reachable next Unrestricted (start 3 4 (fun _ => false) []) s ∧
      s.reactor.batch = none ∧ ¬ s.listen.Settled := by
  apply exists_reachable [.connect 1, .wait [(3, Reactor.readableFlags)], .acceptError EMFILE,
    .finish]
  · exact Meets.unrestricted ..
  · decide +kernel

/-- Two connections, of which one comes during the accept loop and the other is given
up by its peer, and a signal. -/
theorem settled_at_wait_interleaved :
    ∃ s, Reachable next Drains (start 3 4 (fun _ => false) [1]) s ∧
      s.reactor.batch = none ∧ (s.reactor.fds.connections 7).isSome = true ∧
      s.listen.Settled ∧ s.pipe.Settled := by
  have run : ∃ s, Reachable next Drains (start 3 4 (fun _ => false) [1]) s ∧
      s.reactor.batch = none ∧ (s.reactor.fds.connections 7).isSome = true := by
    apply exists_reachable [.signal 14,
      .wait [(3, Reactor.readableFlags), (4, Reactor.readableFlags)], .accept 7 0, .connect 2,
      .acceptError ECONNABORTED, .recvSignals false, .finish]
    · decide +kernel
    · decide +kernel
  rcases run with ⟨s, reached, waiting, accepted⟩
  exact ⟨s, reached, waiting, accepted, settled_at_wait (by decide) reached waiting⟩

end EdgeLoop

end Mprpc.Net
