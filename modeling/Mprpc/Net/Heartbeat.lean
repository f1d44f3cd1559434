import Mprpc.Net.EdgeTriggered

/-!
# Signals and the alarm

`Start` arms `alarm(TIMESLOT)` once before the loop and again after each `tick`, so the
chain of ticks goes on only as long as every expiry leads to the next `tick`.  Between
the two lie the handler `sig_handler`, whose non-blocking `send` fails when the pipe is
full, the edge-triggered pipe, which is read 1024 bytes at a time, and the flag
`timeout`.

The loop is the one of `EdgeLoop` with the alarm beside it.  The process may get further
signals at any time, `SIGALRM` among them.
-/

namespace Mprpc.Net

open Mprpc.Transition

/-- The signals with a handler: `SIGALRM`, `SIGTERM` and `SIGINT`. -/
def addsig : List UInt8 :=
  [14, 15, 2]

/-- The loop and whether the alarm is armed. -/
structure Heartbeat where
  loop : EdgeLoop
  alarm : Bool

/-- A step of the loop, the alarm or the rest of the system. -/
inductive HeartbeatAction
  | loop (action : EdgeAction)
  /-- the alarm expires -/
  | expire
  /-- someone sends the process a signal -/
  | kill (sig : UInt8)

/-- `sig_handler`, with a pipe for `capacity` bytes. -/
def EdgeLoop.sigHandler (capacity : Nat) (s : EdgeLoop) (sig : UInt8) : EdgeLoop :=
  if s.pipe.pending.length < capacity then { s with pipe := s.pipe.arrive sig } else s

namespace Heartbeat

/-- The loop after the first `alarm(TIMESLOT)`. -/
def start (serverFd pipeRead : Fd) (inUse : Fd → Bool) (backlog : List Nat) : Heartbeat where
  loop := .start serverFd pipeRead inUse backlog
  alarm := true

/-- Signals come through their handler, and `recv` fails on an empty pipe only. -/
def Allows (h : Heartbeat) : EdgeAction → Prop
  | .signal _ => False
  | .recvSignals fails => fails = true → h.loop.pipe.pending = []
  | _ => True

instance (h : Heartbeat) : (action : EdgeAction) → Decidable (h.Allows action)
  | .signal _ => isFalse id
  | .recvSignals fails => inferInstanceAs (Decidable (fails = true → h.loop.pipe.pending = []))
  | .connect _ => isTrue trivial
  | .wait _ => isTrue trivial
  | .accept _ _ => isTrue trivial
  | .acceptError _ => isTrue trivial
  | .handle _ => isTrue trivial
  | .finish => isTrue trivial
  | .clock _ => isTrue trivial
  | .send _ _ _ => isTrue trivial

/-- `alarm(TIMESLOT)` stands beside the `tick`. -/
def rearms (h : Heartbeat) : EdgeAction → Bool
  | .finish => h.loop.reactor.timeout
  | _ => false

def next (capacity : Nat) (h : Heartbeat) : HeartbeatAction → Option Heartbeat
  | .loop action =>
      if h.Allows action then
        (h.loop.next action).map fun loop => { loop := loop, alarm := h.alarm || h.rearms action }
      else none
  | .expire =>
      if h.alarm = true then some { loop := h.loop.sigHandler capacity 14, alarm := false }
      else none
  | .kill sig =>
      if sig ∈ addsig then some { h with loop := h.loop.sigHandler capacity sig } else none

/-- The `recv` on the pipe that returns bytes. -/
def reads : HeartbeatAction → Bool
  | .loop (.recvSignals fails) => !fails
  | _ => false

end Heartbeat

/-! ## The two flags -/

namespace Reactor

variable {r r' : Reactor}

theorem flags_of_acceptLoop {accepts : List (Fd × Int)} (looped : r.acceptLoop accepts = some r') :
    r'.timeout = r.timeout ∧ r'.stopServer = r.stopServer := by
  induction accepts generalizing r with
  | nil =>
      cases looped
      exact ⟨rfl, rfl⟩
  | cons entry accepts inductionHypothesis =>
      rcases entry with ⟨connfd, time⟩
      rcases Option.bind_eq_some_iff.mp looped with ⟨middle, accepted, rest⟩
      have later := inductionHypothesis rest
      unfold accept at accepted
      split at accepted
      · cases accepted
      · cases accepted
        exact later

/-- Only the signal pipe sets the flags. -/
theorem flags_of_handleEvent {fd : Fd} {flags : EpollEvents} {results : EventResults}
    (other : fd ≠ r.fds.pipeRead) (handled : r.handleEvent fd flags results = some r') :
    r'.timeout = r.timeout ∧ r'.stopServer = r.stopServer := by
  unfold handleEvent at handled
  split at handled
  · exact flags_of_acceptLoop handled
  · rw [if_neg fun pipe => other pipe.1] at handled
    split at handled
    · cases handled
      exact ⟨rfl, rfl⟩
    · split at handled
      · cases handled
        unfold readable
        dsimp only
        split
        · exact ⟨rfl, rfl⟩
        · exact ⟨rfl, rfl⟩
      · split at handled
        · cases handled
          unfold writable
          dsimp only
          split
          · exact ⟨rfl, rfl⟩
          · exact ⟨rfl, rfl⟩
        · cases handled
          exact ⟨rfl, rfl⟩

theorem timeout_signal (r : Reactor) (sig : UInt8) :
    (r.signal sig).timeout = true ↔ r.timeout = true ∨ sig = 14 := by
  unfold signal
  by_cases alarm : sig = 14
  · simp [alarm]
  · rw [if_neg alarm]
    split
    · simp [alarm]
    · simp [alarm]

theorem stopServer_signal (r : Reactor) (sig : UInt8) :
    (r.signal sig).stopServer = true ↔ r.stopServer = true ∨ sig = 15 ∨ sig = 2 := by
  unfold signal
  by_cases alarm : sig = 14
  · simp [alarm]
  · rw [if_neg alarm]
    split
    · rename_i stops
      simp [stops]
    · rename_i other
      simp [other]

theorem timeout_signals (r : Reactor) (signals : Bytes) :
    (signals.foldl signal r).timeout = true ↔ r.timeout = true ∨ 14 ∈ signals := by
  induction signals generalizing r with
  | nil => simp
  | cons sig signals inductionHypothesis =>
      rw [List.foldl_cons, inductionHypothesis, timeout_signal, List.mem_cons, or_assoc,
        eq_comm (a := sig)]

theorem stopServer_signals (r : Reactor) (signals : Bytes) :
    (signals.foldl signal r).stopServer = true ↔
      r.stopServer = true ∨ 15 ∈ signals ∨ 2 ∈ signals := by
  induction signals generalizing r with
  | nil => simp
  | cons sig signals inductionHypothesis =>
      rw [List.foldl_cons, inductionHypothesis, stopServer_signal, List.mem_cons, List.mem_cons,
        @eq_comm _ 15, @eq_comm _ 2]
      tauto

/-- An event of the signal pipe is one with signals. -/
theorem handleEvent_pipe (consistent : r.Consistent) {flags : EpollEvents}
    (distinct : r.fds.pipeRead ≠ r.fds.serverFd)
    (expected : Expected r.fds r.fds.pipeRead flags) (results : EventResults) :
    r.handleEvent r.fds.pipeRead flags results = some (results.signals.foldl signal r) := by
  have reads : flags.epollin = true := by
    rcases expected with server | pipe | isLive
    · exact absurd server distinct
    · exact pipe.2
    · exact absurd rfl (consistent.agree.tables.client isLive).2
  rw [handleEvent, if_neg distinct, if_pos ⟨rfl, reads⟩]

theorem next_handle {results : EventResults} (step : r.next (.handle results) = some r') :
    ∃ fd flags rest after, r.batch = some ((fd, flags) :: rest) ∧
      r.handleEvent fd flags results = some after ∧ r' = { after with batch := some rest } := by
  unfold next at step
  dsimp only at step
  split at step
  · rename_i fd flags rest pending
    rcases Option.map_eq_some_iff.mp step with ⟨after, handled, same⟩
    exact ⟨fd, flags, rest, after, pending, handled, same.symm⟩
  · cases step

theorem next_eq_of_batch {fd other : Fd} {flags : EpollEvents} {rest : List (Fd × EpollEvents)}
    (pending : r.batch = some ((fd, flags) :: rest)) (isNext : r.Next other) : fd = other := by
  rw [Next, due, pending] at isNext
  exact Option.some.inj isNext

end Reactor

/-! ## What the steps of the loop do to the pipe -/

namespace EdgeLoop

variable {s t : EdgeLoop} {serverFd pipeRead : Fd} {inUse : Fd → Bool}

/-- The pipe has an unreported edge, or its report is still to be handled. -/
def Watched (pipeRead : Fd) (s : EdgeLoop) : Prop :=
  s.pipe.edge = true ∨ pipeRead ∈ s.reactor.due

/-- The actions that touch neither the bytes in the pipe nor the flags. -/
def Quiet : EdgeAction → Prop
  | .signal _ => False
  | .recvSignals _ => False
  | .finish => False
  | _ => True

/-- What these actions keep. -/
structure Kept (pipeRead : Fd) (s t : EdgeLoop) : Prop where
  pending : t.pipe.pending = s.pipe.pending
  timeout : t.reactor.timeout = s.reactor.timeout
  stopServer : t.reactor.stopServer = s.reactor.stopServer
  watched : Watched pipeRead s → Watched pipeRead t
  idle : t.reactor.batch = none → s.reactor.batch = none

theorem exists_of_next {action : EdgeAction} (step : s.next action = some t) :
    t.reactor = s.reactor ∨ ∃ moved, s.reactor.next moved = some t.reactor := by
  have moves : ∀ {source : EdgeLoop} {moved : ReactorAction}, source.loop moved = some t →
      source.reactor = s.reactor → ∃ moved, s.reactor.next moved = some t.reactor := by
    intro source moved looped same
    rcases exists_of_loop looped with ⟨reactor, moves, rfl⟩
    exact ⟨moved, same ▸ moves⟩
  cases action with
  | connect client =>
      cases step
      exact .inl rfl
  | signal sig =>
      cases step
      exact .inl rfl
  | wait events =>
      simp only [next] at step
      split at step
      · exact .inr (moves step rfl)
      · cases step
  | accept connfd time =>
      simp only [next] at step
      split at step
      · cases step
        exact .inl rfl
      · cases step
  | acceptError errno =>
      simp only [next] at step
      split at step
      · exact .inr (moves step rfl)
      · cases step
  | recvSignals fails =>
      simp only [next] at step
      split at step
      · exact .inr (moves step rfl)
      · cases step
  | handle results =>
      simp only [next] at step
      split at step
      · cases step
      · exact .inr (moves step rfl)
  | finish => exact .inr (moves step rfl)
  | clock time => exact .inr (moves step rfl)
  | send fd msg ret => exact .inr (moves step rfl)

/-- The loop under a run is a run of the loop. -/
theorem reactor_of_next
    (reached : Reachable Reactor.next Unrestricted (.start serverFd pipeRead inUse) s.reactor)
    {action : EdgeAction} (step : s.next action = some t) :
    Reachable Reactor.next Unrestricted (.start serverFd pipeRead inUse) t.reactor := by
  rcases exists_of_next step with same | ⟨moved, moves⟩
  · rw [same]
    exact reached
  · exact .tail reached trivial moves

theorem pending_reportIf {β : Type} (source : EdgeSource β) (reported : Bool) :
    (reportIf source reported).pending = source.pending := by
  cases reported with
  | false => rfl
  | true => rfl

/-- Handling an event of another descriptor than the pipe. -/
theorem kept_of_handle
    (reached : Reachable Reactor.next Unrestricted (.start serverFd pipeRead inUse) s.reactor)
    {results : EventResults} {reactor : Reactor} {listen : EdgeSource Nat}
    {accepted : List (Fd × Int)} (later : ¬ s.reactor.Next pipeRead)
    (moved : s.reactor.next (.handle results) = some reactor) :
    Kept pipeRead s { s with reactor := reactor, listen := listen, accepted := accepted } := by
  have isDue : ∀ {fd : Fd}, ¬ s.reactor.Next fd → fd ∈ s.reactor.due → fd ∈ reactor.due :=
    Reactor.mem_due_of_handle moved
  rcases Reactor.next_handle moved with ⟨fd, flags, rest, after, pending, handled, rfl⟩
  have other : fd ≠ s.reactor.fds.pipeRead := by
    rw [(Reactor.listeners_of_reachable reached).2]
    intro same
    apply later
    rw [Reactor.Next, Reactor.due, pending, ← same]
    rfl
  rcases Reactor.flags_of_handleEvent other handled with ⟨timeout, stopServer⟩
  exact ⟨rfl, timeout, stopServer, fun watched => watched.imp_right (isDue later),
    fun idle => absurd idle (Option.some_ne_none rest)⟩

theorem kept_of_next (distinct : serverFd ≠ pipeRead)
    (reached : Reachable Reactor.next Unrestricted (.start serverFd pipeRead inUse) s.reactor)
    {action : EdgeAction} (quiet : Quiet action) (step : s.next action = some t) :
    Kept pipeRead s t := by
  rcases Reactor.listeners_of_reachable reached with ⟨server, signals⟩
  cases action with
  | connect client =>
      cases step
      exact ⟨rfl, rfl, rfl, id, id⟩
  | wait events =>
      simp only [next] at step
      split at step
      · rcases exists_of_loop step with ⟨reactor, moved, rfl⟩
        have notDue : pipeRead ∉ s.reactor.due := by
          rw [(Reactor.due_of_wait moved).1]
          exact List.not_mem_nil
        cases Reactor.stepped_of_next (Reactor.consistent_of_reachable reached) moved with
        | waited idle reports =>
            refine ⟨pending_reportIf _ _, rfl, rfl, fun watched => ?_, fun _ => idle⟩
            have edge := watched.resolve_right notDue
            by_cases reported : pipeRead ∈ events.map Prod.fst
            · exact .inr reported
            · left
              dsimp only
              rw [signals, decide_eq_false reported]
              exact edge
      · cases step
  | accept connfd time =>
      simp only [next] at step
      split at step
      · cases step
        exact ⟨rfl, rfl, rfl, id, id⟩
      · cases step
  | acceptError errno =>
      simp only [next] at step
      split at step
      · rename_i enabled
        rcases exists_of_loop step with ⟨reactor, moved, rfl⟩
        exact kept_of_handle reached
          (fun isNext => distinct (server.symm.trans (enabled.1.unique isNext))) moved
      · cases step
  | handle results =>
      simp only [next] at step
      split at step
      · cases step
      · rename_i others
        rcases exists_of_loop step with ⟨reactor, moved, rfl⟩
        exact kept_of_handle reached (fun isNext => others (.inr (signals ▸ isNext))) moved
  | clock time =>
      rcases exists_of_loop step with ⟨reactor, moved, rfl⟩
      cases moved
      exact ⟨rfl, rfl, rfl, id, id⟩
  | send fd msg ret =>
      rcases exists_of_loop step with ⟨reactor, moved, rfl⟩
      cases Reactor.stepped_of_next (Reactor.consistent_of_reachable reached) moved with
      | sent sent =>
          rcases Option.map_eq_some_iff.mp sent with ⟨conn, -, rfl⟩
          exact ⟨rfl, rfl, rfl, id, id⟩
  | signal sig => exact quiet.elim
  | recvSignals fails => exact quiet.elim
  | finish => exact quiet.elim

theorem finish_of_next
    (reached : Reachable Reactor.next Unrestricted (.start serverFd pipeRead inUse) s.reactor)
    (step : s.next .finish = some t) :
    t.pipe = s.pipe ∧ t.reactor.timeout = false ∧
      t.reactor.stopServer = s.reactor.stopServer ∧ (Watched pipeRead s → Watched pipeRead t) := by
  rcases exists_of_loop step with ⟨reactor, moved, rfl⟩
  have notDue : pipeRead ∉ s.reactor.due := by
    rw [(Reactor.due_of_finish moved).1]
    exact List.not_mem_nil
  have watched : Watched pipeRead s → Watched pipeRead { s with reactor := reactor } :=
    fun watched => .inl (watched.resolve_right notDue)
  cases Reactor.stepped_of_next (Reactor.consistent_of_reachable reached) moved with
  | finished done =>
      refine ⟨rfl, ?_, ?_, watched⟩
      · unfold Reactor.finish
        split
        · rfl
        · rename_i quiet
          exact Bool.eq_false_iff.mpr quiet
      · unfold Reactor.finish
        split
        · rfl
        · rfl

/-- The signals that one `recv` returns set the flags. -/
theorem recvSignals_of_next (distinct : serverFd ≠ pipeRead)
    (reached : Reachable Reactor.next Unrestricted (.start serverFd pipeRead inUse) s.reactor)
    {fails : Bool} (step : s.next (.recvSignals fails) = some t) :
    t.pipe = s.pipe.take (taken fails) ∧ t.reactor.batch ≠ none ∧
      (t.reactor.timeout = true ↔
        s.reactor.timeout = true ∨ 14 ∈ s.pipe.pending.take (taken fails)) ∧
      (t.reactor.stopServer = true ↔ s.reactor.stopServer = true ∨
        15 ∈ s.pipe.pending.take (taken fails) ∨ 2 ∈ s.pipe.pending.take (taken fails)) := by
  rcases Reactor.listeners_of_reachable reached with ⟨server, signals⟩
  simp only [next] at step
  split at step
  · rename_i handles
    rcases exists_of_loop step with ⟨reactor, moved, rfl⟩
    rcases Reactor.next_handle moved with ⟨fd, flags, rest, after, pending, handled, rfl⟩
    have consistent := Reactor.consistent_of_reachable reached
    have isPipe := Reactor.next_eq_of_batch pending handles
    have expected := consistent.expected _ pending _ List.mem_cons_self
    dsimp only at expected handled
    rw [isPipe] at expected handled
    have apart : s.reactor.fds.pipeRead ≠ s.reactor.fds.serverFd := by
      rw [server, signals]
      exact distinct.symm
    rw [Reactor.handleEvent_pipe consistent apart expected] at handled
    cases handled
    exact ⟨rfl, Option.some_ne_none rest, Reactor.timeout_signals _ _,
      Reactor.stopServer_signals _ _⟩
  · cases step

end EdgeLoop

namespace Heartbeat

variable {capacity : Nat} {h h' : Heartbeat} {serverFd pipeRead : Fd} {inUse : Fd → Bool}

/-- What keeps the chain of ticks going.  The pipe holds room for the next signal
unless someone is about to read it. -/
structure Beating (capacity : Nat) (serverFd pipeRead : Fd) (inUse : Fd → Bool)
    (h : Heartbeat) : Prop where
  reactor : Reachable Reactor.next Unrestricted (.start serverFd pipeRead inUse) h.loop.reactor
  caught : ∀ sig ∈ h.loop.pipe.pending, sig ∈ addsig
  bounded : h.loop.pipe.pending.length ≤ capacity
  room : h.loop.pipe.pending.length < capacity ∨ h.loop.Watched pipeRead
  idle : h.loop.reactor.batch = none → h.loop.reactor.timeout = false
  beats : h.alarm = true ∨ h.loop.reactor.timeout = true ∨ h.loop.reactor.stopServer = true ∨
    (h.loop.pipe.pending ≠ [] ∧ h.loop.Watched pipeRead)

theorem Beating.quiet (beating : Beating capacity serverFd pipeRead inUse h) {loop : EdgeLoop}
    (reactor : Reachable Reactor.next Unrestricted (.start serverFd pipeRead inUse) loop.reactor)
    (kept : EdgeLoop.Kept pipeRead h.loop loop) :
    Beating capacity serverFd pipeRead inUse { h with loop := loop } where
  reactor := reactor
  caught := by
    rw [kept.pending]
    exact beating.caught
  bounded := by
    rw [kept.pending]
    exact beating.bounded
  room := by
    rw [kept.pending]
    exact beating.room.imp_right kept.watched
  idle waiting := kept.timeout.trans (beating.idle (kept.idle waiting))
  beats := by
    rw [kept.pending, kept.timeout, kept.stopServer]
    exact beating.beats.imp_right fun rest => rest.imp_right fun rest =>
      rest.imp_right fun pending => ⟨pending.1, kept.watched pending.2⟩

/-- `tick` and `alarm` come together. -/
theorem Beating.finish (beating : Beating capacity serverFd pipeRead inUse h) {loop : EdgeLoop}
    (step : h.loop.next .finish = some loop) :
    Beating capacity serverFd pipeRead inUse
      { loop := loop, alarm := h.alarm || h.loop.reactor.timeout } := by
  rcases EdgeLoop.finish_of_next beating.reactor step with ⟨pipe, timeout, stopServer, watched⟩
  refine ⟨EdgeLoop.reactor_of_next beating.reactor step, ?_, ?_, ?_, fun _ => timeout, ?_⟩
  · rw [pipe]
    exact beating.caught
  · rw [pipe]
    exact beating.bounded
  · rw [pipe]
    exact beating.room.imp_right watched
  · dsimp only
    rw [pipe, stopServer, Bool.or_eq_true]
    rcases beating.beats with alarm | due | stops | pending
    · exact .inl (.inl alarm)
    · exact .inl (.inr due)
    · exact .inr (.inr (.inl stops))
    · exact .inr (.inr (.inr ⟨pending.1, watched pending.2⟩))

/-- Whatever the first byte is, a `recv` that returns bytes sets one of the flags. -/
theorem Beating.recvSignals (positive : 0 < capacity) (distinct : serverFd ≠ pipeRead)
    (beating : Beating capacity serverFd pipeRead inUse h) {loop : EdgeLoop} {fails : Bool}
    (fair : fails = true → h.loop.pipe.pending = [])
    (step : h.loop.next (.recvSignals fails) = some loop) :
    Beating capacity serverFd pipeRead inUse { h with loop := loop } := by
  rcases EdgeLoop.recvSignals_of_next distinct beating.reactor step with
    ⟨pipe, busy, timeout, stopServer⟩
  have left : loop.pipe.pending = h.loop.pipe.pending.drop (EdgeLoop.taken fails) := by
    rw [pipe]
    rfl
  refine ⟨EdgeLoop.reactor_of_next beating.reactor step, ?_, ?_, ?_,
    fun waiting => absurd waiting busy, ?_⟩
  · intro sig member
    dsimp only at member
    rw [left] at member
    exact beating.caught sig (List.mem_of_mem_drop member)
  · dsimp only
    rw [left, List.length_drop]
    exact (Nat.sub_le _ _).trans beating.bounded
  · left
    dsimp only
    rw [left, List.length_drop]
    cases fails with
    | true =>
        rw [fair rfl]
        exact positive
    | false =>
        have bounded := beating.bounded
        unfold EdgeLoop.taken
        simp only [Bool.false_eq_true, if_false]
        omega
  · dsimp only
    cases queue : h.loop.pipe.pending with
    | nil =>
        rcases beating.beats with alarm | due | stops | pending
        · exact .inl alarm
        · exact .inr (.inl (timeout.mpr (.inl due)))
        · exact .inr (.inr (.inl (stopServer.mpr (.inl stops))))
        · exact absurd queue pending.1
    | cons sig rest =>
        have returns : fails = false := by
          by_contra failed
          rw [fair (Bool.not_eq_false _ |>.mp failed)] at queue
          cases queue
        have taken : sig ∈ h.loop.pipe.pending.take (EdgeLoop.taken fails) := by
          rw [queue, returns]
          exact List.mem_cons_self
        have caught : sig ∈ addsig := by
          apply beating.caught
          rw [queue]
          exact List.mem_cons_self
        simp only [addsig, List.mem_cons, List.not_mem_nil, or_false] at caught
        rcases caught with rfl | rfl | rfl
        · exact .inr (.inl (timeout.mpr (.inr taken)))
        · exact .inr (.inr (.inl (stopServer.mpr (.inr (.inl taken)))))
        · exact .inr (.inr (.inl (stopServer.mpr (.inr (.inr taken)))))

/-- Even the handler of a signal that finds the pipe full leaves a byte that is
about to be read. -/
theorem Beating.sigHandler (positive : 0 < capacity)
    (beating : Beating capacity serverFd pipeRead inUse h) {sig : UInt8} (caught : sig ∈ addsig)
    (alarm : Bool) :
    Beating capacity serverFd pipeRead inUse
      { loop := h.loop.sigHandler capacity sig, alarm := alarm } := by
  unfold EdgeLoop.sigHandler
  by_cases fits : h.loop.pipe.pending.length < capacity
  · rw [if_pos fits]
    refine ⟨beating.reactor, ?_, ?_, .inr (.inl rfl), beating.idle, .inr (.inr (.inr ?_))⟩
    · intro other member
      rcases List.mem_append.mp member with before | same
      · exact beating.caught other before
      · rw [List.mem_singleton.mp same]
        exact caught
    · show (h.loop.pipe.pending ++ [sig]).length ≤ capacity
      rw [List.length_append]
      exact fits
    · exact ⟨List.append_ne_nil_of_right_ne_nil _ (List.cons_ne_nil _ _), .inl rfl⟩
  · rw [if_neg fits]
    have watched := beating.room.resolve_left fits
    refine ⟨beating.reactor, beating.caught, beating.bounded, .inr watched, beating.idle,
      .inr (.inr (.inr ⟨?_, watched⟩))⟩
    intro empty
    dsimp only at empty
    rw [empty] at fits
    exact fits positive

theorem Beating.of_next (positive : 0 < capacity) (distinct : serverFd ≠ pipeRead)
    (beating : Beating capacity serverFd pipeRead inUse h) {action : HeartbeatAction}
    (step : h.next capacity action = some h') : Beating capacity serverFd pipeRead inUse h' := by
  cases action with
  | loop action =>
      simp only [next] at step
      split at step
      · rename_i fair
        rcases Option.map_eq_some_iff.mp step with ⟨loop, moved, rfl⟩
        have quiet : EdgeLoop.Quiet action → h.rearms action = false →
            Beating capacity serverFd pipeRead inUse
              { loop := loop, alarm := h.alarm || h.rearms action } := by
          intro quiet same
          rw [same, Bool.or_false]
          exact beating.quiet (EdgeLoop.reactor_of_next beating.reactor moved)
            (EdgeLoop.kept_of_next distinct beating.reactor quiet moved)
        cases action with
        | finish => exact beating.finish moved
        | recvSignals fails =>
            show Beating capacity serverFd pipeRead inUse
              { loop := loop, alarm := h.alarm || false }
            rw [Bool.or_false]
            exact beating.recvSignals positive distinct fair moved
        | signal sig => exact fair.elim
        | _ => exact quiet trivial rfl
      · cases step
  | expire =>
      simp only [next] at step
      split at step
      · cases step
        exact beating.sigHandler positive (by decide) false
      · cases step
  | kill sig =>
      simp only [next] at step
      split at step
      · rename_i caught
        cases step
        exact beating.sigHandler positive caught h.alarm
      · cases step

theorem beating_of_reachable (positive : 0 < capacity) (distinct : serverFd ≠ pipeRead)
    {backlog : List Nat}
    (reached : Reachable (next capacity) Unrestricted (start serverFd pipeRead inUse backlog) h) :
    Beating capacity serverFd pipeRead inUse h := by
  apply reached.invariant
  · exact ⟨.refl, fun _ member => absurd member List.not_mem_nil, positive.le, .inl positive,
      fun _ => rfl, .inl rfl⟩
  · intro h action h' beating _ step
    exact beating.of_next positive distinct step

/-- However many signals the process gets, at `epoll_wait` the alarm is armed or the
pipe is about to be reported, unless the loop has been told to stop. -/
theorem Beating.woken (beating : Beating capacity serverFd pipeRead inUse h)
    (waiting : h.loop.reactor.batch = none) (running : h.loop.reactor.stopServer = false) :
    h.alarm = true ∨ (h.loop.pipe.pending ≠ [] ∧ h.loop.pipe.edge = true) := by
  rcases beating.beats with alarm | due | stops | ⟨pending, watched⟩
  · exact .inl alarm
  · rw [beating.idle waiting] at due
    cases due
  · rw [running] at stops
    cases stops
  · refine .inr ⟨pending, watched.resolve_right ?_⟩
    rw [Reactor.due, waiting]
    exact List.not_mem_nil

theorem woken_of_reachable (positive : 0 < capacity) (distinct : serverFd ≠ pipeRead)
    {backlog : List Nat}
    (reached : Reachable (next capacity) Unrestricted (start serverFd pipeRead inUse backlog) h)
    (waiting : h.loop.reactor.batch = none) (running : h.loop.reactor.stopServer = false) :
    h.alarm = true ∨ (h.loop.pipe.pending ≠ [] ∧ h.loop.pipe.edge = true) :=
  (beating_of_reachable positive distinct reached).woken waiting running

/-- A pipe for two signals: the alarm finds it full with two others, and the next
`tick` arms it again. -/
theorem woken_after_burst :
    ∃ h, Reachable (next 2) Unrestricted (start 3 4 (fun _ => false) []) h ∧
      h.loop.reactor.batch = none ∧ h.loop.reactor.stopServer = false ∧
      (h.alarm = true ∨ (h.loop.pipe.pending ≠ [] ∧ h.loop.pipe.edge = true)) := by
  have run : ∃ h, Reachable (next 2) Unrestricted (start 3 4 (fun _ => false) []) h ∧
      h.loop.reactor.batch = none ∧ h.loop.reactor.stopServer = false := by
    apply exists_reachable [.kill 14, .kill 14, .expire,
      .loop (.wait [(4, Reactor.readableFlags)]), .loop (.recvSignals false), .loop .finish]
    · exact Meets.unrestricted ..
    · decide +kernel
  rcases run with ⟨h, reached, waiting, running⟩
  exact ⟨h, reached, waiting, running,
    woken_of_reachable (by decide) (by decide) reached waiting running⟩

/-! ## Termination signals -/

/-- The loop has been told to stop, or the signal is still in the pipe, where `count`
reads have taken 1024 of the `earlier` ones each. -/
def Delivers (sig : UInt8) (earlier count : Nat) (h : Heartbeat) : Prop :=
  h.loop.reactor.stopServer = true ∨ ∃ before after,
    h.loop.pipe.pending = before ++ sig :: after ∧ before.length + 1024 * count = earlier

variable {sig : UInt8} {earlier count : Nat}

theorem Delivers.of_pipe (delivers : Delivers sig earlier count h)
    (stops : h.loop.reactor.stopServer = true → h'.loop.reactor.stopServer = true)
    (pipe : ∃ more, h'.loop.pipe.pending = h.loop.pipe.pending ++ more) :
    Delivers sig earlier count h' := by
  rcases delivers with stopped | ⟨before, after, pending, behind⟩
  · exact .inl (stops stopped)
  · rcases pipe with ⟨more, appended⟩
    refine .inr ⟨before, after ++ more, ?_, behind⟩
    rw [appended, pending, List.append_assoc, List.cons_append]

theorem Delivers.sigHandler (delivers : Delivers sig earlier count h) (other : UInt8)
    (alarm : Bool) :
    Delivers sig earlier count { loop := h.loop.sigHandler capacity other, alarm := alarm } := by
  unfold EdgeLoop.sigHandler
  split
  · exact delivers.of_pipe id ⟨[other], rfl⟩
  · exact delivers.of_pipe id ⟨[], (List.append_nil _).symm⟩

theorem Delivers.recvSignals (ends : sig = 15 ∨ sig = 2) (distinct : serverFd ≠ pipeRead)
    (reactor : Reachable Reactor.next Unrestricted (.start serverFd pipeRead inUse)
      h.loop.reactor)
    (delivers : Delivers sig earlier count h) {loop : EdgeLoop} {alarm : Bool}
    (step : h.loop.next (.recvSignals false) = some loop) :
    Delivers sig earlier (count + 1) { loop := loop, alarm := alarm } := by
  rcases EdgeLoop.recvSignals_of_next distinct reactor step with ⟨pipe, -, -, stopServer⟩
  rcases delivers with stopped | ⟨before, after, pending, behind⟩
  · exact .inl (stopServer.mpr (.inl stopped))
  · by_cases late : 1024 ≤ before.length
    · refine .inr ⟨before.drop 1024, after, ?_, ?_⟩
      · show loop.pipe.pending = _
        rw [pipe]
        show h.loop.pipe.pending.drop 1024 = _
        rw [pending, List.drop_append_of_le_length late]
      · rw [List.length_drop]
        omega
    · left
      have taken : sig ∈ h.loop.pipe.pending.take 1024 := by
        rw [pending, List.take_append]
        apply List.mem_append_right
        rw [List.mem_take_iff_getElem]
        exact ⟨0, by simp; omega, rfl⟩
      apply stopServer.mpr
      rcases ends with rfl | rfl
      · exact .inr (.inl taken)
      · exact .inr (.inr taken)

theorem Delivers.of_next (ends : sig = 15 ∨ sig = 2) (distinct : serverFd ≠ pipeRead)
    (reactor : Reachable Reactor.next Unrestricted (.start serverFd pipeRead inUse)
      h.loop.reactor)
    (delivers : Delivers sig earlier count h) {action : HeartbeatAction}
    (step : h.next capacity action = some h') :
    Delivers sig earlier (count + (reads action).toNat) h' := by
  cases action with
  | loop action =>
      simp only [next] at step
      split at step
      · rename_i fair
        rcases Option.map_eq_some_iff.mp step with ⟨loop, moved, rfl⟩
        have quiet : EdgeLoop.Quiet action →
            Delivers sig earlier count { loop := loop, alarm := h.alarm || h.rearms action } := by
          intro quiet
          have kept := EdgeLoop.kept_of_next distinct reactor quiet moved
          apply delivers.of_pipe
          · exact fun stopped => kept.stopServer.trans stopped
          · exact ⟨[], kept.pending.trans (List.append_nil _).symm⟩
        cases action with
        | finish =>
            rcases EdgeLoop.finish_of_next reactor moved with ⟨pipe, -, stopServer, -⟩
            apply delivers.of_pipe
            · exact fun stopped => stopServer.trans stopped
            · exact ⟨[], by rw [List.append_nil, ← pipe]⟩
        | recvSignals fails =>
            cases fails with
            | false => exact delivers.recvSignals ends distinct reactor moved
            | true =>
                have empty : h.loop.pipe.pending = [] := fair rfl
                rcases EdgeLoop.recvSignals_of_next distinct reactor moved with
                  ⟨-, -, -, stopServer⟩
                rcases delivers with stopped | ⟨before, after, pending, -⟩
                · exact .inl (stopServer.mpr (.inl stopped))
                · rw [empty] at pending
                  exact absurd pending.symm (List.append_ne_nil_of_right_ne_nil _
                    (List.cons_ne_nil _ _))
        | signal sig => exact fair.elim
        | _ => exact quiet trivial
      · cases step
  | expire =>
      simp only [next] at step
      split at step
      · cases step
        exact delivers.sigHandler 14 false
      · cases step
  | kill other =>
      simp only [next] at step
      split at step
      · cases step
        exact delivers.sigHandler other h.alarm
      · cases step

theorem delivers_of_run (ends : sig = 15 ∨ sig = 2) (positive : 0 < capacity)
    (distinct : serverFd ≠ pipeRead) (beating : Beating capacity serverFd pipeRead inUse h)
    (delivers : Delivers sig earlier count h) {actions : List HeartbeatAction}
    (succeeds : run (next capacity) h actions = some h') :
    Beating capacity serverFd pipeRead inUse h' ∧
      Delivers sig earlier (count + actions.countP reads) h' := by
  induction actions generalizing h count with
  | nil =>
      cases succeeds
      exact ⟨beating, delivers⟩
  | cons action actions inductionHypothesis =>
      rw [run_cons] at succeeds
      rcases Option.bind_eq_some_iff.mp succeeds with ⟨middle, first, rest⟩
      have later := inductionHypothesis (beating.of_next positive distinct first)
        (delivers.of_next ends distinct beating.reactor first) rest
      have counted : (action :: actions).countP reads =
          (reads action).toNat + actions.countP reads := by
        rw [List.countP_cons]
        cases reads action with
        | false => simp
        | true => simp [Nat.add_comm]
      rw [counted, ← Nat.add_assoc]
      exact later

/-- A termination signal whose byte is in the pipe stops the loop once enough reads
have returned, and until then the loop is woken up again.  Each read takes 1024 of
the signals before it. -/
theorem stops_of_run (positive : 0 < capacity) (distinct : serverFd ≠ pipeRead)
    {backlog : List Nat}
    (reached : Reachable (next capacity) Unrestricted (start serverFd pipeRead inUse backlog) h)
    {before after : List UInt8} (pending : h.loop.pipe.pending = before ++ sig :: after)
    (ends : sig = 15 ∨ sig = 2) {actions : List HeartbeatAction}
    (succeeds : run (next capacity) h actions = some h') :
    h'.loop.reactor.stopServer = true ∨
      (∃ before' after', h'.loop.pipe.pending = before' ++ sig :: after' ∧
        before'.length + 1024 * actions.countP reads = before.length) ∧
      (h'.loop.reactor.batch = none →
        h'.alarm = true ∨ (h'.loop.pipe.pending ≠ [] ∧ h'.loop.pipe.edge = true)) := by
  have delivers : Delivers sig before.length 0 h := .inr ⟨before, after, pending, rfl⟩
  rcases delivers_of_run ends positive distinct
    (beating_of_reachable positive distinct reached) delivers succeeds with ⟨beating, later⟩
  rw [Nat.zero_add] at later
  rcases later with stopped | waits
  · exact .inl stopped
  · cases running : h'.loop.reactor.stopServer with
    | true => exact .inl rfl
    | false => exact .inr ⟨waits, fun waiting => beating.woken waiting running⟩

/-- `SIGTERM` comes behind a `SIGALRM`, and one read stops the loop in the middle of a
batch. -/
theorem stops_within_batch :
    ∃ h h', Reachable (next 278) Unrestricted (start 3 4 (fun _ => false) []) h ∧
      h.loop.pipe.pending = [14, 15] ∧
      run (next 278) h [.loop (.connect 1),
        .loop (.wait [(4, Reactor.readableFlags), (3, Reactor.readableFlags)]),
        .loop (.recvSignals false)] = some h' ∧
      (h'.loop.reactor.stopServer = true ∨
        (∃ before' after', h'.loop.pipe.pending = before' ++ 15 :: after' ∧
          before'.length + 1024 * 1 = 1) ∧
        (h'.loop.reactor.batch = none →
          h'.alarm = true ∨ (h'.loop.pipe.pending ≠ [] ∧ h'.loop.pipe.edge = true))) := by
  have first : ∃ h, Reachable (next 278) Unrestricted (start 3 4 (fun _ => false) []) h ∧
      h.loop.pipe.pending = [14, 15] ∧ (run (next 278) h [.loop (.connect 1),
        .loop (.wait [(4, Reactor.readableFlags), (3, Reactor.readableFlags)]),
        .loop (.recvSignals false)]).isSome = true := by
    apply exists_reachable [.expire, .kill 15]
    · exact Meets.unrestricted ..
    · decide +kernel
  rcases first with ⟨h, reached, pending, succeeds⟩
  rcases Option.isSome_iff_exists.mp succeeds with ⟨h', succeeds⟩
  have behind : h.loop.pipe.pending = [14] ++ 15 :: [] := pending
  exact ⟨h, h', reached, pending, succeeds,
    stops_of_run (by decide) (by decide) reached behind (.inl rfl) succeeds⟩

end Heartbeat

end Mprpc.Net
