import Mprpc.Net.Lifecycle
import Mprpc.Net.TimerSet

/-!
# Idle connections do not outlive their deadline

Every connection has its timer in the heap, three time slots after its last
event.  As the heap stays in order, a tick leaves no active timer behind that has
expired, so the connections it leaves have had an event within three time slots.
Stale timers of earlier connections change nothing of this: they kick too much,
never too little.

What points to the timer is `users_timer[fd]`, and the array has `MAX_FD` elements
while the descriptor is whatever `accept` returns.  So a connection has an element
that points to its timer exactly if its descriptor is below `MAX_FD`.
-/

namespace Mprpc.Net

open Mprpc.Transition

universe u v

/-- What a tick does to the heap does not depend on its callback. -/
theorem TimeHeap.tick_heap {σ : Type u} {τ : Type v} (callback : TimeHeap → TimerId → σ → σ)
    (other : TimeHeap → TimerId → τ → τ) (cur : Int) (t : TimeHeap) (s : σ) (s' : τ) :
    (t.tick callback cur s).1 = (t.tick other cur s').1 := by
  unfold tick
  generalize t.curSize = fuel
  induction fuel generalizing t s s' with
  | zero => rfl
  | succ fuel inductionHypothesis =>
      unfold tickLoop
      by_cases empty : t.curSize = 0
      · rw [if_pos empty, if_pos empty]
      · rw [if_neg empty, if_neg empty]
        cases t.array 0 with
        | none => rfl
        | some root =>
            dsimp only
            by_cases early : cur < (t.timers root).expire
            · rw [if_pos early, if_pos early]
            · rw [if_neg early, if_neg early]
              exact inductionHypothesis _ _ _

/-- After a tick no active timer has expired. -/
theorem TimeHeap.WellFormed.later_of_tick {σ : Type u} {t : TimeHeap} (wellFormed : t.WellFormed)
    (callback : TimeHeap → TimerId → σ → σ) (cur : Int) (s : σ) {timer : TimerId}
    (member : some timer ∈ (t.tick callback cur s).1.entries)
    (active : ((t.tick callback cur s).1.timers timer).cbFunc = true) :
    cur < ((t.tick callback cur s).1.timers timer).expire := by
  rw [tick_heap callback record cur t s []] at member active ⊢
  have ticked := ticked_tick wellFormed cur
  have isActive : (t.tick record cur []).1.deadline timer ∈ (t.tick record cur []).1.active :=
    mem_active_iff.mpr ⟨member, active, rfl, rfl⟩
  rw [ticked.rest] at isActive
  exact (Multiset.mem_filter.mp isActive).2

namespace Reactor

open Descriptors

variable {r r' : Reactor}

/-! ## The heap in every run -/

theorem wellFormed_acceptLoop {accepts : List (Fd × Int)} (wellFormed : r.timerLst.WellFormed)
    (agree : Agree r.timerLst r.fds) (looped : r.acceptLoop accepts = some r') :
    r'.timerLst.WellFormed := by
  apply acceptLoop_invariant (fun r => r.timerLst.WellFormed) _ agree wellFormed looped
  intro r connfd time _ wellFormed _
  exact wellFormed.acceptTimer time connfd

theorem wellFormed_adjust {fd : Fd} (wellFormed : r.timerLst.WellFormed) :
    (r.adjust fd).timerLst.WellFormed := by
  unfold adjust
  cases (r.timerLst.user fd).timer with
  | none => exact wellFormed
  | some timer => exact wellFormed.adjustTimer r.now timer

theorem wellFormed_hangUp {fd : Fd} (wellFormed : r.timerLst.WellFormed) :
    (r.hangUp fd).timerLst.WellFormed := by
  unfold hangUp
  cases (r.timerLst.user fd).timer with
  | none => exact wellFormed
  | some timer => exact wellFormed.delTimer timer

theorem wellFormed_branch {fd : Fd} {flags : EpollEvents} {results : EventResults}
    (wellFormed : r.timerLst.WellFormed) (agree : Agree r.timerLst r.fds)
    (branch : Branch r fd flags results r') : r'.timerLst.WellFormed := by
  cases branch with
  | accepts accepted => exact wellFormed_acceptLoop wellFormed agree accepted
  | signals =>
      rcases signals_eq r results.signals with ⟨timeout, stopServer, same⟩
      rw [same]
      exact wellFormed
  | hangUp isLive => exact wellFormed_hangUp wellFormed
  | readable found reads stays => exact wellFormed_adjust wellFormed
  | writable found writes => exact wellFormed_adjust wellFormed
  | ignored => exact wellFormed

theorem wellFormed_tick {σ : Type u} {t : TimeHeap} (wellFormed : t.WellFormed)
    (callback : TimeHeap → TimerId → σ → σ) (cur : Int) (s : σ) :
    (t.tick callback cur s).1.WellFormed := by
  rw [TimeHeap.tick_heap callback TimeHeap.record cur t s []]
  exact (TimeHeap.ticked_tick wellFormed cur).wellFormed

theorem wellFormed_of_stepped (wellFormed : r.timerLst.WellFormed) (consistent : r.Consistent)
    {action : ReactorAction} (stepped : Stepped r action r') : r'.timerLst.WellFormed := by
  cases stepped with
  | waited idle reports => exact wellFormed
  | @handled fd flags results rest after pending branch =>
      have handled : after.timerLst.WellFormed :=
        wellFormed_branch wellFormed consistent.agree branch
      exact handled
  | finished done =>
      unfold Reactor.finish
      split
      · exact wellFormed_tick wellFormed _ _ _
      · exact wellFormed
  | clock time => exact wellFormed
  | sent sent =>
      rcases Option.map_eq_some_iff.mp sent with ⟨conn, found, rfl⟩
      exact wellFormed

/-- In every run the heap stays in order. -/
theorem wellFormed_of_reachable {allowed : Reactor → ReactorAction → Prop} {serverFd pipeRead : Fd}
    {inUse : Fd → Bool} (reached : Reachable next allowed (start serverFd pipeRead inUse) r) :
    r.timerLst.WellFormed := by
  apply invariant_of_stepped (fun r => r.timerLst.WellFormed) _ _ reached
  · exact TimeHeap.WellFormed.new (by decide)
  · intro state action successor _ consistent wellFormed _ stepped
    exact wellFormed_of_stepped wellFormed consistent stepped

/-! ## Deadlines -/

/-- Connections have their timers, which their elements of `users_timer` point to, and
a tick leaves those alone that had an event within three time slots. -/
structure Punctual (r : Reactor) : Prop where
  timed : ∀ fd, r.fds.live fd = true → ∃ inside : fd < maxFd, ∃ timer,
    (r.timerLst.usersTimer ⟨fd, inside⟩).timer = some timer ∧
      some timer ∈ r.timerLst.entries ∧ (r.timerLst.timers timer).freed = false ∧
        (r.timerLst.timers timer).cbFunc = true ∧
          (r.timerLst.timers timer).expire = r.fds.lastEvent fd + 3 * timeslot
  ticked : ∀ r', r.next .finish = some r' → r.timeout = true → ∀ fd, r'.fds.live fd = true →
    r.now - 3 * timeslot < r'.fds.lastEvent fd

/-- Every connection has an element of `users_timer`. -/
def WithinTable (fds : Descriptors) : Prop :=
  ∀ fd, fds.live fd = true → fd < maxFd

/-- `accept` returns descriptors below `MAX_FD` only. -/
def InTable : Reactor → ReactorAction → Prop :=
  Accepts (· < maxFd)

instance (r : Reactor) (action : ReactorAction) : Decidable (r.InTable action) :=
  inferInstanceAs (Decidable (∀ handled ∈ r.handling action, _ → _))

theorem lifecycle_withinTable : Lifecycle (· < maxFd) WithinTable := by
  constructor
  · intro fds within tables now connfd inside unused fd isLive
    rcases (tables.live_accept_iff unused).mp isLive with rfl | before
    · exact inside
    · exact within fd before
  · intro fds within tables fd other isLive
    exact within other (tables.live_removefd_iff.mp isLive).2
  · intro fds fds' within live _ _ _ fd isLive
    rw [live] at isLive
    exact within fd isLive

theorem later_of_finish (wellFormed : r.timerLst.WellFormed) (consistent : r.Consistent)
    (due : r.timeout = true) {fd : Fd} (isLive : r.finish.fds.live fd = true) :
    r.now < r.finish.fds.lastEvent fd + 3 * timeslot := by
  have agree := consistent.finish.agree
  rcases agree.linked.stored isLive with ⟨timer, -, member, value⟩
  have expire := congrArg UtilTimer.expire value
  have active := congrArg UtilTimer.cbFunc value
  have ticked : r.finish.timerLst =
      (r.timerLst.tick (Descriptors.cbFunc r.now) r.now r.fds).1 := by
    unfold finish
    rw [if_pos due]
  rw [ticked] at member expire active
  have later := wellFormed.later_of_tick _ _ _ member active
  rw [expire] at later
  exact later

/-- In every run of the loop, the timers are where they belong exactly as long as all
connections are within the array. -/
theorem punctual_iff {serverFd pipeRead : Fd} {inUse : Fd → Bool}
    {allowed : Reactor → ReactorAction → Prop}
    (reached : Reachable next allowed (start serverFd pipeRead inUse) r) :
    r.Punctual ↔ WithinTable r.fds := by
  have consistent := consistent_of_reachable reached
  constructor
  · intro punctual fd isLive
    obtain ⟨inside, -⟩ := punctual.timed fd isLive
    exact inside
  · intro within
    constructor
    · intro fd isLive
      have inside := within fd isLive
      rcases consistent.agree.linked.stored isLive with ⟨timer, stored, member, value⟩
      rw [TimeHeap.user, dif_pos inside] at stored
      refine ⟨inside, timer, stored, member, ?_⟩
      rw [value]
      exact ⟨rfl, rfl, rfl⟩
    · intro r' step due fd isLive
      cases stepped_of_next consistent step with
      | finished done =>
          have later := later_of_finish (wellFormed_of_reachable reached) consistent due isLive
          omega

/-- In every run of the loop in which `accept` returns descriptors below `MAX_FD`. -/
theorem punctual_of_reachable {serverFd pipeRead : Fd} {inUse : Fd → Bool}
    (reached : Reachable next InTable (start serverFd pipeRead inUse) r) : r.Punctual := by
  apply (punctual_iff reached).mpr
  apply lifecycle_of_reachable lifecycle_withinTable id _ reached
  intro fd isLive
  rw [start_live] at isLive
  cases isLive

/-- A connection that sent something at time 1 and is still there at the tick of
time 15. -/
theorem punctual_at_tick :
    ∃ r, Reachable next InTable exampleLoop r ∧
      (r.timeout = true ∧ r.batch = some [] ∧ r.fds.live 7 = true) ∧ r.Punctual := by
  have run : ∃ r, Reachable next InTable exampleLoop r ∧
      (r.timeout = true ∧ r.batch = some [] ∧ r.fds.live 7 = true) := by
    apply exists_reachable [.wait [(3, readableFlags)], .handle { accepts := [(7, 0)] }, .finish,
      .clock 1, .wait [(7, readableFlags)], .handle { recvs := [.received [0], .error EAGAIN] },
      .finish, .clock 15, .wait [(4, readableFlags)], .handle { signals := [14] }]
    · decide +kernel
    · decide +kernel
  rcases run with ⟨r, reached, shape⟩
  exact ⟨r, reached, shape, punctual_of_reachable reached⟩

/-- `accept` returns 65536.  The pointer to the timer of this connection is written behind
the array, and back at `epoll_wait` there is no element that holds it. -/
theorem unpunctual_behind_table :
    ∃ r, Reachable next Unrestricted exampleLoop r ∧ r.batch = none ∧
      r.fds.live 65536 = true ∧ (r.timerLst.behind 65536).timer = some 0 ∧ ¬ r.Punctual := by
  have run : ∃ r, Reachable next Unrestricted exampleLoop r ∧ r.batch = none ∧
      r.fds.live 65536 = true ∧ (r.timerLst.behind 65536).timer = some 0 := by
    apply exists_reachable [.wait [(3, readableFlags)], .handle { accepts := [(65536, 0)] },
      .finish]
    · exact Meets.unrestricted ..
    · decide +kernel
  rcases run with ⟨r, reached, idle, isLive, written⟩
  refine ⟨r, reached, idle, isLive, written, fun punctual => ?_⟩
  have inside := (punctual_iff reached).mp punctual 65536 isLive
  exact absurd inside (Nat.lt_irrefl 65536)

end Reactor

end Mprpc.Net
