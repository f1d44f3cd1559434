import Mprpc.Net.IdleDeadline
import Mprpc.Net.Lifecycle
import Mprpc.Net.Timeout

/-!
# How often a descriptor is closed

`removefd` closes the number of a connection and then erases the connection,
whose destructor closes the number again.  In between, or before a stale timer
closes it a third time, the number may belong to somebody else.  Every
connection that ends is closed at least twice, so the loop closes nothing twice
just as long as no connection ends.

`FdCall.closed` counts against the last `accept` that returned the number, even
if another thread has opened a descriptor with that number since.
-/

namespace Mprpc.Net

open Mprpc.Transition

/-- The calls until `accept` returns the descriptor again. -/
def ownership (fd : Fd) (after : List FdCall) : List FdCall :=
  after.takeWhile fun call => call != .accepted fd

/-- No accepted descriptor is closed twice before it is returned again. -/
def ClosedOnce (calls : List FdCall) : Prop :=
  ∀ before fd after, calls = before ++ .accepted fd :: after →
    (ownership fd after).count (.closed fd) ≤ 1

/-- A call at the end is the accepted one or comes after it. -/
theorem split_of_concat {calls before after : List FdCall} {call : FdCall} {fd : Fd}
    (split : calls ++ [call] = before ++ .accepted fd :: after) :
    (∃ earlier, after = earlier ++ [call] ∧ calls = before ++ .accepted fd :: earlier) ∨
      (call = .accepted fd ∧ after = []) := by
  rcases List.eq_nil_or_concat after with rfl | ⟨earlier, last, rfl⟩
  · right
    have same := List.append_inj' split rfl
    exact ⟨List.head_eq_of_cons_eq same.2, rfl⟩
  · left
    rw [List.concat_eq_append, ← List.cons_append, ← List.append_assoc] at split
    have same := List.append_inj' split rfl
    exact ⟨earlier, by rw [List.concat_eq_append, List.head_eq_of_cons_eq same.2], same.1⟩

/-- Later calls take nothing back. -/
theorem count_ownership_le (fd : Fd) (after later : List FdCall) :
    (ownership fd after).count (.closed fd) ≤
      (ownership fd (after ++ later)).count (.closed fd) := by
  unfold ownership
  rw [List.takeWhile_append]
  split
  · rename_i whole
    have same : after.takeWhile (fun call => call != .accepted fd) = after :=
      (List.takeWhile_prefix _).eq_of_length whole
    rw [same, List.count_append]
    exact Nat.le_add_right _ _
  · exact Nat.le_refl _

/-- A number that is not returned again. -/
theorem ownership_eq_self {fd : Fd} {after : List FdCall} (never : .accepted fd ∉ after) :
    ownership fd after = after := by
  induction after with
  | nil => rfl
  | cons call after ih =>
      rw [List.mem_cons, not_or] at never
      unfold ownership
      rw [List.takeWhile_cons_of_pos (by simpa using Ne.symm never.1)]
      congr 1
      exact ih never.2

namespace Descriptors

/-- Connections have not been closed, and what has ended was closed twice. -/
def EndedTwice (fds : Descriptors) : Prop :=
  ∀ before fd after, fds.fdCalls = before ++ .accepted fd :: after →
    (fds.live fd = true ∧ .accepted fd ∉ after ∧ .closed fd ∉ after) ∨
      2 ≤ (ownership fd after).count (.closed fd)

variable {fds fds' : Descriptors}

/-- One more call, on a descriptor that has no connection any more. -/
theorem EndedTwice.concat (ended : fds.EndedTwice) {call : FdCall}
    (calls : fds'.fdCalls = fds.fdCalls ++ [call])
    (others : ∀ fd, call = .accepted fd ∨ call = .closed fd →
      fds.live fd = false ∧ (call = .accepted fd → fds'.live fd = true))
    (kept : ∀ fd, call ≠ .accepted fd → call ≠ .closed fd → fds'.live fd = fds.live fd) :
    fds'.EndedTwice := by
  intro before fd after split
  rw [calls] at split
  rcases split_of_concat split with ⟨earlier, rfl, splitBefore⟩ | ⟨rfl, rfl⟩
  · rcases ended before fd earlier splitBefore with ⟨isLive, notAccepted, notClosed⟩ | twice
    · by_cases accepts : call = .accepted fd
      · rw [(others fd (.inl accepts)).1] at isLive
        cases isLive
      · by_cases closes : call = .closed fd
        · rw [(others fd (.inr closes)).1] at isLive
          cases isLive
        · left
          rw [kept fd accepts closes]
          simp [isLive, notAccepted, notClosed, Ne.symm accepts, Ne.symm closes]
    · exact .inr (twice.trans (count_ownership_le fd earlier [call]))
  · left
    exact ⟨(others fd (.inl rfl)).2 rfl, List.not_mem_nil, List.not_mem_nil⟩

/-- A connection ends: its descriptor is closed twice. -/
theorem EndedTwice.end (ended : fds.EndedTwice) {fd : Fd}
    (calls : fds'.fdCalls = fds.fdCalls ++ [.closed fd, .closed fd])
    (kept : ∀ other, other ≠ fd → fds'.live other = fds.live other) : fds'.EndedTwice := by
  intro before other after split
  rw [calls, ← List.singleton_append, ← List.append_assoc] at split
  rcases split_of_concat split with ⟨earlier, rfl, splitOnce⟩ | ⟨accepted, -⟩
  · rcases split_of_concat splitOnce with ⟨first, rfl, splitBefore⟩ | ⟨accepted, -⟩
    · rcases ended before other first splitBefore with ⟨isLive, notAccepted, notClosed⟩ | twice
      · by_cases same : other = fd
        · subst same
          right
          rw [ownership_eq_self (by simp [notAccepted])]
          simp
        · left
          rw [kept other same]
          simp [isLive, notAccepted, notClosed, same]
      · right
        rw [List.append_assoc]
        exact twice.trans (count_ownership_le other first _)
    · cases accepted
  · cases accepted

theorem EndedTwice.removefd (ended : fds.EndedTwice) (tables : fds.Tables) (fd : Fd) :
    (fds.removefd fd).EndedTwice := by
  have calls := removefd_fdCalls tables fd
  have live := tables.live_removefd fd
  have kept : ∀ other, other ≠ fd → (fds.removefd fd).live other = fds.live other := by
    intro other different
    rw [live, Function.update_of_ne different]
  cases isLive : fds.live fd with
  | true =>
      rw [isLive, if_pos rfl] at calls
      exact ended.end calls kept
  | false =>
      rw [isLive, if_neg Bool.false_ne_true] at calls
      apply ended.concat calls
      · intro other same
        rcases same with accepts | closes
        · cases accepts
        · cases closes
          exact ⟨isLive, fun accepts => by cases accepts⟩
      · intro other _ notClosed
        apply kept
        rintro rfl
        exact notClosed rfl

theorem EndedTwice.accept (ended : fds.EndedTwice) (tables : fds.Tables) (now : Int) {connfd : Fd}
    (unused : fds.isOpen connfd = false) : (fds.accept now connfd).EndedTwice := by
  have live := tables.live_accept now unused
  have calls : (fds.accept now connfd).fdCalls = fds.fdCalls ++ [.accepted connfd] := by
    rw [tables.accept_eq now unused]
  apply ended.concat calls
  · intro other same
    rcases same with accepts | closes
    · cases accepts
      refine ⟨(tables.unused unused).2, fun _ => ?_⟩
      rw [live, Function.update_self]
    · cases closes
  · intro other notAccepted _
    have different : other ≠ connfd := by
      rintro rfl
      exact notAccepted rfl
    rw [live, Function.update_of_ne different]

theorem lifecycle_endedTwice : Lifecycle (fun _ => True) EndedTwice := by
  constructor
  · intro fds ended tables now connfd _ unused
    exact ended.accept tables now unused
  · intro fds ended tables fd
    exact ended.removefd tables fd
  · intro fds fds' ended live calls _ _ before fd after split
    rw [calls] at split
    rw [live]
    exact ended before fd after split

end Descriptors

namespace Reactor

open Descriptors

variable {r r' : Reactor}

/-! ## Every connection that ends -/

/-- In every run, the descriptor of a connection that has ended was closed twice
or more. -/
theorem closed_twice_of_ended {allowed : Reactor → ReactorAction → Prop} {serverFd pipeRead : Fd}
    {inUse : Fd → Bool} (reached : Reachable next allowed (start serverFd pipeRead inUse) r)
    {before after : List FdCall} {fd : Fd}
    (split : r.fds.fdCalls = before ++ .accepted fd :: after)
    (gone : r.fds.live fd = false ∨ .accepted fd ∈ after) :
    2 ≤ (ownership fd after).count (.closed fd) := by
  have ended : r.fds.EndedTwice := by
    apply lifecycle_of_reachable lifecycle_endedTwice (fun _ => accepts_true _) _ reached
    intro before fd after split
    rw [start_fdCalls] at split
    cases before <;> cases split
  rcases ended before fd after split with ⟨isLive, notAccepted, -⟩ | twice
  · rcases gone with notLive | again
    · rw [isLive] at notLive
      cases notLive
    · exact absurd again notAccepted
  · exact twice

/-! ## Runs in which no connection ends -/

/-- A handled event does not hang its connection up, and `HandleRead` meets
neither the end of the stream nor an error and its callback does not shut down;
a tick comes before all active timers. -/
def KeepsOpen (r : Reactor) : ReactorAction → Prop
  | .handle results =>
      ∀ handled ∈ r.handling (.handle results), r.fds.live handled.1.1 = true →
        handled.1.2.hangsUp = false ∧
          (handled.1.2.epollin = true → TcpConnection.endsStream handled.2.recvs = false ∧
            CallbackAct.shutdown ∉ handled.2.acts)
  | .finish => r.timeout = true → ∀ entry ∈ r.timerLst.active, r.now < entry.expire
  | _ => True

instance (r : Reactor) : (action : ReactorAction) → Decidable (r.KeepsOpen action)
  | .handle _ => inferInstanceAs (Decidable (∀ handled ∈ _, _ → _))
  | .finish => inferInstanceAs (Decidable (_ → ∀ entry ∈ r.timerLst.active, _))
  | .wait _ => isTrue trivial
  | .clock _ => isTrue trivial
  | .send _ _ _ => isTrue trivial

/-- No descriptor has been closed. -/
def NothingClosed (fds : Descriptors) : Prop :=
  ∀ fd, .closed fd ∉ fds.fdCalls

theorem NothingClosed.closedOnce {fds : Descriptors} (nothing : NothingClosed fds) :
    ClosedOnce fds.fdCalls := by
  intro before fd after split
  have never : .closed fd ∉ ownership fd after := by
    intro closed
    apply nothing fd
    rw [split]
    have inside := (List.takeWhile_prefix _).subset closed
    exact List.mem_append_right _ (List.mem_cons_of_mem _ inside)
  rw [List.count_eq_zero_of_not_mem never]
  exact Nat.zero_le 1

theorem nothingClosed_activity {fd : Fd} {conn : TcpConnection} (nothing : NothingClosed r.fds)
    (connected : conn.connected = true) :
    NothingClosed ((r.adjust fd).settle fd conn).fds := by
  rw [settle_connected connected, rearm_eq]
  exact nothing

theorem nothingClosed_branch {fd : Fd} {flags : EpollEvents} {results : EventResults}
    (nothing : NothingClosed r.fds) (agree : Agree r.timerLst r.fds)
    (each : Each (fun conn => conn.connected = true) r.fds)
    (keeps : r.fds.live fd = true → flags.hangsUp = false ∧
      (flags.epollin = true → TcpConnection.endsStream results.recvs = false ∧
        CallbackAct.shutdown ∉ results.acts))
    (branch : Branch r fd flags results r') : NothingClosed r'.fds := by
  cases branch with
  | accepts accepted =>
      apply acceptLoop_invariant (fun r => NothingClosed r.fds) _ agree nothing accepted
      intro r connfd time agree nothing unused
      unfold Reactor.accepted
      rw [agree.tables.accept_eq time unused]
      intro fd closed
      rcases List.mem_append.mp closed with before | now
      · exact nothing fd before
      · cases List.mem_singleton.mp now
  | signals =>
      rcases signals_eq r results.signals with ⟨timeout, stopServer, same⟩
      rw [same]
      exact nothing
  | hangUp isLive hangsUp =>
      rw [(keeps isLive).1] at hangsUp
      cases hangsUp
  | @readable conn found reads stays =>
      rcases (keeps (live_of_found found)).2 reads with ⟨open', noShutdown⟩
      exact nothingClosed_activity nothing
        (TcpConnection.handleRead_connected (each fd conn found) open' noShutdown)
  | @writable conn found writes =>
      apply nothingClosed_activity nothing
      rw [TcpConnection.handleWrite_connected]
      exact each fd conn found
  | ignored => exact nothing

/-- A tick before all deadlines leaves the tables alone. -/
theorem tick_before {t : TimeHeap} {fds : Descriptors} (agree : Agree t fds)
    (wellFormed : t.WellFormed) {cur : Int} (later : ∀ entry ∈ t.active, cur < entry.expire) :
    (t.tick (cbFunc cur) cur fds).2 = fds := by
  apply (agree.tick_invariant cur (fun t now => t.WellFormed ∧
    (∀ entry ∈ t.active, cur < entry.expire) ∧ now = fds) _ _ ⟨wellFormed, later, rfl⟩).2.2.2
  · rintro t fds root _ ⟨wellFormed, later, _⟩ many atRoot expired active
    have member : t.deadline root ∈ t.active :=
      TimeHeap.mem_active_iff.mpr ⟨TimeHeap.root_mem_entries many atRoot, active, rfl, rfl⟩
    exact absurd (later _ member) (Int.not_lt.mpr expired)
  · rintro t fds root _ ⟨wellFormed, later, same⟩ many atRoot retired
    rw [wellFormed.active_of_drop many atRoot retired] at later
    exact ⟨wellFormed.popTimer, later, same⟩

theorem nothingClosed_of_stepped (nothing : NothingClosed r.fds) (consistent : r.Consistent)
    (wellFormed : r.timerLst.WellFormed)
    (each : Each (fun conn => conn.connected = true) r.fds) {action : ReactorAction}
    (keeps : r.KeepsOpen action) (stepped : Stepped r action r') : NothingClosed r'.fds := by
  cases stepped with
  | waited idle reports => exact nothing
  | @handled fd flags results rest after pending branch =>
      have condition := keeps ((fd, flags), results) (by simp [handling, pending])
      have handled := nothingClosed_branch nothing consistent.agree each condition branch
      exact handled
  | finished done =>
      unfold Reactor.finish
      split
      · rename_i due
        dsimp only
        rw [tick_before consistent.agree wellFormed (keeps due)]
        exact nothing
      · exact nothing
  | clock time => exact nothing
  | sent sent =>
      rcases Option.map_eq_some_iff.mp sent with ⟨conn, found, rfl⟩
      exact nothing

/-- In every run in which no connection ends, no descriptor is closed twice. -/
theorem closed_once {serverFd pipeRead : Fd} {inUse : Fd → Bool}
    (reached : Reachable next KeepsOpen (start serverFd pipeRead inUse) r) :
    ClosedOnce r.fds.fdCalls := by
  have nothing : NothingClosed r.fds := by
    apply invariant_of_stepped (fun r => NothingClosed r.fds) _ _ reached
    · intro fd
      rw [start_fdCalls]
      exact List.not_mem_nil
    · intro state action successor before consistent nothing keeps stepped
      exact nothingClosed_of_stepped nothing consistent (wellFormed_of_reachable before)
        (connected_of_reachable before) keeps stepped
  exact nothing.closedOnce

/-- A connection that hangs up is closed by `removefd` and by its destructor. -/
theorem closed_twice_by_hangUp :
    ∃ r, Reachable next Unrestricted exampleLoop r ∧ ¬ ClosedOnce r.fds.fdCalls := by
  have run : ∃ r, Reachable next Unrestricted exampleLoop r ∧
      r.fds.fdCalls = [.accepted 7, .closed 7, .closed 7] := by
    apply exists_reachable [.wait [(3, readableFlags)], .handle { accepts := [(7, 0)] }, .finish,
      .wait [(7, { epollrdhup := true })], .handle {}, .finish]
    · exact Meets.unrestricted ..
    · decide +kernel
  rcases run with ⟨r, reached, calls⟩
  refine ⟨r, reached, fun once => ?_⟩
  have twice := once [] 7 [.closed 7, .closed 7] calls
  revert twice
  decide

/-- A connection that sends something and is still there after a tick. -/
theorem closed_once_after_tick :
    ∃ r, Reachable next KeepsOpen exampleLoop r ∧ r.fds.live 7 = true ∧
      ClosedOnce r.fds.fdCalls := by
  have run : ∃ r, Reachable next KeepsOpen exampleLoop r ∧ r.fds.live 7 = true := by
    apply exists_reachable [.wait [(3, readableFlags)], .handle { accepts := [(7, 0)] }, .finish,
      .clock 5, .wait [(7, readableFlags)], .handle { recvs := [.received [0], .error EAGAIN] },
      .finish, .clock 15, .wait [(4, readableFlags)], .handle { signals := [14] }, .finish]
    · decide +kernel
    · decide +kernel
  rcases run with ⟨r, reached, isLive⟩
  exact ⟨r, reached, isLive, closed_once reached⟩

end Reactor

end Mprpc.Net
