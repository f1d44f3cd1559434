import Mprpc.Net.IdleDeadline

/-!
# The last event of a connection

As long as the clock stands still, a step of the loop either leaves the last
event of a connection alone or dates it now.
-/

namespace Mprpc.Net

open Mprpc.Transition

namespace Reactor

open Descriptors

variable {r r' : Reactor}

/-- Where the last event of a connection can come from in one step. -/
def Dated (r r' : Reactor) : Prop :=
  r'.now = r.now ∧ ∀ fd, r'.fds.live fd = true →
    r'.fds.lastEvent fd = r.now ∨
      (r.fds.live fd = true ∧ r'.fds.lastEvent fd = r.fds.lastEvent fd)

theorem Dated.refl (r : Reactor) : Dated r r :=
  ⟨rfl, fun _ isLive => .inr ⟨isLive, rfl⟩⟩

theorem Dated.trans {r₁ r₂ r₃ : Reactor} (first : Dated r₁ r₂) (second : Dated r₂ r₃) :
    Dated r₁ r₃ := by
  refine ⟨second.1.trans first.1, ?_⟩
  intro fd isLive
  rcases second.2 fd isLive with now | ⟨before, same⟩
  · exact .inl (now.trans first.1)
  · rw [same]
    exact first.2 fd before

/-- Connections go, and nothing else happens. -/
theorem dated_of_fewer (now : r'.now = r.now)
    (fewer : ∀ fd, r'.fds.live fd = true → r.fds.live fd = true)
    (lastEvent : r'.fds.lastEvent = r.fds.lastEvent) : Dated r r' := by
  refine ⟨now, fun fd isLive => .inr ⟨fewer fd isLive, ?_⟩⟩
  rw [lastEvent]

theorem dated_accepted (agree : Agree r.timerLst r.fds) {connfd : Fd}
    (unused : r.fds.isOpen connfd = false) : Dated r (r.accepted connfd r.now) := by
  refine ⟨rfl, ?_⟩
  intro fd isLive
  unfold accepted
  dsimp only
  rw [agree.tables.accept_eq r.now unused]
  by_cases same : fd = connfd
  · left
    rw [same]
    exact Function.update_self ..
  · right
    have before := ((agree.tables.live_accept_iff unused).mp isLive).resolve_left same
    exact ⟨before, Function.update_of_ne same ..⟩

theorem dated_acceptLoop {accepts : List (Fd × Int)} (agree : Agree r.timerLst r.fds)
    (clocked : ∀ accepted ∈ accepts, accepted.2 = r.now)
    (looped : r.acceptLoop accepts = some r') : Dated r r' := by
  apply acceptLoop_known (fun _ time => time = r.now) (Dated r) _ agree (.refl r) clocked looped
  intro middle connfd time timely agree dated unused
  rw [timely, ← dated.1]
  exact dated.trans (dated_accepted agree unused)

theorem dated_activity {fd : Fd} {conn : TcpConnection} (agree : Agree r.timerLst r.fds)
    (isLive : r.fds.live fd = true) (sameFd : conn.fd = fd) :
    Dated r ((r.adjust fd).settle fd conn) := by
  have adjusted := handled_adjust agree isLive
  have stillLive : (r.adjust fd).fds.live fd = true := isLive
  have set := adjusted.agree.tables.setConnection stillLive sameFd
  have live := live_replaced stillLive conn
  have touched : Dated r (r.adjust fd) := by
    refine ⟨rfl, ?_⟩
    intro other otherLive
    by_cases same : other = fd
    · left
      rw [same]
      exact Function.update_self ..
    · right
      exact ⟨otherLive, Function.update_of_ne same ..⟩
  refine touched.trans ?_
  cases connected : conn.connected with
  | true =>
      rw [settle_connected connected]
      apply dated_of_fewer
      · rfl
      · intro other otherLive
        rw [← live]
        rw [Descriptors.rearm_eq] at otherLive
        exact otherLive
      · dsimp only
        rw [Descriptors.rearm_eq]
        rfl
  | false =>
      rw [settle_disconnected connected]
      apply dated_of_fewer
      · rfl
      · intro other otherLive
        dsimp only at otherLive
        rw [← live]
        exact (set.live_removefd_iff.mp otherLive).2
      · rcases set.removefd_eq fd with ⟨fdCalls, removed⟩
        dsimp only
        rw [removed]
        rfl

theorem dated_tick {t : TimeHeap} {fds : Descriptors} (agree : Agree t fds) (cur : Int) :
    (∀ fd, (t.tick (cbFunc cur) cur fds).2.live fd = true → fds.live fd = true) ∧
      (t.tick (cbFunc cur) cur fds).2.lastEvent = fds.lastEvent := by
  apply (agree.tick_invariant cur (fun _ now =>
    (∀ fd, now.live fd = true → fds.live fd = true) ∧ now.lastEvent = fds.lastEvent) _ _
      ⟨fun _ isLive => isLive, rfl⟩).2
  · rintro t now root agree ⟨fewer, same⟩ many atRoot _ _
    have member := TimeHeap.root_mem_entries many atRoot
    rcases agree.kicked_eq member cur with ⟨fdCalls, kicked⟩
    constructor
    · intro fd isLive
      rw [agree.cbFunc_eq member] at isLive
      exact fewer fd ((agree.record _).live_removefd_iff.mp isLive).2
    · rw [kicked]
      exact same
  · rintro t now root _ kept _ _ _
    exact kept

theorem dated_branch {fd : Fd} {flags : EpollEvents} {results : EventResults}
    (agree : Agree r.timerLst r.fds) (clocked : ∀ accepted ∈ results.accepts, accepted.2 = r.now)
    (branch : Branch r fd flags results r') : Dated r r' := by
  cases branch with
  | accepts accepted => exact dated_acceptLoop agree clocked accepted
  | signals =>
      rcases signals_eq r results.signals with ⟨timeout, stopServer, same⟩
      rw [same]
      exact dated_of_fewer rfl (fun _ isLive => isLive) rfl
  | hangUp isLive =>
      rcases agree.tables.removefd_eq fd with ⟨fdCalls, removed⟩
      apply dated_of_fewer
      · rfl
      · intro other otherLive
        exact (agree.tables.live_removefd_iff.mp otherLive).2
      · unfold Reactor.hangUp
        rw [removed]
  | readable found reads stays =>
      apply dated_activity agree (live_of_found found)
      rw [TcpConnection.handleRead_fd, agree.tables.fd_eq found]
  | writable found writes =>
      apply dated_activity agree (live_of_found found)
      rw [TcpConnection.handleWrite_fd, agree.tables.fd_eq found]
  | ignored => exact .refl r

/-- One step of the loop, on a clock that stands still. -/
theorem dated_of_stepped (consistent : r.Consistent) {action : ReactorAction}
    (clocked : ∀ results, action = .handle results →
      ∀ accepted ∈ results.accepts, accepted.2 = r.now)
    (still : ∀ time, action ≠ .clock time) (stepped : Stepped r action r') : Dated r r' := by
  cases stepped with
  | waited idle reports => exact dated_of_fewer rfl (fun _ isLive => isLive) rfl
  | handled pending branch =>
      have handled := dated_branch consistent.agree (clocked _ rfl) branch
      exact handled
  | finished done =>
      unfold Reactor.finish
      split
      · have ticked := dated_tick consistent.agree r.now
        exact dated_of_fewer rfl ticked.1 ticked.2
      · exact dated_of_fewer rfl (fun _ isLive => isLive) rfl
  | clock time => exact absurd rfl (still time)
  | @sent fd msg ret after sent =>
      rcases Option.map_eq_some_iff.mp sent with ⟨conn, found, rfl⟩
      have live := live_replaced (live_of_found found) (conn.send msg ret)
      apply dated_of_fewer
      · rfl
      · intro other isLive
        rw [← live]
        exact isLive
      · rfl

end Reactor

end Mprpc.Net
