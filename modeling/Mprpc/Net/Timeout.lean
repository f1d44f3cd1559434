import Mprpc.Net.Bookkeeping

/-!
# Which connections a timeout kicks

`tick` invokes the callback of an expired timer on the descriptor number that
the timer was made for.  This is right as long as every timer that is not
retired belongs to the connection that has this number now.  The branch for
hang-ups retires the timer of the connection that it removes; the branch for
readable events does not when `HandleRead` finds the end of the stream, and the
timer stays behind for the next connection with the number.
-/

namespace Mprpc.Net

open Mprpc.Transition

namespace TcpConnection

theorem act_state (conn : TcpConnection) {act : CallbackAct} (keeps : act ≠ .shutdown) :
    (conn.act act).state = conn.state := by
  cases act with
  | retrieve len => rfl
  | send msg ret => exact send_state conn msg ret
  | shutdown => exact absurd rfl keeps

theorem callback_state (conn : TcpConnection) {acts : List CallbackAct}
    (keeps : CallbackAct.shutdown ∉ acts) : (conn.callback acts).1.state = conn.state := by
  unfold callback
  induction acts generalizing conn with
  | nil => rfl
  | cons act acts inductionHypothesis =>
      rw [List.mem_cons, not_or] at keeps
      exact (inductionHypothesis _ keeps.2).trans (act_state conn (Ne.symm keeps.1))

/-- `HandleRead` keeps a connection that does not end. -/
theorem handleRead_connected {conn : TcpConnection} {acts : List CallbackAct}
    {rets : List RecvRet} (connected : conn.connected = true) (stays : endsStream rets = false)
    (keeps : CallbackAct.shutdown ∉ acts) :
    (conn.handleRead (callback acts) rets).1.connected = true := by
  have looped : (conn.recvLoop rets).state = conn.state := by
    rw [recvLoop_state, stays]
    rfl
  unfold handleRead TcpConnection.connected at *
  dsimp only
  split
  · rw [callback_state _ keeps, looped]
    exact connected
  · rw [looped]
    exact connected

end TcpConnection

/-- A kick of an idle connection by its own timer. -/
structure Kick.Rightful (kick : Kick) : Prop where
  present : kick.present = true
  stored : kick.stored = some kick.timer
  idle : kick.lastEvent + 3 * timeslot ≤ kick.cur

namespace Reactor

open Descriptors

variable {r r' : Reactor}

/-! ## The condition -/

/-- No connection ends in the branch for readable events: `HandleRead` meets
neither the end of the stream nor an error, and no callback shuts down. -/
def EndsByHangUp (r : Reactor) (action : ReactorAction) : Prop :=
  ∀ handled ∈ r.handling action, r.ReadsConnection handled.1 →
    TcpConnection.endsStream handled.2.recvs = false ∧
      CallbackAct.shutdown ∉ handled.2.acts

instance (r : Reactor) (action : ReactorAction) : Decidable (r.EndsByHangUp action) :=
  inferInstanceAs (Decidable (∀ handled ∈ r.handling action, _ → _))

/-! ## Every kick is rightful -/

/-- Timers that are not retired belong to connections, and did so at every kick
so far. -/
structure Timely (t : TimeHeap) (fds : Descriptors) : Prop where
  exclusive : t.Exclusive fds.live
  kicks : ∀ kick ∈ fds.kicks, kick.Rightful

theorem Timely.acceptLoop {accepts : List (Fd × Int)} (timely : Timely r.timerLst r.fds)
    (agree : Agree r.timerLst r.fds) (looped : r.acceptLoop accepts = some r') :
    Timely r'.timerLst r'.fds := by
  apply acceptLoop_invariant (fun r => Timely r.timerLst r.fds) _ agree timely looped
  intro r connfd time agree timely unused
  unfold accepted
  constructor
  · dsimp only
    rw [agree.tables.live_accept time unused]
    exact timely.exclusive.accept agree.linked time (agree.tables.unused unused).2
  · dsimp only
    rw [agree.tables.accept_eq time unused]
    exact timely.kicks

/-- The branch for hang-ups retires the timer of the connection it removes. -/
theorem Timely.hangUp {fd : Fd} (timely : Timely r.timerLst r.fds)
    (agree : Agree r.timerLst r.fds) (isLive : r.fds.live fd = true) :
    Timely (r.hangUp fd).timerLst (r.hangUp fd).fds := by
  rcases agree.linked.stored isLive with ⟨timer, stored, -⟩
  rcases agree.tables.removefd_eq fd with ⟨fdCalls, removed⟩
  unfold Reactor.hangUp
  rw [stored]
  constructor
  · dsimp only
    rw [agree.tables.live_removefd fd]
    exact timely.exclusive.del stored
  · dsimp only
    rw [removed]
    exact timely.kicks

/-- A connection that stays connected has a new timer in place of the old one. -/
theorem Timely.activity {fd : Fd} {conn : TcpConnection} (timely : Timely r.timerLst r.fds)
    (agree : Agree r.timerLst r.fds) (isLive : r.fds.live fd = true)
    (connected : conn.connected = true) :
    Timely ((r.adjust fd).settle fd conn).timerLst ((r.adjust fd).settle fd conn).fds := by
  rcases agree.linked.stored isLive with ⟨timer, stored, -⟩
  have live := live_replaced isLive conn
  have adjusted := timely.exclusive.adjust agree.linked r.now isLive stored
  rw [← live] at adjusted
  rw [settle_connected connected, rearm_eq, adjust_eq stored]
  exact ⟨adjusted, timely.kicks⟩

theorem Timely.branch {fd : Fd} {flags : EpollEvents} {results : EventResults}
    (timely : Timely r.timerLst r.fds) (agree : Agree r.timerLst r.fds)
    (each : Each (fun conn => conn.connected = true) r.fds) (branch : Branch r fd flags results r')
    (allowed : r.ReadsConnection (fd, flags) →
      TcpConnection.endsStream results.recvs = false ∧ CallbackAct.shutdown ∉ results.acts) :
    Timely r'.timerLst r'.fds := by
  cases branch with
  | accepts accepted => exact timely.acceptLoop agree accepted
  | signals =>
      rcases signals_eq r results.signals with ⟨timeout, stopServer, same⟩
      rw [same]
      exact timely
  | hangUp isLive => exact timely.hangUp agree isLive
  | @readable conn found reads stays =>
      have isLive := live_of_found found
      rcases allowed ⟨isLive, reads, stays⟩ with ⟨open', keeps⟩
      exact timely.activity agree isLive
        (TcpConnection.handleRead_connected (each fd conn found) open' keeps)
  | @writable conn found writes =>
      apply timely.activity agree (live_of_found found)
      rw [TcpConnection.handleWrite_connected]
      exact each fd conn found
  | ignored => exact timely

/-- A timer that fires belongs to a connection that has been idle for three
time slots. -/
theorem Timely.rightful {t : TimeHeap} {fds : Descriptors} {root : TimerId} {cur : Int}
    (timely : Timely t fds) (agree : Agree t fds) (member : some root ∈ t.entries)
    (expired : t.expire root ≤ cur) (active : (t.timers root).cbFunc = true) :
    (kickOf cur t root fds).Rightful := by
  rcases timely.exclusive root member active with ⟨isLive, stored⟩
  refine ⟨isLive, stored, ?_⟩
  have deadline := timely.exclusive.expire_eq agree.linked member active
  unfold kickOf
  dsimp only
  omega

theorem Timely.tick {t : TimeHeap} {fds : Descriptors} (timely : Timely t fds)
    (agree : Agree t fds) (cur : Int) :
    Timely (t.tick (cbFunc cur) cur fds).1 (t.tick (cbFunc cur) cur fds).2 := by
  apply (agree.tick_invariant cur Timely _ _ timely).2
  · intro t fds root agree timely many atRoot expired active
    have member := TimeHeap.root_mem_entries many atRoot
    rcases agree.kicked_eq member cur with ⟨fdCalls, kicked⟩
    constructor
    · rw [agree.live_kicked member]
      exact timely.exclusive.fire agree.linked many atRoot active
    · rw [kicked]
      intro kick recorded
      rcases List.mem_append.mp recorded with before | now
      · exact timely.kicks kick before
      · rw [List.mem_singleton.mp now]
        exact timely.rightful agree member expired active
  · intro t fds root agree timely many atRoot _
    exact ⟨timely.exclusive.drop agree.linked many atRoot, timely.kicks⟩

theorem Timely.of_stepped (timely : Timely r.timerLst r.fds) (consistent : r.Consistent)
    (each : Each (fun conn => conn.connected = true) r.fds) {action : ReactorAction}
    (allowed : r.EndsByHangUp action) (stepped : Stepped r action r') :
    Timely r'.timerLst r'.fds := by
  cases stepped with
  | waited idle reports => exact ⟨timely.exclusive, timely.kicks⟩
  | @handled fd flags results rest after pending branch =>
      have condition := allowed ((fd, flags), results) (by simp [handling, pending])
      have handled := timely.branch consistent.agree each branch condition
      exact handled
  | finished done =>
      unfold Reactor.finish
      split
      · exact timely.tick consistent.agree r.now
      · exact timely
  | clock time => exact timely
  | @sent fd msg ret after sent =>
      rcases Option.map_eq_some_iff.mp sent with ⟨conn, found, rfl⟩
      have isLive := live_of_found found
      have live := live_replaced isLive (conn.send msg ret)
      refine ⟨?_, timely.kicks⟩
      dsimp only
      rw [live]
      exact timely.exclusive

/-- In every run in which connections end by hang-ups alone, a timeout kicks
idle connections only. -/
theorem kicks_rightful {serverFd pipeRead : Fd} {inUse : Fd → Bool}
    (reached : Reachable next EndsByHangUp (start serverFd pipeRead inUse) r) :
    ∀ kick ∈ r.fds.kicks, kick.Rightful := by
  have timely : Timely r.timerLst r.fds := by
    apply invariant_of_stepped (fun r => Timely r.timerLst r.fds) _ _ reached
    · constructor
      · have none := funext (start_live serverFd pipeRead inUse)
        rw [none]
        exact TimeHeap.exclusive_new 10000
      · intro kick recorded
        rw [start_kicks] at recorded
        cases recorded
    · intro state action successor before consistent timely allowed stepped
      exact timely.of_stepped consistent (connected_of_reachable before) allowed stepped
  exact timely.kicks

/-- A connection whose peer has closed is removed at time 1, and its timer stays
active.  The next connection gets the same descriptor at time 10 and is kicked
at time 16. -/
theorem young_connection_kicked :
    ∃ r, Reachable next Unrestricted exampleLoop r ∧
      ∃ kick ∈ r.fds.kicks, kick.present = true ∧ kick.stored ≠ some kick.timer ∧
        kick.cur < kick.lastEvent + 3 * timeslot := by
  apply exists_reachable [.wait [(3, readableFlags)], .handle { accepts := [(7, 0)] }, .finish,
    .clock 1, .wait [(7, readableFlags)], .handle { recvs := [.received [0], .received []] },
    .finish, .clock 10, .wait [(3, readableFlags)], .handle { accepts := [(7, 10)] }, .finish,
    .clock 16, .wait [(4, readableFlags)], .handle { signals := [14] }, .finish]
  · exact Meets.unrestricted ..
  · decide +kernel

/-- A connection that sends something at time 1 is kicked at time 16, not before. -/
theorem idle_connection_kicked :
    ∃ r, Reachable next EndsByHangUp exampleLoop r ∧
      ∃ kick ∈ r.fds.kicks, kick.timer = 1 ∧ kick.Rightful := by
  have run : ∃ r, Reachable next EndsByHangUp exampleLoop r ∧
      ∃ kick ∈ r.fds.kicks, kick.timer = 1 := by
    apply exists_reachable [.wait [(3, readableFlags)], .handle { accepts := [(7, 0)] }, .finish,
      .clock 1, .wait [(7, readableFlags)], .handle { recvs := [.received [0], .error EAGAIN] },
      .finish, .clock 15, .wait [(4, readableFlags)], .handle { signals := [14] }, .finish,
      .clock 16, .wait [(4, readableFlags)], .handle { signals := [14] }, .finish]
    · decide +kernel
    · decide +kernel
  rcases run with ⟨r, reached, kick, recorded, timer⟩
  exact ⟨r, reached, kick, recorded, timer, kicks_rightful reached kick recorded⟩

end Reactor

end Mprpc.Net
