import Mprpc.Client.Ownership
import Mprpc.Deployment.Core
import Mprpc.Net.LastEvent

/-!
# Idle connections that the server has closed

The pool keeps an idle connection for `m_maxIdleTime` seconds, a minute, and the
server for three time slots, a quarter of that.  A connection is gone exactly if
the server has made a tick three time slots or more after its last event, so
`GetConnection` is safe as long as it takes a connection before that.
-/

namespace Mprpc.Deployment

open Mprpc.Client
open Mprpc.Net
open Mprpc.Net.Reactor (readableFlags)
open Mprpc.Rpc
open Mprpc.Transition

universe u

namespace ClientServer

variable {Msg : Type u} {d d' : ClientServer Msg}

/-! ## The condition -/

/-- The front of the queue that a call looks at. -/
def front (client : ClientState Msg) : ClientAction Msg → Option ConnectionItem
  | .enter i => (client.calls[i]?).bind fun call => (client.pool.queue call.endpoint.key).head?
  | _ => none

/-- The server has made no tick three time slots or more after the last event of
a connection that a call is about to take, unless the connection was lost in
another way. -/
def InTime (d : ClientServer Msg) : ClientServerAction Msg → Prop
  | .client action =>
      ∀ item ∈ front d.client action, ∀ link ∈ d.links, link.fd = item.fd →
        link.ended ≠ some .other → ∀ cur ∈ d.lastTick, cur < link.lastEvent + 3 * timeslot
  | _ => True

instance (d : ClientServer Msg) : (action : ClientServerAction Msg) → Decidable (d.InTime action)
  | .client action =>
      inferInstanceAs (Decidable (∀ item ∈ front d.client action, ∀ link ∈ d.links,
        link.fd = item.fd → link.ended ≠ some .other →
          ∀ cur ∈ d.lastTick, cur < link.lastEvent + 3 * timeslot))
  | .server _ | .link _ _ => isTrue trivial

theorem reused_eq_some_iff {client : ClientState Msg} {action : ClientAction Msg} {fd : Fd} :
    reused client action = some fd ↔ ∃ item ∈ front client action, item.fd = fd := by
  cases action with
  | enter i =>
      cases found : client.calls[i]? with
      | none => simp [reused, front, found]
      | some call =>
          cases queued : client.pool.queue call.endpoint.key with
          | nil =>
              by_cases ready : client.pool.ready call.endpoint.key = true
              · simp [reused, front, found, ConnectionPool.getConnection, queued, ready]
              · simp [reused, front, found, ConnectionPool.getConnection, queued, ready]
          | cons item rest =>
              simp [reused, front, found, ConnectionPool.getConnection, queued]
  | _ => simp [reused, front]

/-- What `GetConnection` took is what its call holds afterwards. -/
theorem holds_of_reused {client after : ClientState Msg} {i : Nat} {fd : Fd}
    (step : client.next (.enter i) = some after) (taken : reused client (.enter i) = some fd) :
    after.Holds i fd := by
  rcases Option.bind_eq_some_iff.mp taken with ⟨call, found, acquired⟩
  split at acquired
  · rename_i other pool result
    cases acquired
    have moved : after = client.getConnection i call := by
      simp only [ClientState.next, found, Option.bind_some] at step
      split at step
      · cases step
        rfl
      · cases step
        rfl
      · cases step
    rw [moved]
    unfold ClientState.getConnection
    rw [result]
    refine ⟨{ call with pc := .sending fd }, ?_, rfl⟩
    exact List.getElem?_set_self (ClientState.lt_of_found found)
  · cases acquired

/-! ## Which connections are gone -/

/-- What holds of both sides in every run. -/
structure Sound (serverFd pipeRead : Fd) (inUse : Fd → Bool) (d : ClientServer Msg) : Prop where
  reached : Reachable Reactor.next Unrestricted (Reactor.start serverFd pipeRead inUse) d.server
  clock : d.server.now = seconds d.client.now
  past : ∀ cur ∈ d.lastTick, cur ≤ d.server.now
  fresh : ∀ fd, d.server.fds.live fd = true →
    ∀ cur ∈ d.lastTick, cur < d.server.fds.lastEvent fd + 3 * timeslot
  current : ∀ link ∈ d.links, link.ended = none → d.server.fds.live link.connfd = true ∧
    link.lastEvent = d.server.fds.lastEvent link.connfd
  expired : ∀ link ∈ d.links, link.ended = some .expired →
    ∃ cur ∈ d.lastTick, link.lastEvent + 3 * timeslot ≤ cur

namespace Sound

variable {serverFd pipeRead : Fd} {inUse : Fd → Bool}

theorem afterClient (sound : d.Sound serverFd pipeRead inUse) {action : ClientAction Msg}
    {client : ClientState Msg} (step : d.client.next action = some client) :
    (d.afterClient action client).Sound serverFd pipeRead inUse := by
  have later := ClientState.now_le_of_stepped (ClientState.stepped_of_next step)
  constructor
  · have ticked : d.server.next (.clock (seconds client.now)) =
        some { d.server with now := seconds client.now } := rfl
    exact sound.reached.tail trivial ticked
  · rfl
  · intro cur ticked
    have before := sound.past cur ticked
    rw [sound.clock] at before
    refine before.trans ?_
    exact Int.ofNat_le.mpr (Nat.div_le_div_right later)
  · exact sound.fresh
  · intro link member
    exact sound.current link (List.mem_filter.mp member).1
  · intro link member
    exact sound.expired link (List.mem_filter.mp member).1

/-- A connection that has not ended is at the server, and its last event is known. -/
theorem observe_current {action : ReactorAction} {server server' : Reactor} {link : Link}
    (going : (link.observe action server server').ended = none) :
    server'.fds.live link.connfd = true ∧
      link.observe action server server' =
        { link with lastEvent := server'.fds.lastEvent link.connfd } := by
  cases ended : link.ended with
  | some ending =>
      rw [Link.observe_of_ended ended, ended] at going
      cases going
  | none =>
      simp only [Link.observe, ended, Option.isSome_none, Bool.false_eq_true, if_false] at going ⊢
      split at going
      · rename_i isLive
        rw [if_pos isLive]
        exact ⟨isLive, rfl⟩
      · split at going
        · cases going
        · cases going

/-- A connection that has expired did so in this step or before. -/
theorem observe_expired {action : ReactorAction} {server server' : Reactor} {link : Link}
    (gone : (link.observe action server server').ended = some .expired) :
    (link.observe action server server').lastEvent = link.lastEvent ∧
      (link.ended = some .expired ∨
        ticks server action = true ∧ link.lastEvent + 3 * timeslot ≤ server.now) := by
  cases ended : link.ended with
  | some ending =>
      rw [Link.observe_of_ended ended] at gone ⊢
      exact ⟨rfl, .inl (ended.symm.trans gone)⟩
  | none =>
      simp only [Link.observe, ended, Option.isSome_none, Bool.false_eq_true, if_false] at gone ⊢
      split at gone
      · cases gone
      · rename_i notLive
        rw [if_neg notLive]
        split at gone
        · rename_i expired
          rw [if_pos expired]
          exact ⟨rfl, .inr expired⟩
        · cases gone

/-- Only the end of a batch with a due timeout is a tick. -/
theorem eq_of_ticks {server : Reactor} {action : ReactorAction}
    (ticking : ticks server action = true) : action = .finish ∧ server.timeout = true := by
  cases action with
  | finish => exact ⟨rfl, ticking⟩
  | _ => cases ticking

theorem afterServer (sound : d.Sound serverFd pipeRead inUse) {action : ReactorAction}
    {server : Reactor} (clocked : Clocked d.server action)
    (step : d.server.next action = some server) :
    (d.afterServer action server).Sound serverFd pipeRead inUse := by
  have consistent := Reactor.consistent_of_reachable sound.reached
  have stepped := Reactor.stepped_of_next consistent step
  have dated : Reactor.Dated d.server server := by
    apply Reactor.dated_of_stepped consistent _ _ stepped
    · rintro results rfl
      exact clocked
    · rintro time rfl
      exact clocked
  have positive : (0 : Int) < 3 * timeslot := by decide
  constructor
  · exact .tail sound.reached trivial step
  · exact dated.1.trans sound.clock
  · intro cur ticked
    change cur ≤ server.now
    rw [dated.1]
    unfold ClientServer.afterServer at ticked
    dsimp only at ticked
    split at ticked
    · cases ticked
      exact le_rfl
    · exact sound.past cur ticked
  · intro fd isLive cur ticked
    unfold ClientServer.afterServer at isLive ticked ⊢
    dsimp only at isLive ticked ⊢
    split at ticked
    · rename_i ticking
      cases ticked
      rcases eq_of_ticks ticking with ⟨rfl, due⟩
      cases stepped with
      | finished done =>
          have inOrder := Reactor.wellFormed_of_reachable sound.reached
          exact Reactor.later_of_finish inOrder consistent due isLive
    · rcases dated.2 fd isLive with now | ⟨before, same⟩
      · rw [now]
        have before := sound.past cur ticked
        omega
      · rw [same]
        exact sound.fresh fd before cur ticked
  · intro link member going
    rcases List.mem_map.mp member with ⟨before, inside, rfl⟩
    rcases observe_current going with ⟨isLive, same⟩
    rw [same]
    exact ⟨isLive, rfl⟩
  · intro link member gone
    rcases List.mem_map.mp member with ⟨before, inside, rfl⟩
    rcases observe_expired gone with ⟨sameEvent, already | ⟨ticking, late⟩⟩
    · rcases sound.expired before inside already with ⟨cur, ticked, late⟩
      rw [sameEvent]
      unfold ClientServer.afterServer
      dsimp only
      split
      · exact ⟨d.server.now, rfl, late.trans (sound.past cur ticked)⟩
      · exact ⟨cur, ticked, late⟩
    · refine ⟨d.server.now, ?_, ?_⟩
      · exact if_pos ticking
      · rw [sameEvent]
        exact late

theorem link (sound : d.Sound serverFd pipeRead inUse) {fd connfd : Fd}
    (canLink : d.CanLink fd connfd) :
    ({ d with links := d.links ++ [⟨fd, connfd, d.server.fds.lastEvent connfd, none⟩] } :
      ClientServer Msg).Sound serverFd pipeRead inUse := by
  constructor
  · exact sound.reached
  · exact sound.clock
  · exact sound.past
  · exact sound.fresh
  · intro link member going
    rcases List.mem_append.mp member with before | new
    · exact sound.current link before going
    · cases List.mem_singleton.mp new
      exact ⟨canLink.2.1, rfl⟩
  · intro link member gone
    rcases List.mem_append.mp member with before | new
    · exact sound.expired link before gone
    · cases List.mem_singleton.mp new
      cases gone

theorem of_stepped (sound : d.Sound serverFd pipeRead inUse) {action : ClientServerAction Msg}
    (stepped : Stepped d action d') : d'.Sound serverFd pipeRead inUse := by
  cases stepped with
  | client step => exact sound.afterClient step
  | server clocked step => exact sound.afterServer clocked step
  | link canLink => exact sound.link canLink

theorem start (maxConnections maxIdleTime : Int) :
    (ClientServer.start maxConnections maxIdleTime serverFd pipeRead inUse :
      ClientServer Msg).Sound serverFd pipeRead inUse := by
  constructor
  · exact .refl
  · exact (congrArg Nat.cast (Nat.zero_div _)).symm
  · intro cur ticked
    cases ticked
  · intro fd _ cur ticked
    cases ticked
  · intro link member
    cases member
  · intro link member
    cases member

/-- A connection has expired exactly if there was a tick three time slots or more
after its last event, and nothing else ended it before. -/
theorem expired_iff (sound : d.Sound serverFd pipeRead inUse) {link : Link}
    (member : link ∈ d.links) : link.ended = some .expired ↔
      link.ended ≠ some .other ∧ ∃ cur ∈ d.lastTick, link.lastEvent + 3 * timeslot ≤ cur := by
  constructor
  · intro gone
    refine ⟨?_, sound.expired link member gone⟩
    rw [gone]
    decide
  · rintro ⟨notOther, cur, ticked, late⟩
    cases ended : link.ended with
    | none =>
        rcases sound.current link member ended with ⟨isLive, same⟩
        have fresh := sound.fresh link.connfd isLive cur ticked
        omega
    | some ending =>
        cases ending with
        | expired => rfl
        | other => exact absurd ended notOther

end Sound

/-- The condition is exact: a call takes no expired connection if and only if it
takes what it takes in time. -/
theorem Sound.inTime_iff {serverFd pipeRead : Fd} {inUse : Fd → Bool}
    (sound : d.Sound serverFd pipeRead inUse) {action : ClientAction Msg} :
    d.InTime (.client action) ↔ ∀ link ∈ d.links, reused d.client action = some link.fd →
      link.ended ≠ some .expired := by
  constructor
  · intro inTime link linked taken gone
    rcases reused_eq_some_iff.mp taken with ⟨item, atFront, same⟩
    rcases (sound.expired_iff linked).mp gone with ⟨notOther, cur, ticked, late⟩
    have early := inTime item atFront link linked same.symm notOther cur ticked
    omega
  · intro safe item atFront link linked same notOther cur ticked
    have taken := reused_eq_some_iff.mpr ⟨item, atFront, same.symm⟩
    by_contra late
    apply safe link linked taken
    exact (sound.expired_iff linked).mpr ⟨notOther, cur, ticked, not_lt.mp late⟩

theorem sound_of_reachable {allowed : ClientServer Msg → ClientServerAction Msg → Prop}
    {maxConnections maxIdleTime : Int} {serverFd pipeRead : Fd} {inUse : Fd → Bool}
    (reached : Reachable next allowed
      (start maxConnections maxIdleTime serverFd pipeRead inUse) d) :
    d.Sound serverFd pipeRead inUse := by
  apply reached.invariant (Sound.start maxConnections maxIdleTime)
  intro state action successor sound _ step
  exact sound.of_stepped (stepped_of_next step)

/-! ## Taking a connection from a queue -/

theorem taken_of_stepped {action : ClientServerAction Msg} (stepped : Stepped d action d')
    {link : Link} (member : link ∈ d'.taken) : link ∈ d.taken ∨
      ∃ clientAction, action = .client clientAction ∧ link ∈ d.links ∧
        reused d.client clientAction = some link.fd := by
  cases stepped with
  | @client clientAction client step =>
      rcases List.mem_append.mp member with before | new
      · exact .inl before
      · rcases List.mem_filter.mp new with ⟨linked, same⟩
        exact .inr ⟨clientAction, rfl, linked, of_decide_eq_true same⟩
  | server clocked step => exact .inl member
  | link canLink => exact .inl member

/-- As long as every connection is taken in time, none that is taken has expired
at the server. -/
theorem taken_unexpired_of_inTime {maxConnections maxIdleTime : Int} {serverFd pipeRead : Fd}
    {inUse : Fd → Bool} (reached : Reachable next InTime
      (start maxConnections maxIdleTime serverFd pipeRead inUse) d) :
    ∀ link ∈ d.taken, link.ended ≠ some .expired := by
  apply reached.invariant_of (fun _ before => sound_of_reachable before)
  · intro link member
    cases member
  · intro state action successor sound safe inTime step link member gone
    have stepped := stepped_of_next step
    rcases taken_of_stepped stepped member with before | ⟨clientAction, rfl, linked, taken⟩
    · exact safe link before gone
    · exact sound.inTime_iff.mp inTime link linked taken gone

/-- One call over a new connection, descriptor 7 at the client and 8 at the server;
the connection is idle afterwards. -/
def callOnce : List (ClientServerAction RpcHeader) :=
  [.client (spawnAt localEndpoint), .client (.enter 0), .client (.connected 0 7),
    .server (.wait [(3, readableFlags)]), .server (.handle { accepts := [(8, 0)] }),
    .server .finish, .link 7 8, .client (.send 0 2 []),
    .server (.wait [(8, readableFlags)]),
    .server (.handle { recvs := [.received [1, 2], .error EAGAIN] }),
    .server (.send 8 [10, 1, 97] (.sent 3)), .server .finish,
    .client (.deliver 7 [10, 1, 97] true), .client (.recv 0 3), .client (.release 0),
    .client (.notify 0 none)]

/-- The next call comes at once and takes the connection. -/
theorem taken_unexpired_at_once :
    ∃ d : ClientServer RpcHeader,
      Reachable next InTime (start 5000 60 3 4 fun fd => fd == 5) d ∧
        d.taken = [⟨7, 8, 0, none⟩] ∧ ∀ link ∈ d.taken, link.ended ≠ some .expired := by
  have run : ∃ d : ClientServer RpcHeader,
      Reachable next InTime (start 5000 60 3 4 fun fd => fd == 5) d ∧
        d.taken = [⟨7, 8, 0, none⟩] := by
    apply exists_reachable
      (callOnce ++ [.client (spawnAt localEndpoint), .client (.enter 1)])
    · decide +kernel
    · decide +kernel
  rcases run with ⟨d, reached, taken⟩
  exact ⟨d, reached, taken, taken_unexpired_of_inTime reached⟩

/-- The next call comes after twenty seconds, and after a tick at which the server
closed the connection.  The pool still holds it and gives it away. -/
theorem taken_expired_after_tick :
    ∃ d : ClientServer RpcHeader,
      Reachable next Unrestricted (start 5000 60 3 4 fun fd => fd == 5) d ∧
        ∃ link ∈ d.taken, link.ended = some .expired := by
  apply exists_reachable (callOnce ++ [.client (.elapse 20000000000),
    .server (.wait [(4, readableFlags)]), .server (.handle { signals := [14] }),
    .server .finish, .client (.peerClose 7), .client (spawnAt localEndpoint),
    .client (.enter 1)])
  · exact Meets.unrestricted ..
  · decide +kernel

end ClientServer

end Mprpc.Deployment
