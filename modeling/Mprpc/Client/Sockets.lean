import Mprpc.Client.Answers

/-!
# What a step does to one connection

A step of the client changes at most one of its open sockets, and a call that waits
for its answer stays where it is until it reads or its connection is closed.  What a
task captured, no step changes.
-/

namespace Mprpc.Client

open Mprpc.Net
open Mprpc.Protobuf
open Mprpc.Rpc
open Mprpc.Transition

universe u

theorem CallPc.ne_receiving_of_awake {Msg : Type u} {pc : CallPc Msg}
    (awake : pc = .entering ∨ pc = .notified) (fd : Fd) : pc ≠ .receiving fd := by
  rcases awake with rfl | rfl
  · nofun
  · nofun

/-- What an `rpc_task` captured. -/
structure CapturedTask (Msg : Type u) where
  endpoint : Endpoint
  sendRpcStr : Bytes
  output : MessageCodec Msg

def Call.task {Msg : Type u} (call : Call Msg) : CapturedTask Msg where
  endpoint := call.endpoint
  sendRpcStr := call.sendRpcStr
  output := call.output

/-- The tasks that an action starts. -/
def ClientAction.launches {Msg : Type u} : ClientAction Msg → List (CapturedTask Msg)
  | .spawn endpoint sendRpcStr output => [⟨endpoint, sendRpcStr, output⟩]
  | _ => []

/-- What can be read after a piece of an answer has come in. -/
theorem map_byte_append (inbound : List ResponseByte) (owner : Nat) (bytes : Bytes) :
    (inbound ++ bytes.map fun byte => (⟨owner, byte⟩ : ResponseByte)).map ResponseByte.byte =
      inbound.map ResponseByte.byte ++ bytes := by
  rw [List.map_append, List.map_map]
  exact congrArg _ (List.map_id _)

namespace Socket

theorem request_peerClosed (socket : Socket) (i count size : Nat) (garbled : List Nat) :
    (socket.request i count size garbled).peerClosed = socket.peerClosed := by
  unfold request
  split
  · split
    · rfl
    · rfl
  · rfl

/-- A server that owes nothing gets a whole request. -/
theorem request_whole {socket : Socket} (settled : socket.pending = [])
    (aligned : socket.aligned = true) (i size : Nat) (garbled : List Nat) :
    socket.request i size size garbled = { socket with pending := [i] } := by
  rw [request, if_pos aligned, if_pos rfl, settled, List.nil_append]

end Socket

namespace ClientState

variable {Msg : Type u} {s t : ClientState Msg} {action : ClientAction Msg} {fd : Fd}

/-- A call that is about to send holds a connection with nothing to read. -/
theorem Isolated.sending (isolated : s.Isolated) {i : Nat} {call : Call Msg}
    (found : s.calls[i]? = some call) (sending : call.pc = .sending fd) {socket : Socket}
    (opened : s.sockets fd = some socket) (present : socket.peerClosed = false) :
    socket.inbound = [] ∧ socket.pending = [] ∧ socket.aligned = true := by
  have quiet := isolated.held found (by rw [sending]; rfl) opened
  rw [sending] at quiet
  exact ⟨quiet.1, quiet.2.resolve_left (by rw [present]; nofun)⟩

/-- What a `send` hands over to its connection. -/
def handedOver (s : ClientState Msg) : ClientAction Msg → Option (Fd × Bytes)
  | .send i count _ =>
      (s.calls[i]?).bind fun call =>
        call.pc.fd?.map fun fd => (fd, call.sendRpcStr.take count)
  | _ => none

theorem handedOver_send {i count : Nat} {garbled : List Nat} {call : Call Msg}
    (found : s.calls[i]? = some call) (sending : call.pc = .sending fd) :
    s.handedOver (.send i count garbled) = some (fd, call.sendRpcStr.take count) := by
  rw [handedOver, found, Option.bind_some, sending]
  rfl

/-- An open socket after a step, with what it was before. -/
inductive Changed (s t : ClientState Msg) (fd : Fd) : ClientAction Msg → Socket → Prop
  | kept {action : ClientAction Msg} {socket : Socket} (before : s.sockets fd = some socket)
      (nothing : ∀ bytes, s.handedOver action ≠ some (fd, bytes)) : Changed s t fd action socket
  | connected {i : Nat} {call : Call Msg} (found : s.calls[i]? = some call)
      (unused : s.sockets fd = none) :
      Changed s t fd (.connected i fd) { endpoint := call.endpoint }
  | sent {i count : Nat} {garbled : List Nat} {call : Call Msg} {socket : Socket}
      (found : s.calls[i]? = some call) (sending : call.pc = .sending fd)
      (before : s.sockets fd = some socket)
      (after : t.calls[i]? = some { call with pc := .receiving fd }) :
      Changed s t fd (.send i count garbled)
        (socket.request i count call.sendRpcStr.length garbled)
  | received {i count : Nat} {call : Call Msg} {socket : Socket}
      (found : s.calls[i]? = some call) (receiving : call.pc = .receiving fd)
      (before : s.sockets fd = some socket) :
      Changed s t fd (.recv i count) (socket.receive count)
  | delivered {bytes : Bytes} {final : Bool} {socket fuller : Socket}
      (before : s.sockets fd = some socket)
      (arrived : socket.deliver bytes final = some fuller) :
      Changed s t fd (.deliver fd bytes final) fuller
  | peerClosed {socket : Socket} (before : s.sockets fd = some socket) :
      Changed s t fd (.peerClose fd) socket.closePeer

theorem notifyOne_sockets {woken : Option Nat} (notified : s.notifyOne woken = some t) :
    t.sockets = s.sockets := by
  obtain ⟨-, rfl, -⟩ | ⟨j, call, -, -, -, rfl⟩ := notifyOne_eq_some notified
  · rfl
  · rfl

/-- A socket that is open after some other socket was set. -/
theorem before_of_setSocket {used : Fd} {entry : Option Socket} {changed : Socket}
    (different : fd ≠ used) (opened : (s.setSocket used entry).sockets fd = some changed) :
    s.sockets fd = some changed :=
  (s.sockets_setSocket_of_ne different entry).symm.trans opened

theorem changed_of_stepped (stepped : Stepped s action t) {changed : Socket}
    (opened : t.sockets fd = some changed) : Changed s t fd action changed := by
  cases stepped with
  | connectFailed found connecting notified =>
      rw [notifyOne_sockets notified] at opened
      exact .kept opened nofun
  | notified found notifying notified =>
      rw [notifyOne_sockets notified] at opened
      exact .kept opened nofun
  | swept delays cleaned =>
      dsimp only at opened
      split at opened
      · cases opened
      · exact .kept opened nofun
  | @connected i call used found connecting unused =>
      by_cases same : fd = used
      · subst same
        cases (s.sockets_setSocket_self fd _).symm.trans opened
        exact .connected found unused
      · exact .kept (before_of_setSocket same opened) nofun
  | @sent i call used count socket garbled found sending before bound =>
      by_cases same : fd = used
      · subst same
        cases (s.sockets_setSocket_self fd _).symm.trans opened
        apply Changed.sent found sending before
        exact (getElem?_setCall found _ i).trans (if_pos rfl)
      · refine .kept (before_of_setSocket same opened) fun bytes handed => ?_
        rw [handedOver_send found sending] at handed
        cases handed
        exact same rfl
  | @sendFailed i call used errno found sending =>
      by_cases same : fd = used
      · subst same
        cases (s.sockets_setSocket_self fd none).symm.trans opened
      · exact .kept (before_of_setSocket same opened) nofun
  | @recvFailed i call used errno found receiving =>
      by_cases same : fd = used
      · subst same
        cases (s.sockets_setSocket_self fd none).symm.trans opened
      · exact .kept (before_of_setSocket same opened) nofun
  | @received i call used count socket exit found receiving before ready =>
      by_cases same : fd = used
      · subst same
        cases (s.sockets_setSocket_self fd (some (socket.receive count))).symm.trans opened
        exact .received found receiving before
      · exact .kept (before_of_setSocket same opened) nofun
  | @delivered used bytes final socket fuller before arrived =>
      by_cases same : fd = used
      · subst same
        cases (s.sockets_setSocket_self fd (some fuller)).symm.trans opened
        exact .delivered before arrived
      · exact .kept (before_of_setSocket same opened) nofun
  | @peerClosed used socket before =>
      by_cases same : fd = used
      · subst same
        cases (s.sockets_setSocket_self fd (some socket.closePeer)).symm.trans opened
        exact .peerClosed before
      · exact .kept (before_of_setSocket same opened) nofun
  | _ => exact .kept opened nofun

/-! ## A call that waits for its answer -/

variable {i j : Nat} {call other moved : Call Msg}

/-- Another call moves. -/
theorem found_setCall_of_ne (found : s.calls[i]? = some call)
    (foundOther : s.calls[j]? = some other) (different : other.pc ≠ call.pc) :
    (s.setCall j moved).calls[i]? = some call := by
  have elsewhere : i ≠ j := by
    rintro rfl
    cases found.symm.trans foundOther
    exact different rfl
  rw [getElem?_setCall foundOther, if_neg elsewhere, found]

theorem found_notifyOne (found : s.calls[i]? = some call) (awake : call.pc ≠ .blocked)
    {woken : Option Nat} (notified : s.notifyOne woken = some t) : t.calls[i]? = some call := by
  obtain ⟨-, rfl, -⟩ | ⟨j, other, -, foundOther, asleep, rfl⟩ := notifyOne_eq_some notified
  · exact found
  · exact found_setCall_of_ne found foundOther fun same => awake (same.symm.trans asleep)

theorem receiving_of_stepped (stepped : Stepped s action t) (found : s.calls[i]? = some call)
    (receiving : call.pc = .receiving fd) :
    t.calls[i]? = some call ∨ (∃ count, action = .recv i count) ∨ t.sockets fd = none := by
  have differs : ∀ {pc : CallPc Msg}, pc ≠ .receiving fd → pc ≠ call.pc := by
    intro pc different
    rwa [receiving]
  have sleepless : call.pc ≠ .blocked := by
    rw [receiving]
    nofun
  cases stepped with
  | spawn endpoint sendRpcStr output =>
      exact .inl ((List.getElem?_append_left (lt_of_found found)).trans found)
  | reused foundOther awake queued =>
      have elsewhere := CallPc.ne_receiving_of_awake awake fd
      exact .inl (found_setCall_of_ne found foundOther (differs elsewhere))
  | reserved foundOther awake queued below =>
      have elsewhere := CallPc.ne_receiving_of_awake awake fd
      exact .inl (found_setCall_of_ne found foundOther (differs elsewhere))
  | waits foundOther awake queued full =>
      have elsewhere := CallPc.ne_receiving_of_awake awake fd
      exact .inl (found_setCall_of_ne found foundOther (differs elsewhere))
  | wokeSpuriously foundOther asleep =>
      exact .inl (found_setCall_of_ne found foundOther (differs (by rw [asleep]; nofun)))
  | connected foundOther connecting unused =>
      exact .inl (found_setCall_of_ne found foundOther (differs (by rw [connecting]; nofun)))
  | connectFailed foundOther connecting notified =>
      refine .inl (found_notifyOne ?_ sleepless notified)
      exact found_setCall_of_ne found foundOther (differs (by rw [connecting]; nofun))
  | sent garbled foundOther sending opened bound =>
      exact .inl (found_setCall_of_ne found foundOther (differs (by rw [sending]; nofun)))
  | sendFailed errno foundOther sending =>
      exact .inl (found_setCall_of_ne found foundOther (differs (by rw [sending]; nofun)))
  | @received j other used count socket exit foundOther otherReceives opened ready =>
      by_cases same : j = i
      · subst same
        exact .inr (.inl ⟨count, rfl⟩)
      · left
        rw [getElem?_setCall (by exact foundOther), if_neg (Ne.symm same)]
        exact found
  | @recvFailed j other used errno foundOther otherReceives =>
      by_cases same : j = i
      · subst same
        cases found.symm.trans foundOther
        cases receiving.symm.trans otherReceives
        exact .inr (.inr (s.sockets_setSocket_self fd none))
      · left
        rw [getElem?_setCall (by exact foundOther), if_neg (Ne.symm same)]
        exact found
  | released foundOther releasing =>
      exact .inl (found_setCall_of_ne found foundOther (differs (by rw [releasing]; nofun)))
  | notified foundOther notifying notified =>
      refine .inl (found_notifyOne ?_ sleepless notified)
      exact found_setCall_of_ne found foundOther (differs (by rw [notifying]; nofun))
  | _ => exact .inl found

/-- A call that waits for its answer after another call's move waited before. -/
theorem found_before_set {calls : List (Call Msg)} (foundOther : calls[j]? = some other)
    (found : (calls.set j moved)[i]? = some call) (receiving : call.pc = .receiving fd)
    (elsewhere : moved.pc ≠ .receiving fd) : calls[i]? = some call := by
  rw [getElem?_set_eq_ite foundOther] at found
  split at found
  · cases found
    exact absurd receiving elsewhere
  · exact found

theorem found_before_notifyOne {woken : Option Nat} (notified : s.notifyOne woken = some t)
    (found : t.calls[i]? = some call) (receiving : call.pc = .receiving fd) :
    s.calls[i]? = some call := by
  obtain ⟨-, rfl, -⟩ | ⟨j, other, -, foundOther, -, rfl⟩ := notifyOne_eq_some notified
  · exact found
  · exact found_before_set foundOther found receiving nofun

/-- A call waits for its answer because it did so before, or because it has just sent
its request. -/
theorem waited_of_stepped (stepped : Stepped s action t) (found : t.calls[i]? = some call)
    (receiving : call.pc = .receiving fd) :
    s.calls[i]? = some call ∨
      ∃ count garbled before, action = .send i count garbled ∧ s.calls[i]? = some before ∧
        before.pc = .sending fd := by
  cases stepped with
  | spawn endpoint sendRpcStr output =>
      exact .inl (found_of_spawn rfl found (by rw [receiving]; rfl))
  | reused foundOther awake queued =>
      exact .inl (found_before_set foundOther found receiving nofun)
  | reserved foundOther awake queued below =>
      exact .inl (found_before_set foundOther found receiving nofun)
  | waits foundOther awake queued full =>
      exact .inl (found_before_set foundOther found receiving nofun)
  | wokeSpuriously foundOther asleep =>
      exact .inl (found_before_set foundOther found receiving nofun)
  | connected foundOther connecting unused =>
      exact .inl (found_before_set foundOther found receiving nofun)
  | connectFailed foundOther connecting notified =>
      have before := found_before_notifyOne notified found receiving
      exact .inl (found_before_set foundOther before receiving nofun)
  | @sent j other used count socket garbled foundOther sending opened bound =>
      rw [getElem?_setCall (by exact foundOther)] at found
      split at found
      · rename_i same
        subst same
        cases found
        cases receiving
        exact .inr ⟨count, garbled, other, rfl, foundOther, sending⟩
      · exact .inl found
  | sendFailed errno foundOther sending =>
      exact .inl (found_before_set foundOther found receiving nofun)
  | received foundOther otherReceives opened ready =>
      exact .inl (found_before_set foundOther found receiving nofun)
  | recvFailed errno foundOther otherReceives =>
      exact .inl (found_before_set foundOther found receiving nofun)
  | released foundOther releasing =>
      exact .inl (found_before_set foundOther found receiving nofun)
  | notified foundOther notifying notified =>
      have before := found_before_notifyOne notified found receiving
      exact .inl (found_before_set foundOther before receiving nofun)
  | _ => exact .inl found

/-! ## Tasks -/

theorem tasks_setCall {pc : CallPc Msg} (found : s.calls[i]? = some call) :
    (s.calls.set i { call with pc := pc }).map Call.task = s.calls.map Call.task :=
  map_set_of_eq found rfl

theorem tasks_notifyOne {woken : Option Nat} (notified : s.notifyOne woken = some t) :
    t.calls.map Call.task = s.calls.map Call.task := by
  obtain ⟨-, rfl, -⟩ | ⟨j, other, -, found, -, rfl⟩ := notifyOne_eq_some notified
  · rfl
  · exact tasks_setCall found

theorem tasks_of_stepped (stepped : Stepped s action t) :
    t.calls.map Call.task = s.calls.map Call.task ++ action.launches := by
  have kept : t.calls.map Call.task = s.calls.map Call.task → action.launches = [] →
      t.calls.map Call.task = s.calls.map Call.task ++ action.launches := by
    intro same nothing
    rw [same, nothing, List.append_nil]
  cases stepped with
  | spawn endpoint sendRpcStr output => exact List.map_append
  | reused found awake queued => exact kept (tasks_setCall found) rfl
  | reserved found awake queued below => exact kept (tasks_setCall found) rfl
  | waits found awake queued full => exact kept (tasks_setCall found) rfl
  | wokeSpuriously found asleep => exact kept (tasks_setCall found) rfl
  | connected found connecting unused => exact kept (tasks_setCall found) rfl
  | connectFailed found connecting notified =>
      exact kept ((tasks_notifyOne notified).trans (tasks_setCall found)) rfl
  | sent garbled found sending opened bound => exact kept (tasks_setCall found) rfl
  | sendFailed errno found sending => exact kept (tasks_setCall found) rfl
  | received found receiving opened ready => exact kept (tasks_setCall found) rfl
  | recvFailed errno found receiving => exact kept (tasks_setCall found) rfl
  | released found releasing => exact kept (tasks_setCall found) rfl
  | notified found notifying notified =>
      exact kept ((tasks_notifyOne notified).trans (tasks_setCall found)) rfl
  | _ => exact kept rfl rfl

end ClientState

end Mprpc.Client
