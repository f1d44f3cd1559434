import Mprpc.Deployment.EndToEnd
import Mprpc.Net.EpollSet

/-!
# What a waiting call waits for

A call that stands in `recv` has its request on the wire, where the server's loop will
see it, or its answer is in three places: what has come in, what is in flight, and what
the server keeps in the output buffer of the connection.
-/

namespace Mprpc.Deployment

open Mprpc.Client
open Mprpc.Example
open Mprpc.Net
open Mprpc.Rpc
open Mprpc.Transition

universe u

variable {Msg : Type u} {servers : Servers Msg}

/-- What the server keeps back of the answers on a wire. -/
def Wire.unsent (server : Rpc.Server) (wire : Wire) : Bytes :=
  match wire.peer with
  | .linked connfd =>
      match server.reactor.fds.connections connfd with
      | some conn => conn.outputBuffer.readable
      | none => []
  | _ => []

/-- The two ends of a wire hold all of the answer between them, or the server has yet
to read the request. -/
theorem Wire.Attached.unread_or_answered {server : Rpc.Server} {wire : Wire}
    {serverFd pipeRead : Fd} {inUse : Fd → Bool} (attached : wire.Attached servers server)
    (running : server.Running (servers.provider wire.endpoint) (servers.service wire.endpoint)
      serverFd pipeRead inUse) (stays : wire.peer ≠ .gone) {frame inbound : Bytes}
    (owing : wire.stream.Owing (servers.serve wire.endpoint) frame inbound) :
    wire.stream.requests = frame ∧ inbound = [] ∧ wire.stream.answers = [] ∧
        wire.unsent server = [] ∨
      wire.stream.requests = [] ∧ inbound ++ wire.stream.answers ++ wire.unsent server =
        servers.serve wire.endpoint frame := by
  cases peer : wire.peer with
  | waiting =>
      have nothing : wire.unsent server = [] := by
        rw [Wire.unsent, peer]
      simp only [Wire.Attached, peer] at attached
      rw [nothing]
      exact owing.unread_or_answered attached rfl
  | linked connfd =>
      simp only [Wire.Attached, peer] at attached
      obtain ⟨isLive, readBy⟩ := attached
      obtain ⟨conn, found⟩ := Option.isSome_iff_exists.mp isLive
      obtain ⟨same, serves⟩ := running.tracks connfd conn found
      have keptBack : wire.unsent server = conn.outputBuffer.readable := by
        rw [Wire.unsent, peer]
        simp only [found]
      have answered := serves.answered
      rw [same] at answered
      rw [keptBack]
      exact owing.unread_or_answered readBy answered
  | gone => exact absurd peer stays

namespace System

/-- Every open socket of the client has its wire, and the wire of a call that waits for
its answer has the call's request as its last frame. -/
structure Expecting (servers : Servers Msg) (s : System Msg) : Prop where
  wired : ∀ {fd socket}, s.client.sockets fd = some socket → ∃ wire ∈ s.wires, wire.fd = fd
  owing : ∀ {i : Nat} {call : Call Msg} {wire : Wire} {socket : Socket},
    s.client.calls[i]? = some call → wire ∈ s.wires → call.pc = .receiving wire.fd →
      s.client.sockets wire.fd = some socket → socket.peerClosed = false →
        wire.stream.Owing (servers.serve wire.endpoint) call.sendRpcStr
          (socket.inbound.map ResponseByte.byte)

variable {s t : System Msg} {maxConnections maxIdleTime : Int} {serverFd pipeRead : Fd}
  {inUse : Fd → Bool}

/-! ### A step of the client -/

theorem sent_endpoint (handed : Option (Fd × Bytes)) (wire : Wire) :
    (wire.sent handed).endpoint = wire.endpoint := by
  unfold Wire.sent
  split
  · split
    · rfl
    · rfl
  · rfl

/-- A socket that was open before a step keeps its wire. -/
theorem wired_afterClient {client : ClientState Msg} {action : ClientAction Msg} {wire : Wire}
    (member : wire ∈ s.wires) (isOpen : (client.sockets wire.fd).isSome = true) :
    ∃ later ∈ (s.afterClient action client).wires, later.fd = wire.fd :=
  ⟨wire.sent (s.client.handedOver action), List.mem_append_left _
    (List.mem_map_of_mem (List.mem_filter.mpr ⟨member, isOpen⟩)), sent_fd _ wire⟩

theorem Expecting.wired_client (expecting : s.Expecting servers) {client : ClientState Msg}
    {action : ClientAction Msg} (stepped : ClientState.Stepped s.client action client) {fd : Fd}
    {socket : Socket} (opened : client.sockets fd = some socket) :
    ∃ wire ∈ (s.afterClient action client).wires, wire.fd = fd := by
  have isOpen : (client.sockets fd).isSome = true := by
    rw [opened]
    rfl
  have goesOn : ∀ {before : Socket}, s.client.sockets fd = some before →
      ∃ wire ∈ (s.afterClient action client).wires, wire.fd = fd := by
    intro before openedBefore
    obtain ⟨wire, member, rfl⟩ := expecting.wired openedBefore
    exact wired_afterClient member isOpen
  cases ClientState.changed_of_stepped stepped opened with
  | @connected i call found unused =>
      refine ⟨{ fd := fd, endpoint := call.endpoint }, List.mem_append_right _ ?_, rfl⟩
      rw [System.opened, found]
      exact List.mem_singleton_self _
  | kept before nothing => exact goesOn before
  | sent found sending before after => exact goesOn before
  | received found receiving before => exact goesOn before
  | delivered before arrived => exact goesOn before
  | peerClosed before => exact goesOn before

/-- A call that waits on a connection which owes nothing any more waited there before. -/
theorem Expecting.owing_client
    (expecting : s.Expecting servers)
    (sound : s.Sound servers maxConnections maxIdleTime serverFd pipeRead inUse)
    {client : ClientState Msg} {action : ClientAction Msg} {before : Wire}
    (own : ∀ bytes final, action ≠ .deliver before.fd bytes final)
    (whole : s.Whole servers (.client action)) (step : s.client.next action = some client)
    (member : before ∈ s.wires) {i : Nat} {call : Call Msg} {socket : Socket}
    (found : client.calls[i]? = some call) (receiving : call.pc = .receiving before.fd)
    (opened : client.sockets before.fd = some socket) (present : socket.peerClosed = false)
    (settled : socket.pending = []) :
    (before.sent (s.client.handedOver action)).stream.Owing (servers.serve before.endpoint)
      call.sendRpcStr (socket.inbound.map ResponseByte.byte) := by
  have stepped := ClientState.stepped_of_next step
  have owned := ClientState.owned_of_reachable sound.client
  have waited := ClientState.waited_of_stepped stepped found receiving
  cases ClientState.changed_of_stepped stepped opened with
  | connected foundOther unused =>
      obtain ⟨openedBefore, isOpen, -⟩ := sound.joined before member
      rw [unused] at isOpen
      cases isOpen
  | kept openedBefore nothing =>
      rw [sent_of_nothing nothing]
      obtain same | ⟨count, garbled, sender, rfl, foundSender, sending⟩ := waited
      · exact expecting.owing same member receiving openedBefore present
      · exact absurd (ClientState.handedOver_send foundSender sending) (nothing _)
  | @sent j count garbled sender quiet foundSender sending openedBefore after =>
      obtain ⟨-, rfl⟩ := whole sender foundSender
      rw [Socket.request_peerClosed] at present
      obtain ⟨-, nothing, aligned⟩ :=
        (ClientState.isolated_of_served sound.client).sending foundSender sending openedBefore
          present
      rw [Socket.request_whole nothing aligned] at settled
      cases settled
  | @received j count reader full foundReader reads openedBefore =>
      obtain same | ⟨_, _, _, sends, -⟩ := waited
      · have holds : s.client.Holds i before.fd := ⟨call, same, by rw [receiving]; rfl⟩
        cases owned.held_unique holds ⟨reader, foundReader, by rw [reads]; rfl⟩
        obtain ⟨reader, fd, socket, foundReader, -, -, rfl⟩ := ClientState.received_of_next step
        rw [ClientState.getElem?_setCall (by exact foundReader), if_pos rfl] at found
        cases found
        cases receiving
      · cases sends
  | delivered openedBefore arrived => exact absurd rfl (own _ _)
  | peerClosed openedBefore => cases present

theorem Expecting.client_step
    (expecting : s.Expecting servers)
    (sound : s.Sound servers maxConnections maxIdleTime serverFd pipeRead inUse)
    {client : ClientState Msg} {action : ClientAction Msg}
    (own : ∀ fd bytes final, action ≠ .deliver fd bytes final)
    (whole : s.Whole servers (.client action)) (step : s.client.next action = some client) :
    (s.afterClient action client).Expecting servers := by
  have stepped := ClientState.stepped_of_next step
  have after := sound.client_step own whole step
  constructor
  · exact expecting.wired_client stepped
  · intro i call wire socket found member receiving opened present
    obtain ⟨same, openedSame, -, carried⟩ := after.joined wire member
    cases opened.symm.trans openedSame
    cases settled : socket.pending with
    | cons owner others =>
        obtain ⟨-, other, foundOther, waits, -, owing⟩ := (carried present).2.owing settled
        have holds : client.Holds i wire.fd := ⟨call, found, by rw [receiving]; rfl⟩
        cases (ClientState.owned_of_reachable after.client).held_unique holds
          ⟨other, foundOther, by rw [waits]; rfl⟩
        cases found.symm.trans foundOther
        exact owing
    | nil =>
        obtain ⟨before, inWires, -, rfl⟩ | ⟨unused, endpoint, -, -⟩ :=
          mem_afterClient stepped member
        · rw [sent_fd] at receiving opened
          rw [sent_endpoint]
          exact expecting.owing_client sound (own before.fd) whole step inWires found receiving
            opened present settled
        · have owned := ClientState.owned_of_reachable sound.client
          have held : ∃ before, s.client.calls[i]? = some before ∧
              before.pc.fd? = some wire.fd := by
            obtain waits | ⟨_, _, sender, -, foundSender, sending⟩ :=
              ClientState.waited_of_stepped stepped found receiving
            · exact ⟨call, waits, by rw [receiving]; rfl⟩
            · exact ⟨sender, foundSender, by rw [sending]; rfl⟩
          obtain ⟨before, foundBefore, holds⟩ := held
          obtain ⟨socket, isOpen, -⟩ := owned.held_open foundBefore holds
          rw [unused] at isOpen
          cases isOpen

/-! ### Steps of servers and of the network -/

theorem Expecting.server_step (expecting : s.Expecting servers) (endpoint : Endpoint)
    (server : Rpc.Server) : (s.afterServer endpoint server).Expecting servers := by
  constructor
  · intro fd socket opened
    obtain ⟨wire, member, rfl⟩ := expecting.wired opened
    exact ⟨_, List.mem_map_of_mem member, served_fd ..⟩
  · intro i call wire socket found member receiving opened present
    obtain ⟨before, inWires, rfl⟩ := List.mem_map.mp member
    rw [served_fd] at receiving opened
    obtain ⟨kept, frames, arrived, -⟩ := served_spec endpoint (s.server endpoint) server before
    rw [kept]
    exact (expecting.owing found inWires receiving opened present).congr frames arrived

theorem Expecting.link_step (expecting : s.Expecting servers) (fd connfd : Fd) :
    (s.setWire fd fun wire => { wire with peer := .linked connfd }).Expecting servers := by
  have changed : ∀ wire : Wire,
      (if wire.fd = fd then { wire with peer := .linked connfd } else wire).fd = wire.fd ∧
        (if wire.fd = fd then { wire with peer := .linked connfd } else wire).endpoint =
          wire.endpoint ∧
        (if wire.fd = fd then { wire with peer := .linked connfd } else wire).stream =
          wire.stream := by
    intro wire
    split
    · exact ⟨rfl, rfl, rfl⟩
    · exact ⟨rfl, rfl, rfl⟩
  constructor
  · intro other socket opened
    obtain ⟨wire, member, rfl⟩ := expecting.wired opened
    exact ⟨_, List.mem_map_of_mem member, (changed wire).1⟩
  · intro i call wire socket found member receiving opened present
    obtain ⟨before, inWires, rfl⟩ := List.mem_map.mp member
    obtain ⟨sameFd, sameEndpoint, sameStream⟩ := changed before
    rw [sameFd] at receiving opened
    rw [sameEndpoint, sameStream]
    exact expecting.owing found inWires receiving opened present

theorem Expecting.deliver_step (expecting : s.Expecting servers)
    (sound : s.Sound servers maxConnections maxIdleTime serverFd pipeRead inUse) {wire : Wire}
    (member : wire ∈ s.wires) {count : Nat} {client : ClientState Msg} {final : Bool}
    (step : s.client.next (.deliver wire.fd (wire.stream.answers.take count) final) =
      some client) :
    ({ s with client := client }.setWire wire.fd fun wire =>
      { wire with stream := wire.stream.deliver count }).Expecting servers := by
  obtain ⟨socket, opened, step⟩ := Option.bind_eq_some_iff.mp step
  obtain ⟨fuller, arrived, rfl⟩ := Option.map_eq_some_iff.mp step
  obtain ⟨owner, others, pending, here, rfl⟩ := Socket.deliver_eq_some_iff.mp arrived
  have sameFd : ∀ other : Wire, (if other.fd = wire.fd then
      { other with stream := other.stream.deliver count } else other).fd = other.fd := by
    intro other
    split
    · rfl
    · rfl
  constructor
  · intro fd after openedAfter
    have openedBefore : ∃ before, s.client.sockets fd = some before := by
      by_cases same : fd = wire.fd
      · exact ⟨socket, same ▸ opened⟩
      · exact ⟨after, (s.client.sockets_setSocket_of_ne same _).symm.trans openedAfter⟩
    obtain ⟨before, openedBefore⟩ := openedBefore
    obtain ⟨other, inWires, rfl⟩ := expecting.wired openedBefore
    exact ⟨_, List.mem_map_of_mem inWires, sameFd other⟩
  · intro i call later after found inWires receiving openedAfter present
    obtain ⟨before, beforeIn, rfl⟩ := List.mem_map.mp inWires
    rw [sameFd] at receiving openedAfter
    by_cases same : before.fd = wire.fd
    · cases sound.single wire member before beforeIn same
      cases (s.client.sockets_setSocket_self wire.fd _).symm.trans openedAfter
      rw [if_pos rfl]
      have owing := expecting.owing found member receiving opened here
      rw [map_byte_append]
      exact owing.deliver count
    · rw [if_neg same]
      have openedBefore := (s.client.sockets_setSocket_of_ne same _).symm.trans openedAfter
      exact expecting.owing found beforeIn receiving openedBefore present

/-! ### Runs -/

theorem Expecting.of_next (expecting : s.Expecting servers)
    (sound : s.Sound servers maxConnections maxIdleTime serverFd pipeRead inUse)
    {action : SystemAction Msg} (whole : s.Whole servers action)
    (step : s.next servers action = some t) : t.Expecting servers := by
  cases action with
  | client action =>
      have own : ∀ fd bytes final, action ≠ .deliver fd bytes final := by
        rintro fd bytes final rfl
        cases step
      rw [next_client own] at step
      obtain ⟨client, moved, rfl⟩ := Option.map_eq_some_iff.mp step
      exact expecting.client_step sound own whole moved
  | server endpoint action =>
      obtain ⟨server, -, step⟩ := Option.bind_eq_some_iff.mp step
      split at step
      · cases step
        exact expecting.server_step endpoint server
      · cases step
  | link fd connfd =>
      obtain ⟨wire, -, step⟩ := Option.bind_eq_some_iff.mp step
      split at step
      · cases step
        exact expecting.link_step fd connfd
      · cases step
  | deliver fd count =>
      obtain ⟨wire, found, step⟩ := Option.bind_eq_some_iff.mp step
      obtain ⟨member, rfl⟩ := found_wire found
      split at step
      · obtain ⟨client, moved, rfl⟩ := Option.map_eq_some_iff.mp step
        exact expecting.deliver_step sound member moved
      · cases step

theorem expecting_of_reachable
    (reached : Reachable (next servers) (Whole servers)
      (start maxConnections maxIdleTime serverFd pipeRead inUse) s) : s.Expecting servers := by
  have both : s.Sound servers maxConnections maxIdleTime serverFd pipeRead inUse ∧
      s.Expecting servers := by
    apply reached.invariant
    · exact ⟨sound_start .., nofun, nofun⟩
    · rintro s action t ⟨sound, expecting⟩ whole step
      exact ⟨sound.of_next whole step, expecting.of_next sound whole step⟩
  exact both.2

/-- The loop at `epoll_wait` will see what comes in on a connection. -/
theorem canReport_of_live {server : Rpc.Server} {provider : RpcProvider Msg}
    {service : Dispatch Msg → Msg}
    (running : server.Running provider service serverFd pipeRead inUse)
    (idle : server.reactor.batch = none) {connfd : Fd}
    (isLive : server.reactor.fds.live connfd = true) :
    server.reactor.fds.CanReport connfd Reactor.readableFlags := by
  have watched := (Reactor.bookkept_of_reachable running.loop).watched
  rw [Reactor.pending, idle] at watched
  refine ⟨⟨.initial true, (watched connfd isLive).2 List.not_mem_nil, rfl, ?_⟩, fun _ => rfl, rfl⟩
  exact ⟨fun _ => rfl, nofun, nofun⟩

/-- Nothing of a call that waits for its answer gets lost between two open ends.  Its
whole request is on the wire, and no part of an answer has been made, or the server has
read it, and what has come in, what is in flight and what the server keeps back are
together the answer.  At `epoll_wait` the server is ready for the request. -/
theorem traced_of_reachable
    (reached : Reachable (next servers) (Whole servers)
      (start maxConnections maxIdleTime serverFd pipeRead inUse) s)
    {i : Nat} {call : Call Msg} {fd : Fd} {socket : Socket}
    (found : s.client.calls[i]? = some call) (receiving : call.pc = .receiving fd)
    (opened : s.client.sockets fd = some socket) (present : socket.peerClosed = false) :
    ∃ wire ∈ s.wires, wire.fd = fd ∧ wire.endpoint = call.endpoint ∧
      (wire.peer = .gone ∨
        wire.stream.requests = call.sendRpcStr ∧ socket.inbound = [] ∧
          wire.stream.answers = [] ∧ wire.unsent (s.server wire.endpoint) = [] ∨
        wire.stream.requests = [] ∧
          socket.inbound.map ResponseByte.byte ++ wire.stream.answers ++
            wire.unsent (s.server wire.endpoint) = call.answer servers.serve) ∧
      ∀ connfd, wire.peer = .linked connfd → (s.server wire.endpoint).reactor.batch = none →
        (s.server wire.endpoint).reactor.fds.CanReport connfd Reactor.readableFlags := by
  have sound := sound_of_reachable reached
  have expecting := expecting_of_reachable reached
  obtain ⟨wire, member, rfl⟩ := expecting.wired opened
  obtain ⟨same, openedSame, endpoint, carried⟩ := sound.joined wire member
  cases opened.symm.trans openedSame
  have attached := (carried present).1
  have owing := expecting.owing found member receiving opened present
  obtain ⟨held, openedHeld, sameKey⟩ :=
    (ClientState.owned_of_reachable sound.client).held_open found (by rw [receiving]; rfl)
  cases opened.symm.trans openedHeld
  have sameEndpoint := endpoint.symm.trans (Endpoint.key_injective sameKey)
  refine ⟨wire, member, rfl, sameEndpoint, ?_, ?_⟩
  · by_cases stays : wire.peer = .gone
    · exact .inl stays
    · right
      obtain ⟨unread, nothing, rest⟩ | answered :=
        attached.unread_or_answered (sound.running _) stays owing
      · exact .inl ⟨unread, List.map_eq_nil_iff.mp nothing, rest⟩
      · rw [Call.answer, ← sameEndpoint]
        exact .inr answered
  · intro connfd linked idle
    simp only [Wire.Attached, linked] at attached
    exact canReport_of_live (sound.running _) idle attached.1

/-- One login whose server's socket takes half of the answer. -/
def halfAnswered : List (SystemAction UserMessage) :=
  [.client (.spawn localEndpoint (loginRequest (Bytes.ofString "a"))
      UserServiceRpc.login.output),
    .client (.enter 0), .client (.connected 0 7), .client (.send 0 35 []),
    .server localEndpoint (.wait [(3, Reactor.readableFlags)]),
    .server localEndpoint (.handle { accepts := [(5, 0)] }),
    .server localEndpoint .finish, .link 7 5,
    .server localEndpoint (.wait [(5, Reactor.readableFlags)]),
    .server localEndpoint (.handle {
      recvs := [.received (loginRequest (Bytes.ofString "a")), .error EAGAIN]
      sent := .sent 2 }),
    .server localEndpoint .finish, .deliver 7 1]

set_option maxRecDepth 8000 in
/-- One byte of the answer has come in, one is in flight, and two are kept back. -/
theorem traced_of_reachable_half :
    ∃ (s : System UserMessage) (call : Call UserMessage) (socket : Socket),
      Reachable (next userServers) (Whole userServers) (start 5000 60 3 4 fun _ => false) s ∧
      (s.client.calls[0]? = some call ∧ s.client.sockets 7 = some socket ∧
        socket.inbound.map ResponseByte.byte = [10]) ∧
      ∃ wire ∈ s.wires, wire.fd = 7 ∧ wire.endpoint = call.endpoint ∧
        (wire.peer = .gone ∨
          wire.stream.requests = call.sendRpcStr ∧ socket.inbound = [] ∧
            wire.stream.answers = [] ∧ wire.unsent (s.server wire.endpoint) = [] ∨
          wire.stream.requests = [] ∧
            socket.inbound.map ResponseByte.byte ++ wire.stream.answers ++
              wire.unsent (s.server wire.endpoint) = call.answer userServers.serve) ∧
        ∀ connfd, wire.peer = .linked connfd → (s.server wire.endpoint).reactor.batch = none →
          (s.server wire.endpoint).reactor.fds.CanReport connfd Reactor.readableFlags := by
  have run : ∃ s : System UserMessage, Reachable (next userServers) (Whole userServers)
      (start 5000 60 3 4 fun _ => false) s ∧
        ∃ call, s.client.calls[0]? = some call ∧ call.pc = .receiving 7 ∧
          ∃ socket, s.client.sockets 7 = some socket ∧ socket.peerClosed = false ∧
            socket.inbound.map ResponseByte.byte = [10] := by
    apply exists_reachable halfAnswered
    · decide +kernel
    · exact ⟨_, rfl, _, rfl, rfl, _, rfl, rfl, rfl⟩
  obtain ⟨s, reached, call, found, receiving, socket, opened, present, inbound⟩ := run
  exact ⟨s, call, socket, reached, ⟨found, opened, inbound⟩,
    traced_of_reachable reached found receiving opened present⟩

end System

end Mprpc.Deployment
