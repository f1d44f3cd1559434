import Mprpc.Deployment.System

/-!
# Calls across the network

The client of a system, seen alone, runs against servers that send nothing but the
answers to its requests: what a server's socket takes for a connection is what its
`OnMessage` makes of the frames that were sent there, whatever its other connections,
its timeouts and the reuse of descriptors do in between.  So a call that ends without a
failure has the response of its service.
-/

namespace Mprpc.Deployment

open Mprpc.Client
open Mprpc.Example
open Mprpc.Net
open Mprpc.Rpc
open Mprpc.Transition

universe u

variable {Msg : Type u} {servers : Servers Msg}

/-! ## What a wire carries -/

namespace Wire

/-- The stream of a wire as the server has read and answered it. -/
def Attached (servers : Servers Msg) (server : Rpc.Server) (wire : Wire) : Prop :=
  match wire.peer with
  | .waiting => wire.stream.ReadBy [] []
  | .linked connfd =>
      server.reactor.fds.live connfd = true ∧
        wire.stream.ReadBy (server.sessions connfd).batches (server.sessions connfd).accepted
  | .gone => wire.stream.Bounded (servers.serve wire.endpoint)

/-- The stream of a wire as its socket and the call that holds it have it. -/
structure Carries (servers : Servers Msg) (calls : List (Call Msg)) (wire : Wire)
    (socket : Socket) : Prop where
  settled : socket.pending = [] → wire.stream.Settled (servers.serve wire.endpoint) ∧
    (wire.peer = .gone ∨ wire.stream.requests = [])
  owing : ∀ {owner others}, socket.pending = owner :: others → others = [] ∧
    ∃ call, calls[owner]? = some call ∧ call.pc = .receiving wire.fd ∧
      call.endpoint = wire.endpoint ∧
        wire.stream.Owing (servers.serve wire.endpoint) call.sendRpcStr
          (socket.inbound.map ResponseByte.byte)

variable {server : Rpc.Server} {wire : Wire} {serverFd pipeRead : Fd} {inUse : Fd → Bool}

/-- A session whose connection is there has sent answers only. -/
theorem accepted_begins {provider : RpcProvider Msg} {service : Dispatch Msg → Msg}
    (running : server.Running provider service serverFd pipeRead inUse) {connfd : Fd}
    (isLive : server.reactor.fds.live connfd = true) :
    (server.sessions connfd).accepted <+:
      (server.sessions connfd).batches.flatMap (provider.answer service) := by
  obtain ⟨conn, found⟩ := Option.isSome_iff_exists.mp isLive
  obtain ⟨-, serves⟩ := running.tracks connfd conn found
  rw [← serves.answered]
  exact List.prefix_append _ _

variable (running : server.Running (servers.provider wire.endpoint)
  (servers.service wire.endpoint) serverFd pipeRead inUse)

include running in
theorem Attached.bounded (attached : wire.Attached servers server) :
    wire.stream.Bounded (servers.serve wire.endpoint) := by
  cases peer : wire.peer with
  | waiting =>
      simp only [Attached, peer] at attached
      exact attached.bounded (List.prefix_refl [])
  | linked connfd =>
      simp only [Attached, peer] at attached
      exact attached.2.bounded (accepted_begins running attached.1)
  | gone =>
      simp only [Attached, peer] at attached
      exact attached

include running in
/-- The server has read the frame whose answer is on the way back. -/
theorem Attached.requests_eq_nil (attached : wire.Attached servers server) {frame inbound : Bytes}
    (owing : wire.stream.Owing (servers.serve wire.endpoint) frame inbound)
    (coming : wire.stream.answers ≠ []) : wire.peer = .gone ∨ wire.stream.requests = [] := by
  cases peer : wire.peer with
  | waiting =>
      simp only [Attached, peer] at attached
      exact .inr (owing.requests_eq_nil attached (List.prefix_refl []) coming)
  | linked connfd =>
      simp only [Attached, peer] at attached
      exact .inr (owing.requests_eq_nil attached.2 (accepted_begins running attached.1) coming)
  | gone => exact .inl rfl

/-- The client sends the next frame. -/
theorem Attached.send (attached : wire.Attached servers server) {frame : Bytes}
    (nonempty : frame ≠ []) (nothing : wire.peer = .gone ∨ wire.stream.requests = []) :
    Attached servers server { wire with stream := wire.stream.send frame } := by
  cases peer : wire.peer with
  | waiting =>
      simp only [Attached, peer] at attached ⊢
      exact attached.send (nothing.resolve_left (by rw [peer]; nofun)) nonempty
  | linked connfd =>
      simp only [Attached, peer] at attached ⊢
      exact ⟨attached.1, attached.2.send (nothing.resolve_left (by rw [peer]; nofun)) nonempty⟩
  | gone =>
      simp only [Attached, peer] at attached ⊢
      exact attached.send frame

theorem Attached.deliver (attached : wire.Attached servers server) (count : Nat) :
    Attached servers server { wire with stream := wire.stream.deliver count } := by
  cases peer : wire.peer with
  | waiting =>
      simp only [Attached, peer] at attached ⊢
      exact attached.deliver count
  | linked connfd =>
      simp only [Attached, peer] at attached ⊢
      exact ⟨attached.1, attached.2.deliver count⟩
  | gone =>
      simp only [Attached, peer] at attached ⊢
      exact attached.deliver count

/-- The server at the wire's address takes a step: it goes on with the connection, or
it loses it. -/
theorem Attached.served (attached : wire.Attached servers server) {after : Rpc.Server}
    (running : server.Running (servers.provider wire.endpoint) (servers.service wire.endpoint)
      serverFd pipeRead inUse) {action : ReactorAction}
    (step : server.next (servers.provider wire.endpoint) (servers.service wire.endpoint) action =
      some after) (whole : wire.ServesWhole wire.endpoint server after) :
    (wire.served wire.endpoint server after).Attached servers after := by
  have bounded := attached.bounded running
  cases peer : wire.peer with
  | waiting =>
      simp only [Wire.served, if_pos, peer, Attached] at attached ⊢
      exact attached
  | gone =>
      simp only [Wire.served, if_pos, peer, Attached] at attached ⊢
      exact attached
  | linked connfd =>
      simp only [ServesWhole, peer, forall_const] at whole
      simp only [Attached, peer] at attached
      obtain ⟨isLive, readBy⟩ := attached
      obtain ⟨taken, bytes, received, accepted, ends⟩ := running.session step isLive
      rw [received] at whole
      have all : taken = [] ∨ taken = wire.stream.requests := by
        rcases whole with same | same
        · exact .inl (List.append_cancel_left (same.trans (List.append_nil _).symm))
        · exact .inr (List.append_cancel_left same)
      have counted : (after.sessions connfd).received.length -
          (server.sessions connfd).received.length = taken.length := by
        rw [received, List.length_append, Nat.add_sub_cancel_left]
      have put : (after.sessions connfd).accepted.drop
          (server.sessions connfd).accepted.length = bytes := by
        rw [accepted, List.drop_left]
      have read : (wire.stream.serve taken.length bytes).ReadBy
          ((server.sessions connfd).batches ++ Exchange.batch taken)
          ((server.sessions connfd).accepted ++ bytes) := readBy.serve all
      simp only [Wire.served, if_pos, peer, counted, put]
      split
      · rename_i stays
        rcases ends with ⟨-, batches⟩ | ⟨lost, -⟩
        · simp only [Attached]
          rw [batches, accepted]
          exact ⟨stays, read⟩
        · rw [lost] at stays
          cases stays
      · simp only [Attached]
        rcases ends with ⟨serves, batches⟩ | ⟨-, -, nothing⟩
        · have answered := serves.answered
          rw [batches, accepted] at answered
          exact (read.bounded (answered ▸ List.prefix_append _ _)).abandon
        · rw [nothing]
          exact (bounded.serve_nil taken.length).abandon

/-! ### The client's end -/

variable {calls : List (Call Msg)} {socket : Socket}

theorem Carries.setCalls (carries : wire.Carries servers calls socket) {later : List (Call Msg)}
    (stays : ∀ {owner others call}, socket.pending = owner :: others →
      calls[owner]? = some call → call.pc = .receiving wire.fd → later[owner]? = some call) :
    wire.Carries servers later socket := by
  constructor
  · exact carries.settled
  · intro owner others pending
    obtain ⟨single, call, found, receiving, rest⟩ := carries.owing pending
    exact ⟨single, call, stays pending found receiving, receiving, rest⟩

theorem carries_new (fd : Fd) (endpoint : Endpoint) :
    Carries servers calls { fd := fd, endpoint := endpoint } { endpoint := endpoint } :=
  ⟨fun _ => ⟨rfl, .inr rfl⟩, nofun⟩

/-- A call reads its answer. -/
theorem Carries.receive (carries : wire.Carries servers calls socket)
    (nothing : socket.pending = []) (count : Nat) {later : List (Call Msg)} :
    wire.Carries servers later (socket.receive count) := by
  constructor
  · exact fun _ => carries.settled nothing
  · intro owner others pending
    change socket.pending = _ at pending
    rw [nothing] at pending
    cases pending

/-- A call sends its request on a connection with nothing to read. -/
theorem Carries.send (carries : wire.Carries servers calls socket) {i : Nat} {call : Call Msg}
    {garbled : List Nat} (empty : socket.inbound = []) (settled : socket.pending = [])
    (aligned : socket.aligned = true) (endpoint : call.endpoint = wire.endpoint)
    {later : List (Call Msg)} (after : later[i]? = some { call with pc := .receiving wire.fd }) :
    Carries servers later { wire with stream := wire.stream.send call.sendRpcStr }
      (socket.request i call.sendRpcStr.length call.sendRpcStr.length garbled) := by
  rw [Socket.request_whole settled aligned]
  constructor
  · nofun
  · intro owner others pending
    cases pending
    refine ⟨rfl, _, after, rfl, endpoint, ?_⟩
    rw [empty]
    exact (carries.settled settled).1.send _

/-- A piece of the answer arrives. -/
theorem Carries.deliver (carries : wire.Carries servers calls socket)
    (attached : wire.Attached servers server)
    (running : server.Running (servers.provider wire.endpoint) (servers.service wire.endpoint)
      serverFd pipeRead inUse) {owner : Nat} {others : List Nat}
    (pending : socket.pending = owner :: others) {count : Nat} (positive : 0 < count)
    (bound : count ≤ wire.stream.answers.length) :
    Carries servers calls { wire with stream := wire.stream.deliver count }
      { socket with
        inbound := socket.inbound ++
          (wire.stream.answers.take count).map fun byte => ⟨owner, byte⟩
        pending := if wire.completes servers count then others else owner :: others } := by
  obtain ⟨rfl, call, found, receiving, endpoint, owing⟩ := carries.owing pending
  constructor
  · intro nothing
    cases completes : wire.completes servers count with
    | false =>
        rw [completes] at nothing
        cases nothing
    | true =>
        refine ⟨beq_iff_eq.mp completes, ?_⟩
        have coming : wire.stream.answers ≠ [] := by
          intro empty
          rw [empty, List.length_nil] at bound
          exact absurd positive (Nat.not_lt.mpr bound)
        have read : wire.peer = .gone ∨ wire.stream.requests = [] :=
          attached.requests_eq_nil running owing coming
        exact read
  · intro first rest nowPending
    dsimp only at nowPending
    split at nowPending
    · cases nowPending
    · cases nowPending
      refine ⟨rfl, call, found, receiving, endpoint, ?_⟩
      rw [map_byte_append]
      exact owing.deliver count

/-- The piece belongs to the answer that the client waits for. -/
theorem Carries.served (carries : wire.Carries servers calls socket)
    (attached : wire.Attached servers server)
    (running : server.Running (servers.provider wire.endpoint) (servers.service wire.endpoint)
      serverFd pipeRead inUse) {owner : Nat} {others : List Nat}
    (pending : socket.pending = owner :: others) (count : Nat) {call : Call Msg}
    (found : calls[owner]? = some call) :
    socket.inbound.map ResponseByte.byte ++ wire.stream.answers.take count <+:
        call.answer servers.serve ∧
      (wire.completes servers count = true →
        socket.inbound.map ResponseByte.byte ++ wire.stream.answers.take count =
          call.answer servers.serve) := by
  obtain ⟨-, same, foundSame, -, endpoint, owing⟩ := carries.owing pending
  cases found.symm.trans foundSame
  rw [Call.answer, endpoint]
  constructor
  · exact owing.continues (attached.bounded running) count
  · intro completes
    exact (owing.deliver count).settled_iff.mp (beq_iff_eq.mp completes)

end Wire

/-! ## The invariant -/

namespace System

/-- The wire and its socket belong together, and while the connection is there, what the
wire carries is what its two ends have of it. -/
def Joined (servers : Servers Msg) (client : ClientState Msg) (server : Endpoint → Rpc.Server)
    (wire : Wire) : Prop :=
  ∃ socket, client.sockets wire.fd = some socket ∧ socket.endpoint = wire.endpoint ∧
    (socket.peerClosed = false →
      wire.Attached servers (server wire.endpoint) ∧ wire.Carries servers client.calls socket)

/-- The client runs as it does against servers that answer, each server runs as it does
alone, and the wires carry what they should. -/
structure Sound (servers : Servers Msg) (maxConnections maxIdleTime : Int)
    (serverFd pipeRead : Fd) (inUse : Fd → Bool) (s : System Msg) : Prop where
  client : Reachable ClientState.next (ClientState.Served servers.serve)
    (.start maxConnections maxIdleTime) s.client
  running : ∀ endpoint, (s.server endpoint).Running (servers.provider endpoint)
    (servers.service endpoint) serverFd pipeRead inUse
  single : ∀ wire ∈ s.wires, ∀ other ∈ s.wires, other.fd = wire.fd → other = wire
  joined : ∀ wire ∈ s.wires, Joined servers s.client s.server wire

variable {s t : System Msg} {maxConnections maxIdleTime : Int} {serverFd pipeRead : Fd}
  {inUse : Fd → Bool}

/-! ### A step of the client -/

theorem sent_of_nothing {handed : Option (Fd × Bytes)} {wire : Wire}
    (nothing : ∀ bytes, handed ≠ some (wire.fd, bytes)) : wire.sent handed = wire := by
  cases handed with
  | none => rfl
  | some entry =>
      obtain ⟨fd, bytes⟩ := entry
      have different : fd ≠ wire.fd := by
        rintro rfl
        exact nothing bytes rfl
      rw [Wire.sent, if_neg different]

theorem sent_fd (handed : Option (Fd × Bytes)) (wire : Wire) : (wire.sent handed).fd = wire.fd := by
  unfold Wire.sent
  split
  · split
    · rfl
    · rfl
  · rfl

/-- A wire whose socket is still open after a step of the client. -/
theorem Joined.client {client : ClientState Msg} {action : ClientAction Msg} {wire : Wire}
    (joined : Joined servers s.client s.server wire)
    (reached : Reachable ClientState.next (ClientState.Served servers.serve)
      (.start maxConnections maxIdleTime) s.client)
    (stepped : ClientState.Stepped s.client action client)
    (own : ∀ bytes final, action ≠ .deliver wire.fd bytes final)
    (whole : s.Whole servers (.client action)) (isOpen : (client.sockets wire.fd).isSome = true) :
    Joined servers client s.server (wire.sent (s.client.handedOver action)) := by
  obtain ⟨socket, opened, endpoint, carried⟩ := joined
  obtain ⟨changed, openedAfter⟩ := Option.isSome_iff_exists.mp isOpen
  have isolated := ClientState.isolated_of_served reached
  cases ClientState.changed_of_stepped stepped openedAfter with
  | connected found unused =>
      rw [unused] at opened
      cases opened
  | kept before nothing =>
      cases opened.symm.trans before
      rw [sent_of_nothing nothing]
      refine ⟨socket, openedAfter, endpoint, fun present => ?_⟩
      obtain ⟨attached, carries⟩ := carried present
      refine ⟨attached, carries.setCalls fun pending found receiving => ?_⟩
      obtain stays | ⟨count, rfl⟩ | closed :=
        ClientState.receiving_of_stepped stepped found receiving
      · exact stays
      · have settled := (whole _ found wire.fd (by rw [receiving]; rfl) socket opened).2.2
        rw [pending] at settled
        cases settled
      · rw [openedAfter] at closed
        cases closed
  | @sent i count garbled call _ found sending before after =>
      cases opened.symm.trans before
      obtain ⟨positive, rfl⟩ := whole call found
      have handed : s.client.handedOver (.send i call.sendRpcStr.length garbled) =
          some (wire.fd, call.sendRpcStr) := by
        rw [ClientState.handedOver_send found sending, List.take_length]
      rw [handed, Wire.sent, if_pos rfl]
      refine ⟨_, openedAfter, (Socket.request_endpoint ..).trans endpoint, fun present => ?_⟩
      rw [Socket.request_peerClosed] at present
      obtain ⟨empty, settled, aligned⟩ := isolated.sending found sending opened present
      obtain ⟨attached, carries⟩ := carried present
      obtain ⟨held, openedHeld, sameKey⟩ :=
        (ClientState.owned_of_reachable reached).held_open found (by rw [sending]; rfl)
      cases opened.symm.trans openedHeld
      have nonempty : call.sendRpcStr ≠ [] := List.ne_nil_of_length_pos positive
      exact ⟨attached.send nonempty (carries.settled settled).2,
        carries.send empty settled aligned
          ((Endpoint.key_injective sameKey).symm.trans endpoint) after⟩
  | @received i count call _ found receiving before =>
      cases opened.symm.trans before
      have settled := (whole call found wire.fd (by rw [receiving]; rfl) socket opened).2.2
      have unsent : wire.sent (s.client.handedOver (.recv i count)) = wire :=
        sent_of_nothing nofun
      rw [unsent]
      refine ⟨_, openedAfter, endpoint, fun present => ?_⟩
      obtain ⟨attached, carries⟩ := carried present
      exact ⟨attached, carries.receive settled count⟩
  | delivered before arrived => exact absurd rfl (own _ _)
  | peerClosed before =>
      cases opened.symm.trans before
      have unsent : wire.sent (s.client.handedOver (.peerClose wire.fd)) = wire :=
        sent_of_nothing nofun
      rw [unsent]
      exact ⟨_, openedAfter, endpoint, nofun⟩

/-- The wires after a step of the client: those whose sockets are still open, and the one
of a new connection. -/
theorem mem_afterClient {client : ClientState Msg} {action : ClientAction Msg} {wire : Wire}
    (stepped : ClientState.Stepped s.client action client)
    (member : wire ∈ (s.afterClient action client).wires) :
    (∃ before ∈ s.wires, (client.sockets before.fd).isSome = true ∧
        wire = before.sent (s.client.handedOver action)) ∨
      s.client.sockets wire.fd = none ∧ ∃ endpoint,
        client.sockets wire.fd = some { endpoint := endpoint } ∧
          wire = { fd := wire.fd, endpoint := endpoint } := by
  rcases List.mem_append.mp member with old | isNew
  · left
    obtain ⟨before, kept, rfl⟩ := List.mem_map.mp old
    obtain ⟨before_mem, isOpen⟩ := List.mem_filter.mp kept
    exact ⟨before, before_mem, isOpen, rfl⟩
  · right
    cases stepped with
    | @connected i call fd found connecting unused =>
        rw [opened, found] at isNew
        cases List.mem_singleton.mp isNew
        exact ⟨unused, call.endpoint, s.client.sockets_setSocket_self fd _, rfl⟩
    | _ => cases isNew

theorem next_client {action : ClientAction Msg}
    (own : ∀ fd bytes final, action ≠ .deliver fd bytes final) :
    s.next servers (.client action) = (s.client.next action).map (s.afterClient action) := by
  cases action with
  | deliver fd bytes final => exact absurd rfl (own fd bytes final)
  | _ => rfl

theorem Sound.client_step
    (sound : s.Sound servers maxConnections maxIdleTime serverFd pipeRead inUse)
    {client : ClientState Msg} {action : ClientAction Msg}
    (own : ∀ fd bytes final, action ≠ .deliver fd bytes final)
    (whole : s.Whole servers (.client action)) (step : s.client.next action = some client) :
    (s.afterClient action client).Sound servers maxConnections maxIdleTime serverFd pipeRead
      inUse := by
  have stepped := ClientState.stepped_of_next step
  have served : ClientState.Served servers.serve s.client action := by
    cases action with
    | deliver fd bytes final => exact absurd rfl (own fd bytes final)
    | recv i count => exact whole
    | _ => trivial
  have closed : ∀ {before : Wire}, before ∈ s.wires → s.client.sockets before.fd ≠ none := by
    intro before member unused
    obtain ⟨socket, isOpen, -⟩ := sound.joined before member
    rw [unused] at isOpen
    cases isOpen
  constructor
  · exact .tail sound.client served step
  · exact sound.running
  · intro wire member other memberOther same
    rcases mem_afterClient stepped member with
      ⟨before, inWires, -, rfl⟩ | ⟨unused, endpoint, opened, isNew⟩
    · rw [sent_fd] at same
      rcases mem_afterClient stepped memberOther with
        ⟨beforeOther, inWiresOther, -, rfl⟩ | ⟨unused, -⟩
      · rw [sent_fd] at same
        rw [sound.single before inWires beforeOther inWiresOther same]
      · rw [same] at unused
        exact absurd unused (closed inWires)
    · rcases mem_afterClient stepped memberOther with
        ⟨beforeOther, inWiresOther, -, rfl⟩ | ⟨-, endpointOther, openedOther, isNewOther⟩
      · rw [sent_fd] at same
        rw [← same] at unused
        exact absurd unused (closed inWiresOther)
      · rw [same] at openedOther isNewOther
        cases opened.symm.trans openedOther
        exact isNewOther.trans isNew.symm
  · intro wire member
    rcases mem_afterClient stepped member with
      ⟨before, inWires, isOpen, rfl⟩ | ⟨-, endpoint, opened, isNew⟩
    · exact (sound.joined before inWires).client sound.client stepped (own before.fd) whole isOpen
    · rw [isNew]
      exact ⟨_, opened, rfl, fun _ => ⟨Exchange.readBy_new, Wire.carries_new wire.fd endpoint⟩⟩

/-! ### A step of a server -/

theorem served_fd (endpoint : Endpoint) (before after : Rpc.Server) (wire : Wire) :
    (wire.served endpoint before after).fd = wire.fd := by
  unfold Wire.served
  split
  · split
    · dsimp only
      split
      · rfl
      · rfl
    · rfl
  · rfl

/-- A step of a server concerns neither the frames of a wire nor what has arrived. -/
theorem served_spec (endpoint : Endpoint) (before after : Rpc.Server) (wire : Wire) :
    (wire.served endpoint before after).endpoint = wire.endpoint ∧
      (wire.served endpoint before after).stream.frames = wire.stream.frames ∧
      (wire.served endpoint before after).stream.arrived = wire.stream.arrived ∧
      (wire.peer = .gone ∨ wire.stream.requests = [] →
        (wire.served endpoint before after).peer = .gone ∨
          (wire.served endpoint before after).stream.requests = []) := by
  unfold Wire.served
  split
  · split
    · dsimp only
      split
      · refine ⟨rfl, rfl, rfl, fun nothing => ?_⟩
        rename_i linked _
        have empty := nothing.resolve_left (by rw [linked]; nofun)
        right
        change wire.stream.requests.drop _ = []
        rw [empty, List.drop_nil]
      · exact ⟨rfl, rfl, rfl, fun _ => .inl rfl⟩
    · exact ⟨rfl, rfl, rfl, id⟩
  · exact ⟨rfl, rfl, rfl, id⟩

/-- The client's end of a wire after a step of a server. -/
theorem carries_served {calls : List (Call Msg)} {wire : Wire} {socket : Socket}
    (carries : wire.Carries servers calls socket) (endpoint : Endpoint)
    (before after : Rpc.Server) :
    (wire.served endpoint before after).Carries servers calls socket := by
  obtain ⟨sameEndpoint, frames, arrived, requests⟩ := served_spec endpoint before after wire
  constructor
  · intro nothing
    obtain ⟨settled, read⟩ := carries.settled nothing
    refine ⟨?_, requests read⟩
    rw [Exchange.Settled, frames, arrived, sameEndpoint]
    exact settled
  · intro owner others pending
    obtain ⟨alone, call, found, receiving, same, owing⟩ := carries.owing pending
    refine ⟨alone, call, found, ?_, same.trans sameEndpoint.symm, ?_⟩
    · rw [served_fd, receiving]
    · rw [Exchange.Owing, frames, arrived, sameEndpoint]
      exact owing

theorem Sound.server_step
    (sound : s.Sound servers maxConnections maxIdleTime serverFd pipeRead inUse)
    {endpoint : Endpoint} {action : ReactorAction} {server : Rpc.Server}
    (step : (s.server endpoint).next (servers.provider endpoint) (servers.service endpoint)
      action = some server)
    (whole : ∀ wire ∈ s.wires, wire.ServesWhole endpoint (s.server endpoint) server) :
    (s.afterServer endpoint server).Sound servers maxConnections maxIdleTime serverFd pipeRead
      inUse := by
  constructor
  · exact sound.client
  · intro other
    by_cases same : other = endpoint
    · subst same
      have after : (s.afterServer other server).server other = server :=
        Function.update_self ..
      rw [after]
      exact (sound.running other).of_next step
    · have after : (s.afterServer endpoint server).server other = s.server other :=
        Function.update_of_ne same ..
      rw [after]
      exact sound.running other
  · intro wire member other memberOther same
    obtain ⟨before, inWires, rfl⟩ := List.mem_map.mp member
    obtain ⟨beforeOther, inWiresOther, rfl⟩ := List.mem_map.mp memberOther
    rw [served_fd, served_fd] at same
    rw [sound.single before inWires beforeOther inWiresOther same]
  · intro wire member
    obtain ⟨before, inWires, rfl⟩ := List.mem_map.mp member
    obtain ⟨socket, opened, sameEndpoint, carried⟩ := sound.joined before inWires
    obtain ⟨kept, -⟩ := served_spec endpoint (s.server endpoint) server before
    refine ⟨socket, ?_, sameEndpoint.trans kept.symm, fun present => ?_⟩
    · rw [served_fd]
      exact opened
    · obtain ⟨attached, carries⟩ := carried present
      refine ⟨?_, carries_served carries endpoint _ _⟩
      rw [kept]
      by_cases same : before.endpoint = endpoint
      · subst same
        have after : (s.afterServer before.endpoint server).server before.endpoint = server :=
          Function.update_self ..
        rw [after]
        exact attached.served (sound.running _) step (whole before inWires)
      · have after : (s.afterServer endpoint server).server before.endpoint =
            s.server before.endpoint := Function.update_of_ne same ..
        have untouched : before.served endpoint (s.server endpoint) server = before := by
          rw [Wire.served, if_neg same]
        rw [after, untouched]
        exact attached

/-! ### A step of the network -/

theorem Sound.setWire
    (sound : s.Sound servers maxConnections maxIdleTime serverFd pipeRead inUse) {wire : Wire}
    (member : wire ∈ s.wires) {client : ClientState Msg}
    (reached : Reachable ClientState.next (ClientState.Served servers.serve)
      (.start maxConnections maxIdleTime) client) {change : Wire → Wire}
    (sameFd : (change wire).fd = wire.fd) (changed : Joined servers client s.server (change wire))
    (others : ∀ other ∈ s.wires, other.fd ≠ wire.fd → Joined servers client s.server other) :
    ({ s with client := client }.setWire wire.fd change).Sound servers maxConnections maxIdleTime
      serverFd pipeRead inUse := by
  have after : ∀ later ∈ ({ s with client := client }.setWire wire.fd change).wires,
      later = change wire ∨ later ∈ s.wires ∧ later.fd ≠ wire.fd := by
    intro later inWires
    obtain ⟨before, beforeIn, rfl⟩ := List.mem_map.mp inWires
    by_cases same : before.fd = wire.fd
    · rw [if_pos same, sound.single wire member before beforeIn same]
      exact .inl rfl
    · rw [if_neg same]
      exact .inr ⟨beforeIn, same⟩
  constructor
  · exact reached
  · exact sound.running
  · intro first firstIn second secondIn same
    rcases after first firstIn with rfl | ⟨firstBefore, different⟩
    · rcases after second secondIn with rfl | ⟨-, different⟩
      · rfl
      · exact absurd (same.trans sameFd) different
    · rcases after second secondIn with rfl | ⟨secondBefore, -⟩
      · exact absurd (same.symm.trans sameFd) different
      · exact sound.single first firstBefore second secondBefore same
  · intro later inWires
    rcases after later inWires with rfl | ⟨before, different⟩
    · exact changed
    · exact others later before different

theorem found_wire {fd : Fd} {wire : Wire}
    (found : (s.wires.find? fun wire => wire.fd = fd) = some wire) :
    wire ∈ s.wires ∧ wire.fd = fd :=
  ⟨List.mem_of_find?_eq_some found, by simpa using List.find?_some found⟩

theorem Sound.link_step
    (sound : s.Sound servers maxConnections maxIdleTime serverFd pipeRead inUse) {wire : Wire}
    (member : wire ∈ s.wires) {connfd : Fd}
    (canLink : wire.CanLink (s.server wire.endpoint) connfd) :
    (s.setWire wire.fd fun wire => { wire with peer := .linked connfd }).Sound servers
      maxConnections maxIdleTime serverFd pipeRead inUse := by
  obtain ⟨waiting, isLive, -, batches, accepted⟩ := canLink
  apply sound.setWire member sound.client rfl
  · obtain ⟨socket, opened, endpoint, carried⟩ := sound.joined wire member
    refine ⟨socket, opened, endpoint, fun present => ?_⟩
    obtain ⟨attached, carries⟩ := carried present
    constructor
    · simp only [Wire.Attached, waiting] at attached
      simp only [Wire.Attached, batches, accepted]
      exact ⟨isLive, attached⟩
    · constructor
      · intro nothing
        obtain ⟨settled, read⟩ := carries.settled nothing
        exact ⟨settled, .inr (read.resolve_left (by rw [waiting]; nofun))⟩
      · exact carries.owing
  · exact fun other inWires _ => sound.joined other inWires

/-- The next bytes of a wire are the next bytes of the answer that is waited for. -/
theorem Sound.served_deliver
    (sound : s.Sound servers maxConnections maxIdleTime serverFd pipeRead inUse) {wire : Wire}
    (member : wire ∈ s.wires) (count : Nat) {socket fuller : Socket}
    (opened : s.client.sockets wire.fd = some socket) {bytes : Bytes} {final : Bool}
    (arrived : socket.deliver bytes final = some fuller)
    (isPiece : bytes = wire.stream.answers.take count)
    (isLast : final = wire.completes servers count) :
    ClientState.Served servers.serve s.client (.deliver wire.fd bytes final) := by
  subst isPiece isLast
  intro found isOpen first isFirst call foundCall
  cases opened.symm.trans isOpen
  obtain ⟨owner, others, pending, here, -⟩ := Socket.deliver_eq_some_iff.mp arrived
  rw [pending] at isFirst
  cases isFirst
  obtain ⟨same, openedSame, -, carried⟩ := sound.joined wire member
  cases opened.symm.trans openedSame
  obtain ⟨attached, carries⟩ := carried here
  obtain ⟨-, waiting, foundWaiting, receiving, -⟩ := carries.owing pending
  cases foundCall.symm.trans foundWaiting
  have awaiting := (ClientState.isolated_of_served sound.client).held foundCall
    (by rw [receiving]; rfl) opened
  rw [receiving] at awaiting
  rw [(ClientState.answering_of_served sound.client).arrived_eq foundCall receiving awaiting.1]
  exact carries.served attached (sound.running _) pending count foundCall

theorem Sound.deliver_step
    (sound : s.Sound servers maxConnections maxIdleTime serverFd pipeRead inUse) {wire : Wire}
    (member : wire ∈ s.wires) {count : Nat} (positive : 0 < count)
    (bound : count ≤ wire.stream.answers.length) {client : ClientState Msg}
    (step : s.client.next (.deliver wire.fd (wire.stream.answers.take count)
      (wire.completes servers count)) = some client) :
    ({ s with client := client }.setWire wire.fd fun wire =>
      { wire with stream := wire.stream.deliver count }).Sound servers maxConnections maxIdleTime
        serverFd pipeRead inUse := by
  obtain ⟨socket, opened, step⟩ := Option.bind_eq_some_iff.mp step
  obtain ⟨fuller, arrived, rfl⟩ := Option.map_eq_some_iff.mp step
  have served := sound.served_deliver member count opened arrived rfl rfl
  have reached : Reachable ClientState.next (ClientState.Served servers.serve)
      (.start maxConnections maxIdleTime) (s.client.setSocket wire.fd (some fuller)) := by
    apply Reachable.tail sound.client served
    rw [ClientState.next, opened, Option.bind_some, arrived]
    rfl
  obtain ⟨owner, others, pending, here, rfl⟩ := Socket.deliver_eq_some_iff.mp arrived
  apply sound.setWire member reached rfl
  · obtain ⟨same, openedSame, endpoint, carried⟩ := sound.joined wire member
    cases opened.symm.trans openedSame
    obtain ⟨attached, carries⟩ := carried here
    refine ⟨_, s.client.sockets_setSocket_self wire.fd _, endpoint, fun _ => ?_⟩
    exact ⟨attached.deliver count,
      carries.deliver attached (sound.running _) pending positive bound⟩
  · intro other inWires different
    obtain ⟨otherSocket, openedOther, endpoint, carried⟩ := sound.joined other inWires
    refine ⟨otherSocket, ?_, endpoint, carried⟩
    exact (s.client.sockets_setSocket_of_ne different _).trans openedOther

/-! ### Runs -/

theorem Sound.of_next
    (sound : s.Sound servers maxConnections maxIdleTime serverFd pipeRead inUse)
    {action : SystemAction Msg} (whole : s.Whole servers action)
    (step : s.next servers action = some t) :
    t.Sound servers maxConnections maxIdleTime serverFd pipeRead inUse := by
  cases action with
  | client action =>
      have own : ∀ fd bytes final, action ≠ .deliver fd bytes final := by
        rintro fd bytes final rfl
        cases step
      rw [next_client own] at step
      obtain ⟨client, moved, rfl⟩ := Option.map_eq_some_iff.mp step
      exact sound.client_step own whole moved
  | server endpoint action =>
      obtain ⟨server, moved, step⟩ := Option.bind_eq_some_iff.mp step
      split at step
      · cases step
        exact sound.server_step moved (whole server moved)
      · cases step
  | link fd connfd =>
      obtain ⟨wire, found, step⟩ := Option.bind_eq_some_iff.mp step
      obtain ⟨member, rfl⟩ := found_wire found
      split at step
      · rename_i canLink
        cases step
        exact sound.link_step member canLink.1
      · cases step
  | deliver fd count =>
      obtain ⟨wire, found, step⟩ := Option.bind_eq_some_iff.mp step
      obtain ⟨member, rfl⟩ := found_wire found
      split at step
      · rename_i ready
        obtain ⟨client, moved, rfl⟩ := Option.map_eq_some_iff.mp step
        exact sound.deliver_step member ready.1 ready.2 moved
      · cases step

theorem sound_start (servers : Servers Msg) (maxConnections maxIdleTime : Int)
    (serverFd pipeRead : Fd) (inUse : Fd → Bool) :
    (start maxConnections maxIdleTime serverFd pipeRead inUse : System Msg).Sound servers
      maxConnections maxIdleTime serverFd pipeRead inUse := by
  constructor
  · exact .refl
  · exact fun endpoint => Server.running_of_reachable .refl
  · exact nofun
  · exact nofun

theorem sound_of_reachable
    (reached : Reachable (next servers) (Whole servers)
      (start maxConnections maxIdleTime serverFd pipeRead inUse) s) :
    s.Sound servers maxConnections maxIdleTime serverFd pipeRead inUse := by
  apply reached.invariant (sound_start ..)
  exact fun _ _ _ sound whole step => sound.of_next whole step

/-- In every run of a client and its servers in which requests and answers cross the
network whole, a call that does not fail on its socket ends with the response that its
service makes of its own request. -/
theorem answered_across_network
    (reached : Reachable (next servers) (Whole servers)
      (start maxConnections maxIdleTime serverFd pipeRead inUse) s)
    {i : Nat} {call : Call Msg} {stub : StubCall Msg} {info : ServiceInfo Msg}
    {exit : TaskExit Msg} (found : s.client.calls[i]? = some call)
    (built : stub.marshal = .ok call.sendRpcStr) (output : call.output = stub.method.output)
    (lawful : stub.method.input.Lawful ∧ stub.method.output.Lawful)
    (provides : Provides (servers.provider call.endpoint) info stub)
    (leaves : call.pc.exit? = some exit) (released : exit.disposal = some .release) :
    ∃ target, exit = .answered
      (servers.service call.endpoint ⟨info.service, stub.method, target, stub.request⟩) :=
  answered_of_endsBy built output lawful provides
    ((ClientState.answering_of_served (sound_of_reachable reached).client).ended found leaves)
    released

/-- Two logins on one connection.  The server accepts another client's connection with it
and loses that one, and the second answer comes in two pieces. -/
def twoLogins : List (SystemAction UserMessage) :=
  [.client (.spawn localEndpoint (loginRequest (Bytes.ofString "a"))
      UserServiceRpc.login.output),
    .client (.enter 0), .client (.connected 0 7), .client (.send 0 35 []),
    .server localEndpoint (.wait [(3, Reactor.readableFlags)]),
    .server localEndpoint (.handle { accepts := [(5, 0), (6, 0)] }),
    .server localEndpoint .finish, .link 7 5,
    .server localEndpoint (.wait [(6, Reactor.readableFlags), (5, Reactor.readableFlags)]),
    .server localEndpoint (.handle { recvs := [.received []] }),
    .server localEndpoint (.handle {
      recvs := [.received (loginRequest (Bytes.ofString "a")), .error EAGAIN]
      sent := .sent 4 }),
    .server localEndpoint .finish,
    .deliver 7 4, .client (.recv 0 4), .client (.release 0), .client (.notify 0 none),
    .client (.spawn localEndpoint (loginRequest (Bytes.ofString "bc"))
      UserServiceRpc.login.output),
    .client (.enter 1), .client (.send 1 36 []),
    .server localEndpoint (.wait [(5, Reactor.readableFlags)]),
    .server localEndpoint (.handle {
      recvs := [.received (loginRequest (Bytes.ofString "bc")), .error EAGAIN]
      sent := .sent 4 }),
    .server localEndpoint .finish,
    .deliver 7 2, .deliver 7 2, .client (.recv 1 4)]

set_option maxRecDepth 8000 in
theorem answered_across_network_twice :
    ∃ (s : System UserMessage) (call : Call UserMessage) (target : RpcRequest),
      Reachable (next userServers) (Whole userServers) (start 5000 60 3 4 fun _ => false) s ∧
      s.client.calls[1]? = some call ∧
      call.pc.exit? = some (.answered (.loginResponse (UserService.respond {}))) ∧
      TaskExit.answered (.loginResponse (UserService.respond {})) =
        .answered (userServers.service call.endpoint
          ⟨UserService.registered 0, UserServiceRpc.login, target,
            .loginRequest { name := Bytes.ofString "bc", pwd := Bytes.ofString "1" }⟩) := by
  have run : ∃ s : System UserMessage, Reachable (next userServers) (Whole userServers)
      (start 5000 60 3 4 fun _ => false) s ∧
        ∃ call, s.client.calls[1]? = some call ∧
          (UserServiceRpc.stubLogin
            { name := Bytes.ofString "bc", pwd := Bytes.ofString "1" }).marshal =
              .ok call.sendRpcStr ∧
          call.output = UserServiceRpc.login.output ∧
          call.pc.exit? = some (.answered (.loginResponse (UserService.respond {}))) := by
    apply exists_reachable twoLogins
    · decide +kernel
    · exact ⟨_, rfl, _, rfl, rfl, rfl, rfl⟩
  obtain ⟨s, reached, call, found, built, output, answered⟩ := run
  obtain ⟨target, responded⟩ := answered_across_network reached found built output
    UserServiceRpc.login_lawful ⟨rfl, rfl⟩ answered rfl
  exact ⟨s, call, target, reached, found, answered, responded⟩

/-- Nothing is on its way to a connection that nobody reads from, and what is on its way
continues the answer to the call that reads there. -/
theorem in_flight_of_reachable
    (reached : Reachable (next servers) (Whole servers)
      (start maxConnections maxIdleTime serverFd pipeRead inUse) s)
    {wire : Wire} (member : wire ∈ s.wires) (coming : wire.stream.answers ≠ []) {socket : Socket}
    (opened : s.client.sockets wire.fd = some socket) (present : socket.peerClosed = false) :
    ∃ i call, socket.pending = [i] ∧ s.client.calls[i]? = some call ∧
      call.pc = .receiving wire.fd ∧
        socket.inbound.map ResponseByte.byte ++ wire.stream.answers <+:
          call.answer servers.serve := by
  have sound := sound_of_reachable reached
  obtain ⟨same, openedSame, -, carried⟩ := sound.joined wire member
  cases opened.symm.trans openedSame
  obtain ⟨attached, carries⟩ := carried present
  cases pending : socket.pending with
  | nil =>
      have settled := (carries.settled pending).1
      exact absurd (settled.answers_eq_nil (attached.bounded (sound.running _))) coming
  | cons i others =>
      obtain ⟨rfl, call, found, receiving, endpoint, owing⟩ := carries.owing pending
      have continues := owing.continues (attached.bounded (sound.running _))
        wire.stream.answers.length
      rw [List.take_length] at continues
      refine ⟨i, call, rfl, found, receiving, ?_⟩
      rw [Call.answer, endpoint]
      exact continues

/-- The second answer is on its way. -/
theorem in_flight_of_reachable_login :
    ∃ (s : System UserMessage) (wire : Wire) (socket : Socket),
      Reachable (next userServers) (Whole userServers) (start 5000 60 3 4 fun _ => false) s ∧
      wire ∈ s.wires ∧ wire.stream.answers = [10, 0, 16, 1] ∧
      ∃ i call, socket.pending = [i] ∧ s.client.calls[i]? = some call ∧
        call.pc = .receiving wire.fd ∧
          socket.inbound.map ResponseByte.byte ++ wire.stream.answers <+:
            call.answer userServers.serve := by
  have run : ∃ s : System UserMessage, Reachable (next userServers) (Whole userServers)
      (start 5000 60 3 4 fun _ => false) s ∧
        ∃ wire ∈ s.wires, wire.stream.answers = [10, 0, 16, 1] ∧
          ∃ socket ∈ s.client.sockets wire.fd, socket.peerClosed = false := by
    apply exists_reachable (twoLogins.take 21)
    · decide +kernel
    · decide +kernel
  obtain ⟨s, reached, wire, member, answers, socket, opened, present⟩ := run
  have coming : wire.stream.answers ≠ [] := by
    rw [answers]
    nofun
  exact ⟨s, wire, socket, reached, member, answers,
    in_flight_of_reachable reached member coming opened present⟩

end System

end Mprpc.Deployment
