import Mprpc.Rpc.Provider

/-!
# Request framing

The client writes requests as a stream of frames; the server sees the stream in
batches, one for each `HandleRead`, cut wherever the network cut it.
`onMessage` takes the first frame of a batch and drops what follows, so it
follows the stream exactly when every batch is one frame.

The first part shows what `onMessage` recovers from a frame, the second when it
is safe on an arbitrary text, the third lifts both to a connection.
-/

namespace Mprpc.Rpc

open Mprpc.Net
open Mprpc.Protobuf

universe u

namespace RpcProvider

variable {Msg : Type u}

/-- A method that some registered service offers. -/
def Offers (provider : RpcProvider Msg) (method : MethodDescriptor Msg) : Prop :=
  ∃ serviceName info methodName,
    provider.serviceMap.lookup serviceName = some info ∧
      info.methodMap.lookup methodName = some method

/-- Every offered method's request class behaves as protobuf documents. -/
structure LawfulRequests (provider : RpcProvider Msg) : Prop where
  lawful : ∀ {method}, provider.Offers method → method.input.Lawful
  checksWireType : ∀ {method}, provider.Offers method → method.input.ChecksWireType

/-! ## One frame -/

/-- Unpacking a frame gives back the request, whatever follows the frame. -/
theorem unpack_frame_append {request : RpcRequest} {frame : Bytes}
    (argsBound : request.args.length < sizeLimit) (built : request.frame = some frame)
    (rest : Bytes) : unpack (frame ++ rest) = some request := by
  obtain ⟨headerBound, rfl⟩ := RpcRequest.frame_eq_some_iff.mp built
  have prefixBound : request.header.encode.length < 2 ^ 32 :=
    Nat.lt_trans headerBound (by decide)
  have startBound : 4 + request.header.encode.length < 2 ^ 32 := by
    unfold sizeLimit at headerBound
    omega
  have argsSize : request.header.argsSize.toNat = request.args.length := by
    rw [RpcRequest.header, UInt32.toNat_ofNat',
      Nat.mod_eq_of_lt (Nat.lt_trans argsBound (by decide))]
  have parsed : RpcHeader.parse request.header.encode = some request.header :=
    RpcHeader.parse_of_serialize (RpcHeader.serialize_eq_some_iff.mpr ⟨headerBound, rfl⟩)
  refine unpack_eq_some_iff.mpr ⟨request.header, ?_⟩
  rw [List.append_assoc, List.append_assoc, Bytes.toUInt32_ofUInt32_append prefixBound,
    uint32_of_lt startBound, List.drop_left' (Bytes.length_ofUInt32 _), List.take_left,
    argsSize, ← List.drop_drop, List.drop_left' (Bytes.length_ofUInt32 _), List.drop_left,
    List.take_left]
  refine ⟨?_, parsed, ?_, rfl⟩ <;>
    simp only [List.length_append, Bytes.length_ofUInt32] <;> omega

/-- A call of `Login` with the name "ab". -/
def loginRequest : RpcRequest where
  serviceName := Bytes.ofString "UserServiceRpc"
  methodName := Bytes.ofString "Login"
  args := [10, 2, 97, 98]

/-- `CallMethod` and `OnMessage` agree on the frame format: every request whose
two messages stay below the size limit has a frame, and whatever follows the
frame, `OnMessage` goes on with that request. -/
theorem onMessage_frame_round_trip (request : RpcRequest)
    (argsBound : request.args.length < sizeLimit)
    (headerBound : request.header.encode.length < sizeLimit) :
    ∃ frame, request.frame = some frame ∧
      ∀ rest, unpack (frame ++ rest) = some request ∧
        ∀ provider : RpcProvider Msg,
          provider.onMessage (frame ++ rest) = provider.route request := by
  have built := RpcRequest.frame_eq_some_iff.mpr ⟨headerBound, rfl⟩
  refine ⟨_, built, fun rest => ?_⟩
  have unpacked := unpack_frame_append argsBound built rest
  exact ⟨unpacked, fun provider => onMessage_of_unpack unpacked⟩

theorem login_frame_round_trip :
    ∃ frame, loginRequest.frame = some frame ∧
      ∀ rest, unpack (frame ++ rest) = some loginRequest ∧
        ∀ provider : RpcProvider RpcHeader,
          provider.onMessage (frame ++ rest) = provider.route loginRequest :=
  onMessage_frame_round_trip loginRequest (by decide) (by decide)

/-- A registered request's frame is dispatched to its method, whatever follows
the frame. -/
theorem onMessage_frame_append {provider : RpcProvider Msg} {request : RpcRequest}
    {frame : Bytes} (requests : provider.LawfulRequests) (registered : provider.Registered request)
    (built : request.frame = some frame) (rest : Bytes) :
    ∃ call, provider.onMessage (frame ++ rest) = .dispatched call ∧ call.target = request := by
  obtain ⟨info, method, message, service, found, serialized⟩ := registered
  have lawful := requests.lawful ⟨_, info, _, service, found⟩
  have routed : provider.route request = .dispatched ⟨info.service, method, request, message⟩ :=
    route_eq_dispatched_iff.mpr
      ⟨info, method, message, service, found, lawful.parse_serialize serialized, rfl⟩
  exact ⟨_, onMessage_eq_dispatched_iff.mpr
    ⟨request, unpack_frame_append (lawful.serialize_length serialized) built rest, routed⟩, rfl⟩

/-! ## Arbitrary texts -/

/-- A text on which `OnMessage` neither throws nor passes a service anything
but the complete arguments of a complete frame. -/
def HandlesSafely (provider : RpcProvider Msg) (recvBuf : Bytes) : Prop :=
  provider.onMessage recvBuf ≠ .outOfRange ∧
    ∀ call, provider.onMessage recvBuf = .dispatched call →
      ∃ rpcHeader, RpcHeader.parse ((recvBuf.drop 4).take recvBuf.toUInt32) = some rpcHeader ∧
        4 + recvBuf.toUInt32 + rpcHeader.argsSize.toNat ≤ recvBuf.length ∧
        call.target = ⟨rpcHeader.serviceName, rpcHeader.methodName,
          (recvBuf.drop (4 + recvBuf.toUInt32)).take rpcHeader.argsSize.toNat⟩

/-- The texts that are safe: a length prefix is there; and when the header
parses, the 32-bit start of the arguments is not behind the end, and what is
cut out from there is refused by every registered method unless the frame is
complete and its arguments start there. -/
def WellFramed (provider : RpcProvider Msg) (recvBuf : Bytes) : Prop :=
  4 ≤ recvBuf.length ∧
    ∀ rpcHeader, RpcHeader.parse ((recvBuf.drop 4).take recvBuf.toUInt32) = some rpcHeader →
      let start := uint32 (4 + recvBuf.toUInt32)
      let argsStr := (recvBuf.drop start).take rpcHeader.argsSize.toNat
      start ≤ recvBuf.length ∧
        (provider.Accepts ⟨rpcHeader.serviceName, rpcHeader.methodName, argsStr⟩ →
          4 + recvBuf.toUInt32 + rpcHeader.argsSize.toNat ≤ recvBuf.length ∧
            argsStr = (recvBuf.drop (4 + recvBuf.toUInt32)).take rpcHeader.argsSize.toNat)

/-- `OnMessage` is safe on exactly the well-framed texts. -/
theorem handlesSafely_iff_wellFramed (provider : RpcProvider Msg) (recvBuf : Bytes) :
    provider.HandlesSafely recvBuf ↔ provider.WellFramed recvBuf := by
  unfold HandlesSafely WellFramed
  constructor
  · rintro ⟨returns, complete⟩
    have reads := mt onMessage_eq_outOfRange_iff.mpr returns
    rw [not_or, not_and, Nat.not_lt, Nat.not_lt] at reads
    refine ⟨reads.1, fun rpcHeader parsed => ⟨reads.2 ⟨rpcHeader, parsed⟩, fun accepted => ?_⟩⟩
    obtain ⟨call, routed⟩ := accepts_iff.mp accepted
    have unpacked := unpack_eq_some_iff.mpr
      ⟨rpcHeader, reads.1, parsed, reads.2 ⟨rpcHeader, parsed⟩, rfl⟩
    obtain ⟨header, headerParsed, fits, target⟩ := complete call
      (onMessage_eq_dispatched_iff.mpr ⟨_, unpacked, routed⟩)
    cases parsed.symm.trans headerParsed
    rw [target_of_route routed] at target
    exact ⟨fits, congrArg RpcRequest.args target⟩
  · rintro ⟨long, framed⟩
    constructor
    · intro throws
      rcases onMessage_eq_outOfRange_iff.mp throws with short | ⟨⟨rpcHeader, parsed⟩, behind⟩
      · omega
      · have inside := (framed rpcHeader parsed).1
        omega
    · intro call dispatched
      obtain ⟨target, unpacked, routed⟩ := onMessage_eq_dispatched_iff.mp dispatched
      obtain ⟨rpcHeader, -, parsed, -, rfl⟩ := unpack_eq_some_iff.mp unpacked
      obtain ⟨fits, exactArgs⟩ := (framed rpcHeader parsed).2 (accepts_iff.mpr ⟨call, routed⟩)
      refine ⟨rpcHeader, parsed, fits, ?_⟩
      rw [target_of_route routed, exactArgs]

/-- One byte makes `OnMessage` throw, and a frame cut before its arguments makes
it call the service with none. -/
theorem not_handlesSafely_cut_frame :
    ¬ userProvider.HandlesSafely [1] ∧
      ∃ frame, loginRequest.frame = some frame ∧
        ¬ userProvider.HandlesSafely (frame.take 29) := by
  refine ⟨fun safe => safe.1 rfl, _, rfl, fun safe => ?_⟩
  obtain ⟨rpcHeader, parsed, fits, -⟩ := safe.2 _ rfl
  cases parsed
  revert fits
  decide

/-! ## A batch is no shorter than the frame dispatched from it -/

theorem length_writeVarint_mono {small large : Nat} (le : small ≤ large)
    (bound : large < 2 ^ 32) :
    (writeVarint 4 small).length ≤ (writeVarint 4 large).length := by
  have read : readVarint 5 (writeVarint 4 large ++ []) = some (large, []) :=
    readVarint_writeVarint_append (by decide) (Nat.lt_trans bound (by decide)) []
  have short := length_writeVarint_add_le (j := 4) read le
  simpa using short

/-- A header with a smaller argument size is no longer. -/
theorem length_encode_mono (header : RpcHeader) (size : UInt32)
    (le : size.toNat ≤ header.argsSize.toNat) :
    ({ header with argsSize := size } : RpcHeader).encode.length ≤ header.encode.length := by
  have field : (RpcHeader.uint32Field 24 size.toNat).length ≤
      (RpcHeader.uint32Field 24 header.argsSize.toNat).length := by
    unfold RpcHeader.uint32Field
    have short := length_writeVarint_mono le header.argsSize.toNat_lt
    by_cases default : size.toNat = 0
    · simp [default]
    · have notDefault : header.argsSize.toNat ≠ 0 := by omega
      simp only [if_neg default, if_neg notDefault, List.length_cons]
      omega
  simp only [RpcHeader.encode, List.length_append]
  omega

/-- When `4 + header_size` wraps, a non-empty argument string starts with a
byte of the length prefix that is no tag. -/
theorem args_of_wrapped {recvBuf : Bytes} (long : 4 ≤ recvBuf.length)
    (wraps : 2 ^ 32 ≤ 4 + recvBuf.toUInt32) {size : Nat} (positive : 0 < size) :
    ∃ byte rest, (recvBuf.drop (uint32 (4 + recvBuf.toUInt32))).take size = byte :: rest ∧
      (byte.toNat % 8 = 4 ∨ byte.toNat % 8 = 6 ∨ byte.toNat % 8 = 7) := by
  obtain ⟨more, rfl⟩ : ∃ more, size = more + 1 := ⟨size - 1, by omega⟩
  match recvBuf, long with
  | first :: second :: third :: fourth :: rest, _ =>
      have value : Bytes.toUInt32 (first :: second :: third :: fourth :: rest) =
          first.toNat + 256 * (second.toNat + 256 * (third.toNat + 256 * fourth.toNat)) := by
        simp [Bytes.toUInt32, Bytes.littleEndian]
      have firstBound := first.toNat_lt
      have secondBound := second.toNat_lt
      have thirdBound := third.toNat_lt
      have fourthBound := fourth.toNat_lt
      rw [value] at wraps ⊢
      have allOnes : second.toNat = 255 ∧ third.toNat = 255 ∧ fourth.toNat = 255 := by omega
      have start : uint32 (4 + (first.toNat +
          256 * (second.toNat + 256 * (third.toNat + 256 * fourth.toNat)))) =
            first.toNat - 252 := by
        unfold uint32
        omega
      rw [start]
      have cases : first.toNat = 252 ∨ first.toNat = 253 ∨ first.toNat = 254 ∨
          first.toNat = 255 := by omega
      rcases cases with lowest | low | high | highest
      · exact ⟨first, (second :: third :: fourth :: rest).take more, by simp [lowest],
          Or.inl (by omega)⟩
      · exact ⟨second, (third :: fourth :: rest).take more, by simp [low],
          Or.inr (Or.inr (by omega))⟩
      · exact ⟨third, (fourth :: rest).take more, by simp [high], Or.inr (Or.inr (by omega))⟩
      · exact ⟨fourth, rest.take more, by simp [highest], Or.inr (Or.inr (by omega))⟩

/-- No frame is longer than a text it is dispatched from. -/
theorem length_frame_le_of_dispatched {provider : RpcProvider Msg} {recvBuf frame : Bytes}
    {call : Dispatch Msg} (requests : provider.LawfulRequests)
    (dispatched : provider.onMessage recvBuf = .dispatched call)
    (built : call.target.frame = some frame) : frame.length ≤ recvBuf.length := by
  obtain ⟨target, unpacked, routed⟩ := onMessage_eq_dispatched_iff.mp dispatched
  rw [target_of_route routed] at built
  obtain ⟨rpcHeader, long, parsed, inside, rfl⟩ := unpack_eq_some_iff.mp unpacked
  obtain ⟨info, method, request, service, found, accepted, -⟩ :=
    route_eq_dispatched_iff.mp routed
  have headerShort := RpcHeader.length_encode_le_of_parse parsed
  simp only [List.length_take, List.length_drop] at headerShort
  have sizeBound := rpcHeader.argsSize.toNat_lt
  have textBound := Bytes.toUInt32_lt recvBuf
  rw [RpcRequest.length_of_frame built]
  dsimp only [RpcRequest.header] at accepted ⊢
  generalize argsEq : (recvBuf.drop (uint32 (4 + recvBuf.toUInt32))).take
    rpcHeader.argsSize.toNat = args at accepted ⊢
  have argsLength : args.length =
      min rpcHeader.argsSize.toNat (recvBuf.length - uint32 (4 + recvBuf.toUInt32)) := by
    rw [← argsEq, List.length_take, List.length_drop]
  have argsCount : (UInt32.ofNat args.length).toNat = args.length := by
    rw [UInt32.toNat_ofNat', Nat.mod_eq_of_lt (by omega)]
  have encodeShort := length_encode_mono rpcHeader (UInt32.ofNat args.length) (by omega)
  by_cases wraps : 2 ^ 32 ≤ 4 + recvBuf.toUInt32
  · by_cases noArgs : rpcHeader.argsSize.toNat = 0
    · omega
    · obtain ⟨byte, rest, starts, badType⟩ :=
        args_of_wrapped long wraps (Nat.pos_of_ne_zero noArgs)
      rw [argsEq] at starts
      have refused : method.input.parse (byte :: rest) = none :=
        requests.checksWireType ⟨_, info, _, service, found⟩ badType
      rw [starts, refused] at accepted
      contradiction
  · have start : uint32 (4 + recvBuf.toUInt32) = 4 + recvBuf.toUInt32 :=
      uint32_of_lt (by omega)
    omega

/-! ## The stream of a connection -/

/-- What one call of `HandleRead` meets: the results of `recv`, and the
responses that the called service sends. -/
structure ReadEvent (Msg : Type u) where
  recvs : List RecvRet
  replies : Replies Msg := []

/-- The bytes that one `HandleRead` takes in. -/
def ReadEvent.batch (event : ReadEvent Msg) : Bytes :=
  TcpConnection.received event.recvs

/-- The batches that reach `OnMessage`: a `HandleRead` that took in nothing
does not run the message callback. -/
def batches (events : List (ReadEvent Msg)) : List Bytes :=
  (events.map ReadEvent.batch).filter (· ≠ [])

/-- Successive `HandleRead` calls of one connection.  An exception out of
`OnMessage` leaves the event loop, so nothing is read after it. -/
def serve (provider : RpcProvider Msg) :
    TcpConnection → List (ReadEvent Msg) → List (MessageOutcome Msg)
  | _, [] => []
  | conn, event :: events =>
      match conn.handleRead (provider.messageCallback event.replies) event.recvs with
      | (_, some .outOfRange) => [.outOfRange]
      | (conn, some outcome) => outcome :: provider.serve conn events
      | (conn, none) => provider.serve conn events

/-- `OnMessage` on one batch after the other. -/
def onBatches (provider : RpcProvider Msg) : List Bytes → List (MessageOutcome Msg)
  | [] => []
  | recvBuf :: rest =>
      match provider.onMessage recvBuf with
      | .outOfRange => [.outOfRange]
      | outcome => outcome :: provider.onBatches rest

/-- The requests that service methods were called for, in order. -/
def dispatches (outcomes : List (MessageOutcome Msg)) : List RpcRequest :=
  outcomes.filterMap MessageOutcome.target?

/-- A connection between two reads: connected, with all input handed on. -/
def Idle (conn : TcpConnection) : Prop :=
  conn.state = .kConnected ∧ conn.inputBuffer.readable = []

theorem idle_reply {conn : TcpConnection} {call : Dispatch Msg} {replies : Replies Msg}
    (idle : Idle conn) : Idle (reply conn call replies) := by
  unfold reply
  induction replies generalizing conn with
  | nil => exact idle
  | cons first replies inductionHypothesis =>
      obtain ⟨response, ret⟩ := first
      apply inductionHypothesis
      dsimp only [sendRpcResponse]
      split
      · exact ⟨by rw [TcpConnection.send_state, idle.1],
          by rw [TcpConnection.send_inputBuffer, idle.2]⟩
      · exact idle

theorem messageCallback_spec (provider : RpcProvider Msg) (replies : Replies Msg)
    {conn : TcpConnection} (connected : conn.state = .kConnected) :
    ∃ next, Idle next ∧ provider.messageCallback replies conn =
      (next, some (provider.onMessage conn.inputBuffer.readable)) := by
  have retrieved : Idle { conn with inputBuffer := conn.inputBuffer.retrieveAll } :=
    ⟨connected, Buffer.readable_retrieveAll _⟩
  unfold messageCallback Buffer.retrieveAllAsString
  dsimp only
  split
  · rename_i call dispatched
    exact ⟨_, idle_reply retrieved, by rw [dispatched]⟩
  · exact ⟨_, retrieved, rfl⟩

/-- One `HandleRead` of an idle connection hands its batch to `OnMessage` and
leaves the connection idle. -/
theorem handleRead_of_idle (provider : RpcProvider Msg) {conn : TcpConnection}
    {event : ReadEvent Msg} (idle : Idle conn)
    (staysOpen : TcpConnection.StaysOpen event.recvs) :
    ∃ next, Idle next ∧
      conn.handleRead (provider.messageCallback event.replies) event.recvs =
        (next, if event.batch = [] then none else some (provider.onMessage event.batch)) := by
  obtain ⟨state, input⟩ := TcpConnection.recvLoop_of_staysOpen conn staysOpen
  rw [idle.1] at state
  rw [idle.2, List.nil_append] at input
  change _ = event.batch at input
  unfold TcpConnection.handleRead TcpConnection.messageReady TcpConnection.connected
  simp only [state, beq_self_eq_true, Bool.true_and, decide_eq_true_eq,
    Buffer.readableBytes_pos_iff, input, ne_eq]
  by_cases nothing : event.batch = []
  · rw [if_neg (not_not.mpr nothing), if_pos nothing]
    exact ⟨_, ⟨state, input.trans nothing⟩, rfl⟩
  · obtain ⟨next, nextIdle, result⟩ :=
      provider.messageCallback_spec event.replies state
    rw [if_pos nothing, if_neg nothing, result, input]
    exact ⟨next, nextIdle, rfl⟩

/-- The outcomes on a connection that stays open are those of its batches. -/
theorem serve_eq_onBatches (provider : RpcProvider Msg) {conn : TcpConnection}
    {events : List (ReadEvent Msg)} (idle : Idle conn)
    (staysOpen : ∀ event ∈ events, TcpConnection.StaysOpen event.recvs) :
    provider.serve conn events = provider.onBatches (batches events) := by
  induction events generalizing conn with
  | nil => rfl
  | cons event events inductionHypothesis =>
      obtain ⟨next, nextIdle, read⟩ :=
        provider.handleRead_of_idle idle (staysOpen event List.mem_cons_self)
      have rest := inductionHypothesis nextIdle fun other member =>
        staysOpen other (List.mem_cons_of_mem event member)
      rw [serve, read]
      by_cases nothing : event.batch = []
      · simp [nothing, batches] at rest ⊢
        exact rest
      · have first : batches (event :: events) = event.batch :: batches events := by
          simp [batches, nothing]
        rw [first, onBatches, if_neg nothing]
        cases outcome : provider.onMessage event.batch <;> simp [rest]

theorem batches_flatten (events : List (ReadEvent Msg)) :
    (batches events).flatten = (events.map ReadEvent.batch).flatten := by
  induction events with
  | nil => rfl
  | cons event events inductionHypothesis =>
      by_cases nothing : event.batch = [] <;> simp_all [batches]

theorem ne_nil_of_mem_batches {events : List (ReadEvent Msg)} {recvBuf : Bytes}
    (member : recvBuf ∈ batches events) : recvBuf ≠ [] := by
  simpa using List.of_mem_filter member

/-- One batch in front: either it dispatches the first of the requests, or
dispatching goes on without it, or it stops everything. -/
theorem dispatches_onBatches_cons (provider : RpcProvider Msg) (recvBuf : Bytes)
    (rest : List Bytes) :
    (∃ call, provider.onMessage recvBuf = .dispatched call ∧
      dispatches (provider.onBatches (recvBuf :: rest)) =
        call.target :: dispatches (provider.onBatches rest)) ∨
    dispatches (provider.onBatches (recvBuf :: rest)) = dispatches (provider.onBatches rest) ∨
    dispatches (provider.onBatches (recvBuf :: rest)) = [] := by
  rw [onBatches]
  cases provider.onMessage recvBuf with
  | outOfRange => exact .inr (.inr rfl)
  | dispatched call => exact .inl ⟨call, rfl, rfl⟩
  | headerError _ => exact .inr (.inl rfl)
  | noService _ => exact .inr (.inl rfl)
  | noMethod _ _ => exact .inr (.inl rfl)
  | requestError _ => exact .inr (.inl rfl)

/-- The frames of the dispatched requests take no more bytes than the batches,
and as many only when they are as long as the batches one by one. -/
theorem length_frames_le {provider : RpcProvider Msg} (requests : provider.LawfulRequests)
    {recvBufs frames : List Bytes} (nonempty : ∀ recvBuf ∈ recvBufs, recvBuf ≠ [])
    (built : (dispatches (provider.onBatches recvBufs)).map RpcRequest.frame =
      frames.map some) :
    frames.flatten.length ≤ recvBufs.flatten.length ∧
      (frames.flatten.length = recvBufs.flatten.length →
        recvBufs.map List.length = frames.map List.length) := by
  induction recvBufs generalizing frames with
  | nil =>
      have noFrames : frames = [] := by simpa [onBatches, dispatches] using built.symm
      simp [noFrames]
  | cons recvBuf rest inductionHypothesis =>
      have bufPositive : 0 < recvBuf.length :=
        List.length_pos_iff.mpr (nonempty recvBuf List.mem_cons_self)
      have restNonempty : ∀ other ∈ rest, other ≠ [] := fun other member =>
        nonempty other (List.mem_cons_of_mem recvBuf member)
      rcases provider.dispatches_onBatches_cons recvBuf rest with
        ⟨call, dispatched, first⟩ | skipped | stopped
      · rw [first, List.map_cons] at built
        cases frames with
        | nil => simp at built
        | cons frame frames =>
            simp only [List.map_cons, List.cons.injEq] at built
            have frameShort := length_frame_le_of_dispatched requests dispatched built.1
            obtain ⟨restShort, restExact⟩ := inductionHypothesis restNonempty built.2
            simp only [List.flatten_cons, List.length_append, List.map_cons, List.cons.injEq]
            refine ⟨by omega, fun equal => ⟨by omega, restExact (by omega)⟩⟩
      · rw [skipped] at built
        obtain ⟨restShort, -⟩ := inductionHypothesis restNonempty built
        simp only [List.flatten_cons, List.length_append]
        exact ⟨by omega, fun equal => by omega⟩
      · have noFrames : frames = [] := by simpa [stopped] using built.symm
        subst noFrames
        simp only [List.flatten_cons, List.length_append, List.flatten_nil, List.length_nil]
        exact ⟨by omega, fun equal => by omega⟩

/-- Batches that are the frames of registered requests are dispatched one by
one. -/
theorem dispatches_onBatches_frames {provider : RpcProvider Msg}
    (lawful : provider.LawfulRequests) {requests : List RpcRequest} {frames : List Bytes}
    (registered : ∀ request ∈ requests, provider.Registered request)
    (built : requests.map RpcRequest.frame = frames.map some) :
    dispatches (provider.onBatches frames) = requests := by
  induction requests generalizing frames with
  | nil =>
      have noFrames : frames = [] := by simpa using built.symm
      simp [noFrames, onBatches, dispatches]
  | cons request requests inductionHypothesis =>
      cases frames with
      | nil => simp at built
      | cons frame frames =>
          simp only [List.map_cons, List.cons.injEq] at built
          obtain ⟨call, dispatched, target⟩ := onMessage_frame_append lawful
            (registered request List.mem_cons_self) built.1 []
          have rest := inductionHypothesis
            (fun other member => registered other (List.mem_cons_of_mem request member)) built.2
          rw [List.append_nil] at dispatched
          rw [onBatches, dispatched]
          simpa [dispatches, MessageOutcome.target?, target] using rest

/-- Whatever way the stream of frames is cut into batches, exactly the sent
requests are dispatched if and only if every batch is one whole frame. -/
theorem dispatches_serve_eq_iff {provider : RpcProvider Msg} (lawful : provider.LawfulRequests)
    {conn : TcpConnection} (idle : Idle conn) {requests : List RpcRequest}
    {frames : List Bytes} {events : List (ReadEvent Msg)}
    (registered : ∀ request ∈ requests, provider.Registered request)
    (built : requests.map RpcRequest.frame = frames.map some)
    (staysOpen : ∀ event ∈ events, TcpConnection.StaysOpen event.recvs)
    (delivered : (events.map ReadEvent.batch).flatten = frames.flatten) :
    dispatches (provider.serve conn events) = requests ↔ batches events = frames := by
  rw [provider.serve_eq_onBatches idle staysOpen]
  constructor
  · intro dispatched
    have sameBytes : (batches events).flatten = frames.flatten :=
      (batches_flatten events).trans delivered
    have sameLengths := (length_frames_le lawful (fun _ => ne_nil_of_mem_batches)
      (by rw [dispatched, built])).2 (by rw [sameBytes])
    exact List.eq_iff_flatten_eq.mpr ⟨sameBytes, sameLengths⟩
  · intro whole
    rw [whole]
    exact dispatches_onBatches_frames lawful registered built

/-- Two frames read as one batch: the second request is lost. -/
theorem coalesced_request_lost :
    ∃ frame, loginRequest.frame = some frame ∧
      dispatches (userProvider.serve (TcpConnection.new 5)
        [{ recvs := [.received (frame ++ frame)] }]) ≠ [loginRequest, loginRequest] :=
  ⟨_, rfl, by decide +kernel⟩

theorem userProvider_lawfulRequests : userProvider.LawfulRequests := by
  have onlyLogin : ∀ {method}, userProvider.Offers method →
      method = ⟨Bytes.ofString "Login", RpcHeader.codec, RpcHeader.codec⟩ := by
    rintro method ⟨serviceName, info, methodName, service, found⟩
    cases List.mem_singleton.mp (AssocMap.mem_of_lookup service)
    cases List.mem_singleton.mp (AssocMap.mem_of_lookup found)
    rfl
  constructor
  · rintro method offered
    rw [onlyLogin offered]
    exact RpcHeader.codec_lawful
  · rintro method offered
    rw [onlyLogin offered]
    exact RpcHeader.codec_checksWireType

/-- The same two frames read one by one. -/
theorem separate_requests_dispatched :
    ∃ frame, loginRequest.frame = some frame ∧
      dispatches (userProvider.serve (TcpConnection.new 5)
        [{ recvs := [.received frame] }, { recvs := [.received frame] }]) =
          [loginRequest, loginRequest] := by
  have registered : userProvider.Registered loginRequest :=
    ⟨_, _, { serviceName := [97, 98] }, rfl, rfl, rfl⟩
  refine ⟨_, rfl, (dispatches_serve_eq_iff userProvider_lawfulRequests ⟨rfl, rfl⟩ ?_ rfl ?_ rfl).mpr
    rfl⟩
  · simp [registered]
  · simp [TcpConnection.StaysOpen, Bytes.ofUInt32]

end RpcProvider

end Mprpc.Rpc
