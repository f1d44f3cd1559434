import Mprpc.Client.Isolation

/-!
# What an answered call has read

Beside the client stands what its servers compute: `serve endpoint request` is
the text that the server at an address sends in answer to a request, empty when
it sends none.  When servers send nothing but their answers and every `recv`
finds the whole answer in its buffer, a call that ends with a response has
parsed the answer to its own request, whichever connections were reused in
between and by whom.
-/

namespace Mprpc.Client

open Mprpc.Net
open Mprpc.Rpc
open Mprpc.Transition

universe u

/-- How a call ends, from the moment its task knows. -/
def CallPc.exit? {Msg : Type u} : CallPc Msg → Option (TaskExit Msg)
  | .releasing _ exit | .notifying exit | .finished exit => some exit
  | _ => none

theorem CallPc.exit?_of_awake {Msg : Type u} {pc : CallPc Msg}
    (awake : pc = .entering ∨ pc = .notified) : pc.exit? = none := by
  rcases awake with rfl | rfl
  · rfl
  · rfl

/-- What the server of a call sends in answer to its request. -/
def Call.answer {Msg : Type u} (serve : Endpoint → Bytes → Bytes) (call : Call Msg) : Bytes :=
  serve call.endpoint call.sendRpcStr

/-- A call that gives its connection back has parsed the answer to its request. -/
def Call.EndsBy {Msg : Type u} (serve : Endpoint → Bytes → Bytes) (call : Call Msg)
    (exit : TaskExit Msg) : Prop :=
  exit.disposal = some .release →
    call.answer serve ≠ [] ∧ exit = afterRecv call.output (.received (call.answer serve))

/-- A request leaves what there is to read. -/
@[simp]
theorem Socket.request_inbound (socket : Socket) (i count size : Nat) (garbled : List Nat) :
    (socket.request i count size garbled).inbound = socket.inbound := by
  unfold request
  split
  · split
    · rfl
    · rfl
  · rfl

namespace ClientState

variable {Msg : Type u}

/-- The bytes of the answer to call `i` that were parsed or wait on a
connection. -/
def arrived (s : ClientState Msg) (socket : Socket) (i : Nat) : Bytes :=
  ((s.parsed.flatMap Prod.snd ++ socket.inbound).filter fun byte => byte.owner = i).map
    ResponseByte.byte

/-- A piece that arrives continues the answer to the first pending request, and
the last piece completes it.  A `recv` returns once the answer is there, and
returns all of it. -/
def Served (serve : Endpoint → Bytes → Bytes) (s : ClientState Msg) : ClientAction Msg → Prop
  | .deliver fd bytes final =>
      ∀ socket ∈ s.sockets fd, ∀ owner ∈ socket.pending.head?, ∀ call ∈ s.calls[owner]?,
        s.arrived socket owner ++ bytes <+: call.answer serve ∧
          (final = true → s.arrived socket owner ++ bytes = call.answer serve)
  | .recv i count =>
      ∀ call ∈ s.calls[i]?, ∀ fd ∈ call.pc.fd?, ∀ socket ∈ s.sockets fd,
        0 < count ∧ count = socket.inbound.length ∧ socket.pending = []
  | _ => True

instance (serve : Endpoint → Bytes → Bytes) (s : ClientState Msg) :
    (action : ClientAction Msg) → Decidable (Served serve s action)
  | .deliver fd _ _ => inferInstanceAs (Decidable (∀ socket ∈ s.sockets fd, _))
  | .recv i _ => inferInstanceAs (Decidable (∀ call ∈ s.calls[i]?, _))
  | .spawn .. | .enter _ | .wakeSpuriously _ | .connected .. | .connectFailed .. | .send ..
  | .sendError .. | .recvError .. | .release _ | .notify .. | .sweep _ | .elapse _
  | .peerClose _ => isTrue trivial

theorem takesWholeAnswer_of_served {serve : Endpoint → Bytes → Bytes} {s : ClientState Msg}
    {action : ClientAction Msg} (served : Served serve s action) : TakesWholeAnswer s action := by
  cases action with
  | recv i count =>
      intro call found fd holds socket opened _
      rcases served call found fd holds socket opened with ⟨-, all, settled⟩
      exact ⟨all, .inl settled⟩
  | _ => trivial

/-- A task that received bytes gives its connection back, with the exit that the
bytes lead to. -/
theorem leave_received (s : ClientState Msg) (i : Nat) (call : Call Msg) (fd : Fd)
    (recvBuf : Bytes) :
    s.leave i call fd (afterRecv call.output (.received recvBuf)) =
      s.setCall i
        { call with pc := .releasing fd (afterRecv call.output (.received recvBuf)) } := by
  cases parsed : call.output.parse recvBuf with
  | none => simp [afterRecv, parsed, leave, TaskExit.disposal]
  | some response => simp [afterRecv, parsed, leave, TaskExit.disposal]

/-- The effect of a `recv` with the exit that it leads to. -/
theorem received_of_next {s t : ClientState Msg} {i count : Nat}
    (step : s.next (.recv i count) = some t) :
    ∃ call fd socket, s.calls[i]? = some call ∧ call.pc = .receiving fd ∧
      s.sockets fd = some socket ∧
      t = ({ s with parsed := s.parsed ++ [(i, socket.inbound.take count)] }.setSocket fd
        (some (socket.receive count))).setCall i
          { call with pc := .releasing fd (afterRecv call.output
            (.received ((socket.inbound.take count).map ResponseByte.byte))) } := by
  rcases Option.bind_eq_some_iff.mp step with ⟨call, found, step⟩
  split at step
  · rename_i fd receiving
    rcases Option.bind_eq_some_iff.mp step with ⟨socket, opened, step⟩
    unfold received at step
    split at step
    · cases step
      exact ⟨call, fd, socket, found, receiving, opened, leave_received _ i call fd _⟩
    · cases step
  · cases step

/-! ## The invariant -/

/-- What waits for a call on its connection begins the answer to it, and is all
of it when nothing is pending. -/
def Begins (answer : Bytes) (socket : Socket) : Prop :=
  socket.inbound.map ResponseByte.byte <+: answer ∧
    (socket.pending = [] →
      socket.inbound = [] ∨ socket.inbound.map ResponseByte.byte = answer)

/-- Bytes are parsed by calls that know their exit, calls that receive have the
beginning of their answer, and calls that end have read it or failed before. -/
structure Answering (serve : Endpoint → Bytes → Bytes) (s : ClientState Msg) : Prop where
  parsed_past : ∀ {entry byte}, entry ∈ s.parsed → byte ∈ entry.2 →
    ∃ call, s.calls[byte.owner]? = some call ∧ call.pc.exit? ≠ none
  receiving : ∀ {i : Nat} {call : Call Msg} {fd : Fd} {socket : Socket},
    s.calls[i]? = some call → call.pc = .receiving fd → s.sockets fd = some socket →
      Begins (call.answer serve) socket
  ended : ∀ {i : Nat} {call : Call Msg} {exit : TaskExit Msg}, s.calls[i]? = some call →
    call.pc.exit? = some exit → call.EndsBy serve exit

namespace Answering

variable {serve : Endpoint → Bytes → Bytes} {s t : ClientState Msg} {i : Nat} {call : Call Msg}
  {pc : CallPc Msg}

/-- A call moves on: it does not forget its exit, and the new program counter
expects no more than holds. -/
theorem move (answering : s.Answering serve) (found : s.calls[i]? = some call)
    (past : call.pc.exit? ≠ none → pc.exit? ≠ none)
    (reads : ∀ {fd socket}, pc = .receiving fd → s.sockets fd = some socket →
      Begins (call.answer serve) socket)
    (ends : ∀ {exit}, pc.exit? = some exit → call.EndsBy serve exit) :
    (s.setCall i { call with pc := pc }).Answering serve := by
  constructor
  · intro entry byte member inside
    rcases answering.parsed_past member inside with ⟨owner, foundOwner, knows⟩
    by_cases same : byte.owner = i
    · rw [same] at foundOwner
      cases found.symm.trans foundOwner
      refine ⟨{ call with pc := pc }, ?_, past knows⟩
      rw [getElem?_setCall found, if_pos same]
    · refine ⟨owner, ?_, knows⟩
      rw [getElem?_setCall found, if_neg same]
      exact foundOwner
  · intro j moved fd socket foundMoved isReceiving opened
    rw [getElem?_setCall found] at foundMoved
    split at foundMoved
    · cases foundMoved
      exact reads isReceiving opened
    · exact answering.receiving foundMoved isReceiving opened
  · intro j moved exit foundMoved leaves
    rw [getElem?_setCall found] at foundMoved
    split at foundMoved
    · cases foundMoved
      exact ends leaves
    · exact answering.ended foundMoved leaves

/-- A call that does not know its exit moves on without knowing it. -/
theorem moveOn (answering : s.Answering serve) (found : s.calls[i]? = some call)
    (before : call.pc.exit? = none) (after : pc.exit? = none)
    (elsewhere : ∀ fd, pc ≠ .receiving fd) :
    (s.setCall i { call with pc := pc }).Answering serve := by
  apply answering.move found
  · intro knows
    exact absurd before knows
  · intro fd socket isReceiving _
    exact absurd isReceiving (elsewhere fd)
  · intro exit leaves
    rw [after] at leaves
    cases leaves

/-- A call ends without a connection to give back. -/
theorem fail (answering : s.Answering serve) (found : s.calls[i]? = some call)
    {exit : TaskExit Msg} (failed : exit.disposal ≠ some .release) :
    (s.setCall i { call with pc := .finished exit }).Answering serve := by
  apply answering.move found
  · intro _ forgotten
    cases forgotten
  · intro fd socket isReceiving _
    cases isReceiving
  · intro exit leaves released
    cases leaves
    exact absurd released failed

/-- A call keeps its exit on the way out. -/
theorem keep (answering : s.Answering serve) (found : s.calls[i]? = some call)
    {exit : TaskExit Msg} (before : call.pc.exit? = some exit) (after : pc.exit? = some exit) :
    (s.setCall i { call with pc := pc }).Answering serve := by
  apply answering.move found
  · intro _ forgotten
    rw [after] at forgotten
    cases forgotten
  · intro fd socket isReceiving _
    rw [isReceiving] at after
    cases after
  · intro exit leaves
    rw [after, ← before] at leaves
    exact answering.ended found leaves

/-- Sockets may be closed, or change in ways that calls do not read. -/
theorem setSockets (answering : s.Answering serve) {sockets : Fd → Option Socket}
    (keeps : ∀ {fd changed}, sockets fd = some changed →
      ∃ socket, s.sockets fd = some socket ∧ changed.inbound = socket.inbound ∧
        changed.pending = socket.pending) :
    { s with sockets := sockets }.Answering serve := by
  constructor
  · exact answering.parsed_past
  · intro i call fd changed found isReceiving opened
    rcases keeps opened with ⟨socket, before, inbound, pending⟩
    have begins := answering.receiving found isReceiving before
    unfold Begins
    rw [inbound, pending]
    exact begins
  · exact answering.ended

theorem close (answering : s.Answering serve) (fd : Fd) :
    (s.setSocket fd none).Answering serve := by
  apply answering.setSockets
  intro used changed opened
  by_cases same : used = fd
  · subst same
    cases (s.sockets_setSocket_self used none).symm.trans opened
  · exact ⟨changed, (s.sockets_setSocket_of_ne same none).symm.trans opened, rfl, rfl⟩

/-- A socket changes that no call but one receives from. -/
theorem setSocket (answering : s.Answering serve) {fd : Fd} {changed : Socket}
    (others : ∀ {j : Nat} {other : Call Msg}, s.calls[j]? = some other →
      other.pc = .receiving fd → Begins (other.answer serve) changed) :
    (s.setSocket fd (some changed)).Answering serve := by
  constructor
  · exact answering.parsed_past
  · intro j other used socket found isReceiving opened
    by_cases same : used = fd
    · subst same
      cases (s.sockets_setSocket_self used (some changed)).symm.trans opened
      exact others found isReceiving
    · exact answering.receiving found isReceiving
        ((s.sockets_setSocket_of_ne same _).symm.trans opened)
  · exact answering.ended

theorem setPool (answering : s.Answering serve) (pool : ConnectionPool) :
    { s with pool := pool }.Answering serve :=
  ⟨answering.parsed_past, answering.receiving, answering.ended⟩

theorem setTime (answering : s.Answering serve) (now : Nat) :
    { s with now := now }.Answering serve :=
  ⟨answering.parsed_past, answering.receiving, answering.ended⟩

theorem notifyOne (answering : s.Answering serve) {woken : Option Nat}
    (notified : s.notifyOne woken = some t) : t.Answering serve := by
  rcases notifyOne_eq_some notified with ⟨-, rfl, -⟩ | ⟨j, call, -, found, asleep, rfl⟩
  · exact answering
  · apply answering.moveOn found
    · rw [asleep]
      rfl
    · rfl
    · intro fd elsewhere
      cases elsewhere

theorem spawn (answering : s.Answering serve) {call : Call Msg} (entering : call.pc = .entering) :
    { s with calls := s.calls ++ [call] }.Answering serve := by
  have old : ∀ {j : Nat} {other : Call Msg}, (s.calls ++ [call])[j]? = some other →
      s.calls[j]? = some other ∨ other = call := by
    intro j other found
    rw [List.getElem?_append] at found
    split at found
    · exact .inl found
    · exact .inr (List.mem_singleton.mp (List.mem_of_getElem? found))
  constructor
  · intro entry byte member inside
    rcases answering.parsed_past member inside with ⟨owner, found, knows⟩
    exact ⟨owner, (List.getElem?_append_left (lt_of_found found)).trans found, knows⟩
  · intro j other fd socket found isReceiving opened
    rcases old found with before | isNew
    · exact answering.receiving before isReceiving opened
    · rw [isNew, entering] at isReceiving
      cases isReceiving
  · intro j other exit found leaves
    rcases old found with before | isNew
    · exact answering.ended before leaves
    · rw [isNew, entering] at leaves
      cases leaves

/-- A request goes out on a connection with nothing to read. -/
theorem sent (answering : s.Answering serve) (isolated : s.Isolated) {fd : Fd} {count : Nat}
    {socket : Socket} (garbled : List Nat) (found : s.calls[i]? = some call)
    (sending : call.pc = .sending fd) (opened : s.sockets fd = some socket) :
    ((s.setSocket fd
      (some (socket.request i count call.sendRpcStr.length garbled))).setCall i
        { call with pc := .receiving fd }).Answering serve := by
  have holds : call.pc.fd? = some fd := by
    rw [sending]
    rfl
  have quiet : socket.Quiet := by
    have expected := isolated.held found holds opened
    rw [sending] at expected
    exact expected
  have empty : (socket.request i count call.sendRpcStr.length garbled).inbound = [] := by
    rw [Socket.request_inbound, quiet.1]
  have begins : ∀ answer, Begins answer
      (socket.request i count call.sendRpcStr.length garbled) := by
    intro answer
    constructor
    · rw [empty]
      exact List.nil_prefix
    · intro _
      exact .inl empty
  have requested : (s.setSocket fd
      (some (socket.request i count call.sendRpcStr.length garbled))).Answering serve :=
    answering.setSocket fun _ _ => begins _
  apply requested.move found
  · intro knows
    rw [sending] at knows
    exact absurd rfl knows
  · intro used changed isReceiving openedUsed
    cases isReceiving
    cases (s.sockets_setSocket_self fd _).symm.trans openedUsed
    exact begins _
  · intro exit leaves
    cases leaves

/-- What has arrived for a call that receives waits on its connection. -/
theorem arrived_eq (answering : s.Answering serve) (found : s.calls[i]? = some call) {fd : Fd}
    (isReceiving : call.pc = .receiving fd) {socket : Socket}
    (own : ∀ byte ∈ socket.inbound, byte.owner = i) :
    s.arrived socket i = socket.inbound.map ResponseByte.byte := by
  have notParsed : ∀ byte ∈ s.parsed.flatMap Prod.snd, ¬ byte.owner = i := by
    intro byte member same
    rcases List.mem_flatMap.mp member with ⟨entry, logged, inside⟩
    rcases answering.parsed_past logged inside with ⟨past, foundPast, knows⟩
    rw [same] at foundPast
    cases found.symm.trans foundPast
    rw [isReceiving] at knows
    exact knows rfl
  have mine : socket.inbound.filter (fun byte => byte.owner = i) = socket.inbound :=
    List.filter_eq_self.mpr fun byte member => decide_eq_true (own byte member)
  have others : (s.parsed.flatMap Prod.snd).filter (fun byte => byte.owner = i) = [] :=
    List.filter_eq_nil_iff.mpr fun byte member => by simp [notParsed byte member]
  rw [ClientState.arrived, List.filter_append, mine, others, List.nil_append]

/-- A piece arrives that continues the answer to the call it belongs to. -/
theorem delivered (answering : s.Answering serve) (isolated : s.Isolated) {fd : Fd}
    {bytes : Bytes} {final : Bool} {socket fuller : Socket}
    (served : Served serve s (.deliver fd bytes final)) (opened : s.sockets fd = some socket)
    (arrived : socket.deliver bytes final = some fuller) :
    (s.setSocket fd (some fuller)).Answering serve := by
  rcases Socket.deliver_eq_some_iff.mp arrived with ⟨owner, others, pending, here, rfl⟩
  apply answering.setSocket
  intro j other found isReceiving
  have holds : other.pc.fd? = some fd := by
    rw [isReceiving]
    rfl
  have awaiting : socket.Awaiting j := by
    have expected := isolated.held found holds opened
    rw [isReceiving] at expected
    exact expected
  have isOwner : owner = j := by
    rcases awaiting.2 with closed | ⟨owes, -⟩
    · rw [here] at closed
      cases closed
    · apply owes
      rw [pending]
      exact .head _
  subst isOwner
  have soFar := answering.arrived_eq found isReceiving awaiting.1
  have head : socket.pending.head? = some owner := by
    rw [pending]
    rfl
  rcases served socket opened owner head other found with ⟨continues, completes⟩
  rw [soFar] at continues completes
  have texts : (socket.inbound ++ bytes.map fun byte => (⟨owner, byte⟩ : ResponseByte)).map
      ResponseByte.byte = socket.inbound.map ResponseByte.byte ++ bytes := by
    rw [List.map_append, List.map_map]
    have same : ResponseByte.byte ∘ (fun byte => (⟨owner, byte⟩ : ResponseByte)) = id := rfl
    rw [same, List.map_id]
  constructor
  · dsimp only
    rw [texts]
    exact continues
  · intro settled
    cases final with
    | true =>
        dsimp only
        rw [texts]
        exact .inr (completes rfl)
    | false => cases settled

/-- A call reads its whole answer. -/
theorem received (answering : s.Answering serve) (owned : s.Owned) (isolated : s.Isolated)
    {count : Nat} (served : Served serve s (.recv i count))
    (step : s.next (.recv i count) = some t) : t.Answering serve := by
  rcases received_of_next step with ⟨call, fd, socket, found, isReceiving, opened, rfl⟩
  have holds : call.pc.fd? = some fd := by
    rw [isReceiving]
    rfl
  have awaiting : socket.Awaiting i := by
    have expected := isolated.held found holds opened
    rw [isReceiving] at expected
    exact expected
  rcases served call found fd holds socket opened with ⟨positive, all, settled⟩
  have read : socket.inbound.take count = socket.inbound := by
    rw [all]
    exact List.take_length
  have nonempty : socket.inbound ≠ [] := by
    intro empty
    rw [all, empty] at positive
    exact absurd positive (Nat.lt_irrefl 0)
  have whole : socket.inbound.map ResponseByte.byte = call.answer serve :=
    ((answering.receiving found isReceiving opened).2 settled).resolve_left nonempty
  have alone : ∀ {j : Nat} {other : Call Msg}, s.calls[j]? = some other →
      other.pc = .receiving fd → j = i := by
    intro j other foundOther otherReceives
    exact owned.held_unique ⟨other, foundOther, by rw [otherReceives]; rfl⟩ ⟨call, found, holds⟩
  rw [read]
  constructor
  · intro entry byte member inside
    have foundMoved := getElem?_setCall found
      { call with pc := .releasing fd (afterRecv call.output
        (.received (socket.inbound.map ResponseByte.byte))) } byte.owner
    by_cases mine : byte.owner = i
    · rw [if_pos mine] at foundMoved
      refine ⟨_, foundMoved, ?_⟩
      intro forgotten
      cases forgotten
    · rw [if_neg mine] at foundMoved
      rcases List.mem_append.mp member with logged | isNew
      · rcases answering.parsed_past logged inside with ⟨past, foundPast, knows⟩
        exact ⟨past, foundMoved.trans foundPast, knows⟩
      · rw [List.mem_singleton.mp isNew] at inside
        exact absurd (awaiting.1 byte inside) mine
  · intro j other used changed foundMoved otherReceives openedUsed
    rw [getElem?_setCall (by exact found)] at foundMoved
    split at foundMoved
    · cases foundMoved
      cases otherReceives
    · rename_i another
      have different : used ≠ fd := by
        rintro rfl
        exact another (alone foundMoved otherReceives)
      exact answering.receiving foundMoved otherReceives
        ((s.sockets_setSocket_of_ne different _).symm.trans openedUsed)
  · intro j other exit foundMoved leaves
    rw [getElem?_setCall (by exact found)] at foundMoved
    split at foundMoved
    · cases foundMoved
      cases leaves
      intro _
      change call.answer serve ≠ [] ∧ _ = afterRecv call.output (.received (call.answer serve))
      rw [← whole]
      exact ⟨fun nothing => nonempty (List.map_eq_nil_iff.mp nothing), rfl⟩
    · exact answering.ended foundMoved leaves

/-- A step of the client or of its servers keeps answers with their calls. -/
theorem of_next (answering : s.Answering serve) (owned : s.Owned) (isolated : s.Isolated)
    {action : ClientAction Msg} (served : Served serve s action)
    (step : s.next action = some t) : t.Answering serve := by
  cases stepped_of_next step with
  | spawn endpoint sendRpcStr output => exact answering.spawn rfl
  | @reused i call item rest found awake queued =>
      have popped : { s with pool := s.pool.setQueue call.endpoint.key rest }.Answering serve :=
        answering.setPool _
      apply popped.moveOn found
      · exact CallPc.exit?_of_awake awake
      · rfl
      · intro fd elsewhere
        cases elsewhere
  | reserved found awake queued below =>
      have counted : { s with pool :=
          { s.pool with curConnCount := s.pool.curConnCount + 1 } }.Answering serve :=
        answering.setPool _
      apply counted.moveOn found
      · exact CallPc.exit?_of_awake awake
      · rfl
      · intro fd elsewhere
        cases elsewhere
  | waits found awake queued full =>
      apply answering.moveOn found
      · exact CallPc.exit?_of_awake awake
      · rfl
      · intro fd elsewhere
        cases elsewhere
  | wokeSpuriously found asleep =>
      apply answering.moveOn found
      · rw [asleep]
        rfl
      · rfl
      · intro fd elsewhere
        cases elsewhere
  | @connected i call fd found connecting unused =>
      have opened : (s.setSocket fd (some { endpoint := call.endpoint })).Answering serve := by
        apply answering.setSocket
        intro j other foundOther otherReceives
        have holds : s.Holds j fd := ⟨other, foundOther, by rw [otherReceives]; rfl⟩
        exact absurd holds ((owned.free_of_unused unused).1 j)
      apply opened.moveOn found
      · rw [connecting]
        rfl
      · rfl
      · intro fd elsewhere
        cases elsewhere
  | connectFailed found connecting notified =>
      have returned : { s with pool := s.pool.connectFailed }.Answering serve :=
        answering.setPool _
      exact (returned.fail found (by simp [TaskExit.disposal])).notifyOne notified
  | sent garbled found sending opened bound =>
      exact answering.sent isolated garbled found sending opened
  | sendFailed errno found sending =>
      exact (answering.close _).fail found (by simp [TaskExit.disposal])
  | received found isReceiving opened ready => exact answering.received owned isolated served step
  | recvFailed errno found isReceiving =>
      exact (answering.close _).fail found (by simp [TaskExit.disposal])
  | @released i call fd exit found releasing =>
      have pushed : { s with pool :=
          s.pool.releaseConnection call.endpoint.key fd s.now }.Answering serve :=
        answering.setPool _
      apply pushed.keep found
      · rw [releasing]
        rfl
      · rfl
  | notified found notifying notified =>
      apply Answering.notifyOne _ notified
      apply answering.keep found
      · rw [notifying]
        rfl
      · rfl
  | @swept delays swept cleaned =>
      have pooled : { s with pool := swept.kept, now := swept.clock.now }.Answering serve :=
        (answering.setPool swept.kept).setTime swept.clock.now
      apply pooled.setSockets
      intro fd changed opened
      split at opened
      · cases opened
      · exact ⟨changed, opened, rfl, rfl⟩
  | elapsed time => exact answering.setTime _
  | delivered opened arrived => exact answering.delivered isolated served opened arrived
  | @peerClosed fd socket opened =>
      apply answering.setSockets
      intro used changed openedUsed
      by_cases same : used = fd
      · subst same
        cases (s.sockets_setSocket_self used _).symm.trans openedUsed
        exact ⟨socket, opened, rfl, rfl⟩
      · exact ⟨changed, (s.sockets_setSocket_of_ne same _).symm.trans openedUsed, rfl, rfl⟩

end Answering

theorem answering_start (serve : Endpoint → Bytes → Bytes) (maxConnections maxIdleTime : Int) :
    (start maxConnections maxIdleTime : ClientState Msg).Answering serve := by
  constructor
  · intro entry byte member
    cases member
  · intro i call fd socket found
    cases found
  · intro i call exit found
    cases found

theorem isolated_of_served {serve : Endpoint → Bytes → Bytes} {maxConnections maxIdleTime : Int}
    {s : ClientState Msg}
    (reached : Reachable next (Served serve) (start maxConnections maxIdleTime) s) :
    s.Isolated := by
  apply reached.invariant_of (fun _ => owned_of_reachable)
    (isolated_start maxConnections maxIdleTime)
  intro state action successor owned isolated served step
  exact isolated.of_stepped owned (takesWholeAnswer_of_served served) (stepped_of_next step)

/-- In every run of the pool's calls against servers that answer, a call that
gives its connection back has parsed the answer to its own request. -/
theorem answering_of_served {serve : Endpoint → Bytes → Bytes} {maxConnections maxIdleTime : Int}
    {s : ClientState Msg}
    (reached : Reachable next (Served serve) (start maxConnections maxIdleTime) s) :
    s.Answering serve := by
  have known : ∀ ⦃state : ClientState Msg⦄,
      Reachable next (Served serve) (start maxConnections maxIdleTime) state →
        state.Owned ∧ state.Isolated :=
    fun _ before => ⟨owned_of_reachable before, isolated_of_served before⟩
  apply reached.invariant_of known (answering_start serve maxConnections maxIdleTime)
  rintro state action successor ⟨owned, isolated⟩ answering served step
  exact answering.of_next owned isolated served step

end ClientState

end Mprpc.Client
