import Mprpc.Net.Connection
import Mprpc.Net.TimeHeap
import Mprpc.Transition.Core

/-!
# The event loop: `TcpServer::Start`

One thread runs the loop, so a step is one call of `epoll_wait`, the handling of
one reported event, the end of a batch with its `tick`, or something outside the
loop: the clock is set or a message is sent on a connection.  What the system calls
and the callbacks of an event do is part of the action.

Descriptors are numbers that the operating system hands out again once they are
closed.  The fields `lastEvent`, `kicks` and `fdCalls` record what happened; no
function reads them.
-/

namespace Mprpc.Net

/-- Event flags and options of `epoll`. -/
structure EpollEvents where
  epollin : Bool := false
  epollout : Bool := false
  epollrdhup : Bool := false
  epollhup : Bool := false
  epollerr : Bool := false
  epollet : Bool := false
  epolloneshot : Bool := false
  deriving DecidableEq, Repr

/-- `EPOLLRDHUP | EPOLLHUP | EPOLLERR`. -/
def EpollEvents.hangsUp (flags : EpollEvents) : Bool :=
  flags.epollrdhup || flags.epollhup || flags.epollerr

/-- Some flag is set. -/
def EpollEvents.nonempty (flags : EpollEvents) : Bool :=
  flags.epollin || flags.epollout || flags.hangsUp

/-- A registered descriptor.  It reports events only while it is armed. -/
structure Interest where
  events : EpollEvents
  armed : Bool
  deriving DecidableEq, Repr

/-- What `addfd` registers, and what the branches of a connection register again
with `EPOLLONESHOT`. -/
def Interest.initial (oneShot : Bool) : Interest where
  events := { epollin := true, epollet := true, epollrdhup := true, epolloneshot := oneShot }
  armed := true

/-- The interest after an event has been reported. -/
def Interest.reported (interest : Interest) : Interest :=
  { interest with armed := interest.armed && !interest.events.epolloneshot }

/-- What is known when `tick` invokes `cb_func`: the timer, the descriptor of its
client data, whether that is a connection, the timer stored for it, and the time
of its last accept, read or write event. -/
structure Kick where
  timer : TimerId
  fd : Fd
  cur : Int
  present : Bool
  stored : Option TimerId
  lastEvent : Int
  deriving DecidableEq, Repr

/-- The calls that open and close the descriptors of connections. -/
inductive FdCall
  | accepted (fd : Fd)
  | closed (fd : Fd)
  deriving DecidableEq, Repr

/-- What a message callback does to its connection. -/
inductive CallbackAct
  | retrieve (len : Nat)
  | send (msg : Bytes) (ret : SendRet)
  | shutdown
  deriving DecidableEq, Repr

/-- One act of a callback. -/
def TcpConnection.act (conn : TcpConnection) : CallbackAct → TcpConnection
  | .retrieve len => { conn with inputBuffer := conn.inputBuffer.retrieve len }
  | .send msg ret => conn.send msg ret
  | .shutdown => conn.shutdown

/-- A message callback that does the given acts. -/
def TcpConnection.callback (acts : List CallbackAct) (conn : TcpConnection) :
    TcpConnection × Option Unit :=
  (acts.foldl TcpConnection.act conn, none)

/-! ## Descriptors, `epoll` and `m_connections` -/

/-- The tables that the branches of the loop update. -/
structure Descriptors where
  serverFd : Fd
  pipeRead : Fd
  isOpen : Fd → Bool
  epoll : Fd → Option Interest
  connections : Fd → Option TcpConnection
  lastEvent : Fd → Int
  kicks : List Kick
  fdCalls : List FdCall

namespace Descriptors

/-- The tables before anything is registered. -/
def new (serverFd pipeRead : Fd) (inUse : Fd → Bool) : Descriptors where
  serverFd := serverFd
  pipeRead := pipeRead
  isOpen := fun fd => fd == serverFd || fd == pipeRead || inUse fd
  epoll := fun _ => none
  connections := fun _ => none
  lastEvent := fun _ => 0
  kicks := []
  fdCalls := []

/-- A descriptor with an entry in `m_connections`. -/
def live (fds : Descriptors) (fd : Fd) : Bool :=
  (fds.connections fd).isSome

def setConnection (fds : Descriptors) (fd : Fd) (conn : Option TcpConnection) : Descriptors :=
  { fds with connections := Function.update fds.connections fd conn }

def setInterest (fds : Descriptors) (fd : Fd) (interest : Option Interest) : Descriptors :=
  { fds with epoll := Function.update fds.epoll fd interest }

/-- `close(fd)`; `epoll` forgets a closed descriptor. -/
def close (fds : Descriptors) (fd : Fd) : Descriptors :=
  { fds.setInterest fd none with
    isOpen := Function.update fds.isOpen fd false
    fdCalls := fds.fdCalls ++ [.closed fd] }

/-- `addfd`.  `EPOLL_CTL_ADD` fails on a registered descriptor. -/
def addfd (fds : Descriptors) (fd : Fd) (oneShot : Bool) : Descriptors :=
  match fds.epoll fd with
  | some _ => fds
  | none =>
      fds.setInterest fd (some (.initial oneShot))

/-- `EPOLL_CTL_MOD` with the events of a connection.  It fails on a descriptor
that is not registered. -/
def rearm (fds : Descriptors) (fd : Fd) : Descriptors :=
  match fds.epoll fd with
  | none => fds
  | some _ =>
      fds.setInterest fd (some (.initial true))

/-- `m_connections.erase(fd)`.  No callback is under way and the entry holds the
last pointer, so the destructor runs and closes the descriptor once more. -/
def erase (fds : Descriptors) (fd : Fd) : Descriptors :=
  match fds.connections fd with
  | none => fds
  | some conn => (fds.setConnection fd none).close conn.fd

/-- `removefd`. -/
def removefd (fds : Descriptors) (fd : Fd) : Descriptors :=
  ((fds.setInterest fd none).close fd).erase fd

/-- The tables part of one accepted connection. -/
def accept (fds : Descriptors) (now : Int) (connfd : Fd) : Descriptors :=
  let fds :=
    { fds with
      isOpen := Function.update fds.isOpen connfd true
      lastEvent := Function.update fds.lastEvent connfd now
      fdCalls := fds.fdCalls ++ [FdCall.accepted connfd] }
  ((fds.erase connfd).setConnection connfd (some (.new connfd))).addfd connfd true

/-- `cb_func` for a timer that `tick` finds expired at time `cur`. -/
def cbFunc (cur : Int) (t : TimeHeap) (timer : TimerId) (fds : Descriptors) : Descriptors :=
  let sockfd := (t.user (t.timers timer).userData).sockfd
  let kick : Kick :=
    { timer := timer
      fd := sockfd
      cur := cur
      present := fds.live sockfd
      stored := (t.user sockfd).timer
      lastEvent := fds.lastEvent sockfd }
  { fds with kicks := fds.kicks ++ [kick] }.removefd sockfd

/-- An event that `epoll_wait` can report: some flag is set, and `EPOLLHUP` and
`EPOLLERR` need no registration.  The signal pipe is never hung up, as the loop
keeps both ends. -/
def CanReport (fds : Descriptors) (fd : Fd) (flags : EpollEvents) : Prop :=
  (∃ interest ∈ fds.epoll fd, interest.armed = true ∧
    (flags.epollin = true → interest.events.epollin = true) ∧
    (flags.epollout = true → interest.events.epollout = true) ∧
    (flags.epollrdhup = true → interest.events.epollrdhup = true)) ∧
  (fd = fds.pipeRead → flags = { epollin := true }) ∧
  flags.nonempty = true

/-- `MAX_EVENTS`. -/
def maxEvents : Nat := 10000

/-- A result of `epoll_wait`: at most one entry for each descriptor.  No entries
stand for an interrupted call, too. -/
def Reports (fds : Descriptors) (events : List (Fd × EpollEvents)) : Prop :=
  events.length ≤ maxEvents ∧ (events.map Prod.fst).Nodup ∧
    ∀ event ∈ events, fds.CanReport event.1 event.2

/-- `epoll_wait` disarms the one-shot descriptors that it reports. -/
def report (fds : Descriptors) (events : List (Fd × EpollEvents)) : Descriptors :=
  { fds with
    epoll := fun fd =>
      if fd ∈ events.map Prod.fst then (fds.epoll fd).map Interest.reported else fds.epoll fd }

instance (fds : Descriptors) (fd : Fd) (flags : EpollEvents) : Decidable (fds.CanReport fd flags) :=
  inferInstanceAs (Decidable (_ ∧ _ ∧ _))

instance (fds : Descriptors) (events : List (Fd × EpollEvents)) : Decidable (fds.Reports events) :=
  inferInstanceAs (Decidable (_ ∧ _ ∧ _))

end Descriptors

/-! ## The loop -/

/-- The state of `Start`.  `batch` lists the reported events that are left to be
handled, and is `none` at the call of `epoll_wait`. -/
structure Reactor where
  timerLst : TimeHeap
  fds : Descriptors
  now : Int
  timeout : Bool
  stopServer : Bool
  batch : Option (List (Fd × EpollEvents))

/-- What the system calls and the callback return while one event is handled:
the descriptors from `accept` with the time of each, the signals in the pipe,
the results of `recv` and of the `send` of `HandleWrite`, and the acts of the
message callback. -/
structure EventResults where
  accepts : List (Fd × Int) := []
  signals : Bytes := []
  recvs : List RecvRet := []
  sent : SendRet := .error EAGAIN
  acts : List CallbackAct := []

/-- A step of the loop or of its environment. -/
inductive ReactorAction
  | wait (events : List (Fd × EpollEvents))
  | handle (results : EventResults)
  | finish
  /-- the wall clock shows another time -/
  | clock (time : Int)
  /-- `Send` is called outside the events of its connection -/
  | send (fd : Fd) (msg : Bytes) (ret : SendRet)

namespace Reactor

/-- The loop at its start.  `inUse` are the other descriptors of the process. -/
def start (serverFd pipeRead : Fd) (inUse : Fd → Bool) : Reactor where
  timerLst := .new 10000
  fds := ((Descriptors.new serverFd pipeRead inUse).addfd serverFd false).addfd pipeRead false
  now := 0
  timeout := false
  stopServer := false
  batch := none

/-- The loop with one more connection. -/
def accepted (r : Reactor) (connfd : Fd) (time : Int) : Reactor :=
  { r with
    timerLst := r.timerLst.acceptTimer time connfd
    fds := r.fds.accept time connfd
    now := time }

/-- One round of the accept loop.  The operating system returns a descriptor that
is not open. -/
def accept (r : Reactor) (connfd : Fd) (time : Int) : Option Reactor :=
  if r.fds.isOpen connfd then none else some (r.accepted connfd time)

/-- The accept loop, which any error ends. -/
def acceptLoop (r : Reactor) : List (Fd × Int) → Option Reactor
  | [] => some r
  | (connfd, time) :: accepts => (r.accept connfd time).bind fun r => r.acceptLoop accepts

/-- `SIGALRM`, `SIGTERM` and `SIGINT`. -/
def signal (r : Reactor) (sig : UInt8) : Reactor :=
  if sig = 14 then { r with timeout := true }
  else if sig = 15 ∨ sig = 2 then { r with stopServer := true }
  else r

/-- The branch for `EPOLLRDHUP`, `EPOLLHUP` and `EPOLLERR`. -/
def hangUp (r : Reactor) (sockfd : Fd) : Reactor :=
  { r with
    timerLst :=
      match (r.timerLst.user sockfd).timer with
      | some timer => r.timerLst.delTimer timer
      | none => r.timerLst
    fds := r.fds.removefd sockfd }

/-- The first lines of the branches for `EPOLLIN` and `EPOLLOUT`. -/
def adjust (r : Reactor) (sockfd : Fd) : Reactor :=
  { r with
    timerLst :=
      match (r.timerLst.user sockfd).timer with
      | some timer => r.timerLst.adjustTimer r.now timer
      | none => r.timerLst
    fds := { r.fds with lastEvent := Function.update r.fds.lastEvent sockfd r.now } }

/-- The last lines of both, after `HandleRead` or `HandleWrite`: a connection
that is not connected any more is removed, and its timer is left alone. -/
def settle (r : Reactor) (sockfd : Fd) (conn : TcpConnection) : Reactor :=
  let fds := r.fds.setConnection sockfd (some conn)
  { r with fds := if conn.connected then fds.rearm sockfd else fds.removefd sockfd }

/-- The branch for `EPOLLIN`. -/
def readable (r : Reactor) (sockfd : Fd) (results : EventResults) : Reactor :=
  let r := r.adjust sockfd
  match r.fds.connections sockfd with
  | none => r
  | some conn =>
      r.settle sockfd (conn.handleRead (TcpConnection.callback results.acts) results.recvs).1

/-- The branch for `EPOLLOUT`. -/
def writable (r : Reactor) (sockfd : Fd) (results : EventResults) : Reactor :=
  let r := r.adjust sockfd
  match r.fds.connections sockfd with
  | none => r
  | some conn => r.settle sockfd (conn.handleWrite results.sent)

/-- The body of the loop over the reported events. -/
def handleEvent (r : Reactor) (sockfd : Fd) (flags : EpollEvents) (results : EventResults) :
    Option Reactor :=
  if sockfd = r.fds.serverFd then r.acceptLoop results.accepts
  else if sockfd = r.fds.pipeRead ∧ flags.epollin = true then
    some (results.signals.foldl signal r)
  else if flags.hangsUp then some (r.hangUp sockfd)
  else if flags.epollin then some (r.readable sockfd results)
  else if flags.epollout then some (r.writable sockfd results)
  else some r

/-- The lines after the loop over the events. -/
def finish (r : Reactor) : Reactor :=
  if r.timeout then
    let (timerLst, fds) := r.timerLst.tick (Descriptors.cbFunc r.now) r.now r.fds
    { r with timerLst := timerLst, fds := fds, timeout := false, batch := none }
  else { r with batch := none }

/-- `Send` on a connection of the table. -/
def send (r : Reactor) (fd : Fd) (msg : Bytes) (ret : SendRet) : Option Reactor :=
  (r.fds.connections fd).map fun conn =>
    { r with fds := r.fds.setConnection fd (some (conn.send msg ret)) }

/-- One step. -/
def next (r : Reactor) : ReactorAction → Option Reactor
  | .wait events =>
      if r.batch = none ∧ r.stopServer = false ∧ r.fds.Reports events then
        some { r with fds := r.fds.report events, batch := some events }
      else none
  | .handle results =>
      match r.batch with
      | some ((sockfd, flags) :: rest) =>
          r.handleEvent sockfd flags results |>.map fun r => { r with batch := some rest }
      | _ => none
  | .finish =>
      match r.batch with
      | some [] => some r.finish
      | _ => none
  | .clock time => some { r with now := time }
  | .send fd msg ret =>
      match r.batch with
      | some _ => r.send fd msg ret
      | none => none

/-- The flags of a readable descriptor. -/
def readableFlags : EpollEvents where
  epollin := true

/-- The loop with the listening socket 3 and the signal pipe 4. -/
def exampleLoop : Reactor :=
  start 3 4 fun fd => fd == 5

end Reactor

end Mprpc.Net
