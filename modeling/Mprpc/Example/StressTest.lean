import Mprpc.Example.Login
import Mprpc.Transition.Core
import Mprpc.Transition.Parties

/-!
# The stress client

`main` of `calluserservice.cc`: it posts its requests to the thread pool, and
each request runs a callback that counts it and, when it is the last, notifies
`main`.  The counters are atomic and the callbacks do not take `mtx`, so a
notification can come between the test of `cv.wait` and the wait itself.

The order of the workers is not fixed: any posted request may be the next that a
free worker takes.  A worker is busy until its `CallMethod` returns, and the task
that it leaves behind runs on a thread of its own.  Neither has to come to an end:
`ZkClient::Start` waits for a server, and so do the socket calls.
-/

namespace Mprpc.Example

open Mprpc.Client
open Mprpc.Protobuf
open Mprpc.Transition

/-- How far a request is, its callback included. -/
inductive RequestPc
  | posted
  /-- in `CallMethod`, on a worker -/
  | calling
  /-- `CallMethod` has returned and no task is under way -/
  | unanswered (env : CallEnv)
  /-- in `rpc_task`; what its calls return, if they do, is in `env` -/
  | launched (env : CallEnv)
  | testing (succeeded : Bool)
  | counted (succeeded : Bool)
  | completed (succeeded : Bool) (currentCompleted : Nat)
  | finished (succeeded : Bool)

/-- How far `main` is; `blocking` stands between a test that failed and the
wait. -/
inductive MainPc
  | posting
  | checking
  | blocking
  | sleeping
  | reporting
  | returned (printed : Nat)
  deriving DecidableEq, Repr

/-- The variables of `main`, and where it was at each `notify_one`. -/
structure StressTest where
  requests : List RequestPc := []
  successCount : Nat := 0
  completedCount : Nat := 0
  main : MainPc := .posting
  notifiedAt : List MainPc := []

/-- A step of `main`, of a worker, or of a callback. -/
inductive StressAction
  | post
  | check
  | block
  | wakeSpuriously
  | report
  | take (i : Nat)
  /-- `CallMethod` returns -/
  | login (i : Nat) (env : CallEnv)
  /-- the task comes to its end -/
  | answer (i : Nat)
  | count (i : Nat)
  | complete (i : Nat)
  | finish (i : Nat)

namespace RequestPc

/-- A worker is busy with the request. -/
def isCalling : RequestPc → Bool
  | .calling => true
  | _ => false

end RequestPc

namespace StressTest

/-- The workers of the pool. -/
def poolSize : Nat :=
  100

/-- The call of request `i`. -/
def stub (i : Nat) : StubCall UserMessage :=
  UserServiceRpc.stubLogin
    { name := Bytes.ofString "user_" ++ Bytes.ofNat i, pwd := Bytes.ofString "123456" }

/-- Where `CallMethod` leaves a request. -/
def afterLogin (hash : Bytes → UInt32) (i : Nat) (env : CallEnv) : RequestPc :=
  match (callMethod hash {} (stub i) env true).launched with
  | none => .unanswered env
  | some _ => .launched env

/-- Where the task leaves a request: `done` runs with what the task has put into the
controller and the response, or it never runs. -/
def afterTask (hash : Bytes → UInt32) (i : Nat) (env : CallEnv) : RequestPc :=
  let record := callMethod hash {} (stub i) env true
  match record.doneRuns with
  | [] => .unanswered env
  | _ => .testing (countsAsSuccess record.controller
      ((record.response.bind UserMessage.loginResponse?).getD {}))

def setRequest (s : StressTest) (i : Nat) (pc : RequestPc) : StressTest :=
  { s with requests := s.requests.set i pc }

/-- `cv.notify_one()`: it wakes `main` if that sleeps, and nobody otherwise. -/
def notifyOne (s : StressTest) : StressTest where
  requests := s.requests
  successCount := s.successCount
  completedCount := s.completedCount
  main := if s.main = .sleeping then .checking else s.main
  notifiedAt := s.notifiedAt ++ [s.main]

/-- A run with `total_requests` requests. -/
def next (hash : Bytes → UInt32) (total : Nat) (s : StressTest) :
    StressAction → Option StressTest
  | .post =>
      match s.main with
      | .posting =>
          if s.requests.length < total then some { s with requests := s.requests ++ [.posted] }
          else some { s with main := .checking }
      | _ => none
  | .check =>
      match s.main with
      | .checking =>
          some { s with main := if s.completedCount = total then .reporting else .blocking }
      | _ => none
  | .block =>
      match s.main with
      | .blocking => some { s with main := .sleeping }
      | _ => none
  | .wakeSpuriously =>
      match s.main with
      | .sleeping => some { s with main := .checking }
      | _ => none
  | .report =>
      match s.main with
      | .reporting => some { s with main := .returned s.successCount }
      | _ => none
  | .take i =>
      match s.requests[i]? with
      | some .posted =>
          if s.requests.countP RequestPc.isCalling < poolSize then
            some (s.setRequest i .calling)
          else none
      | _ => none
  | .login i env =>
      match s.requests[i]? with
      | some .calling => some (s.setRequest i (afterLogin hash i env))
      | _ => none
  | .answer i =>
      match s.requests[i]? with
      | some (.launched env) => some (s.setRequest i (afterTask hash i env))
      | _ => none
  | .count i =>
      match s.requests[i]? with
      | some (.testing succeeded) =>
          some ({ s with
            successCount := if succeeded then s.successCount + 1 else s.successCount }.setRequest i
              (.counted succeeded))
      | _ => none
  | .complete i =>
      match s.requests[i]? with
      | some (.counted succeeded) =>
          some ({ s with completedCount := s.completedCount + 1 }.setRequest i
            (.completed succeeded (s.completedCount + 1)))
      | _ => none
  | .finish i =>
      match s.requests[i]? with
      | some (.completed succeeded currentCompleted) =>
          some ((if currentCompleted = total then s.notifyOne else s).setRequest i
            (.finished succeeded))
      | _ => none

end StressTest

namespace RequestPc

/-- The success is in `success_count`. -/
def inSuccessCount : RequestPc → Bool
  | .counted succeeded | .completed succeeded _ | .finished succeeded => succeeded
  | _ => false

/-- The request is in `completed_count`. -/
def inCompletedCount : RequestPc → Bool
  | .completed .. | .finished _ => true
  | _ => false

/-- Nothing more happens to the request, or nothing before a call returns that may
never do so. -/
def resting : RequestPc → Bool
  | .calling | .unanswered _ | .launched _ | .finished _ => true
  | _ => false

/-- The request still has to notify. -/
def notifies (total : Nat) : RequestPc → Bool
  | .completed _ currentCompleted => currentCompleted = total
  | _ => false

end RequestPc

namespace MainPc

/-- Past `cv.wait`. -/
def Left : MainPc → Prop
  | .reporting | .returned _ => True
  | _ => False

end MainPc

namespace StressTest

variable {hash : Bytes → UInt32} {total i : Nat} {s t : StressTest}

/-- A step of a request. -/
inductive RequestStep (hash : Bytes → UInt32) (total i : Nat) (s : StressTest) :
    RequestPc → StressTest → RequestPc → Prop
  | take : RequestStep hash total i s .posted s .calling
  | login (env : CallEnv) : RequestStep hash total i s .calling s (afterLogin hash i env)
  | answer (env : CallEnv) :
      RequestStep hash total i s (.launched env) s (afterTask hash i env)
  | count (succeeded : Bool) : RequestStep hash total i s (.testing succeeded)
      { s with successCount := if succeeded then s.successCount + 1 else s.successCount }
      (.counted succeeded)
  | complete (succeeded : Bool) : RequestStep hash total i s (.counted succeeded)
      { s with completedCount := s.completedCount + 1 }
      (.completed succeeded (s.completedCount + 1))
  | last (succeeded : Bool) :
      RequestStep hash total i s (.completed succeeded total) s.notifyOne (.finished succeeded)
  | other (succeeded : Bool) {currentCompleted : Nat} (earlier : currentCompleted ≠ total) :
      RequestStep hash total i s (.completed succeeded currentCompleted) s (.finished succeeded)

/-- What a step can do. -/
inductive Stepped (hash : Bytes → UInt32) (total : Nat) (s : StressTest) :
    StressAction → StressTest → Prop
  | posted (posting : s.main = .posting) (more : s.requests.length < total) :
      Stepped hash total s .post { s with requests := s.requests ++ [.posted] }
  | allPosted (posting : s.main = .posting) (all : ¬ s.requests.length < total) :
      Stepped hash total s .post { s with main := .checking }
  | passed (checking : s.main = .checking) (all : s.completedCount = total) :
      Stepped hash total s .check { s with main := .reporting }
  | failed (checking : s.main = .checking) (missing : s.completedCount ≠ total) :
      Stepped hash total s .check { s with main := .blocking }
  | blocked (blocking : s.main = .blocking) :
      Stepped hash total s .block { s with main := .sleeping }
  | woken (sleeping : s.main = .sleeping) :
      Stepped hash total s .wakeSpuriously { s with main := .checking }
  | reported (reporting : s.main = .reporting) :
      Stepped hash total s .report { s with main := .returned s.successCount }
  | moved {action : StressAction} {i : Nat} {old new : RequestPc} {changed : StressTest}
      (found : s.requests[i]? = some old) (step : RequestStep hash total i s old changed new) :
      Stepped hash total s action (changed.setRequest i new)

theorem stepped_of_next {action : StressAction} (step : s.next hash total action = some t) :
    Stepped hash total s action t := by
  cases action with
  | post =>
      simp only [next] at step
      split at step
      · rename_i posting
        split at step
        · rename_i more
          cases step
          exact .posted posting more
        · rename_i all
          cases step
          exact .allPosted posting all
      · cases step
  | check =>
      simp only [next] at step
      split at step
      · rename_i checking
        cases step
        by_cases all : s.completedCount = total
        · rw [if_pos all]
          exact .passed checking all
        · rw [if_neg all]
          exact .failed checking all
      · cases step
  | block =>
      simp only [next] at step
      split at step
      · rename_i blocking
        cases step
        exact .blocked blocking
      · cases step
  | wakeSpuriously =>
      simp only [next] at step
      split at step
      · rename_i sleeping
        cases step
        exact .woken sleeping
      · cases step
  | report =>
      simp only [next] at step
      split at step
      · rename_i reporting
        cases step
        exact .reported reporting
      · cases step
  | take i =>
      simp only [next] at step
      split at step
      · rename_i found
        split at step
        · cases step
          exact .moved found .take
        · cases step
      · cases step
  | login i env =>
      simp only [next] at step
      split at step
      · rename_i found
        cases step
        exact .moved found (.login env)
      · cases step
  | answer i =>
      simp only [next] at step
      split at step
      · rename_i env found
        cases step
        exact .moved found (.answer env)
      · cases step
  | count i =>
      simp only [next] at step
      split at step
      · rename_i succeeded found
        cases step
        exact .moved found (.count succeeded)
      · cases step
  | complete i =>
      simp only [next] at step
      split at step
      · rename_i succeeded found
        cases step
        exact .moved found (.complete succeeded)
      · cases step
  | finish i =>
      simp only [next] at step
      split at step
      · rename_i succeeded currentCompleted found
        cases step
        by_cases last : currentCompleted = total
        · subst last
          rw [if_pos rfl]
          exact .moved found (.last succeeded)
        · rw [if_neg last]
          exact .moved found (.other succeeded last)
      · cases step

/-! ## The counters -/

/-- What the counters say about the requests.  One request notifies, the one
that was the last to be counted, and `main` leaves its wait after that count. -/
structure Counted (total : Nat) (s : StressTest) : Prop where
  successes : s.successCount = s.requests.countP RequestPc.inSuccessCount
  completions : s.completedCount = s.requests.countP RequestPc.inCompletedCount
  bounded : s.requests.length ≤ total
  allPosted : s.main ≠ .posting → s.requests.length = total
  notification : s.notifiedAt.length + s.requests.countP (RequestPc.notifies total) =
    if s.completedCount = total then 1 else 0
  complete_of_left : s.main.Left → s.completedCount = total
  printed : ∀ {n}, s.main = .returned n → n = s.successCount

theorem Counted.completedCount_le (counted : s.Counted total) :
    s.completedCount ≤ s.requests.length := by
  rw [counted.completions]
  exact List.countP_le_length

/-- When all are counted, no request is before its count. -/
theorem Counted.inCompletedCount_of_all (counted : s.Counted total)
    (all : s.completedCount = total) {request : RequestPc} (member : request ∈ s.requests) :
    request.inCompletedCount = true := by
  have length : s.requests.countP RequestPc.inCompletedCount = s.requests.length := by
    have below := counted.completedCount_le
    have bounded := counted.bounded
    rw [← counted.completions]
    omega
  exact List.countP_eq_length.mp length request member

/-- A call gets as far as the task, which runs `done`, or it does neither. -/
theorem callMethod_cases (hash : Bytes → UInt32) (i : Nat) (env : CallEnv) :
    let record := callMethod hash {} (stub i) env true
    ReachesTask hash (stub i) env ∧ record.launched ≠ none ∧ record.doneRuns ≠ [] ∨
      ¬ ReachesTask hash (stub i) env ∧ record.launched = none := by
  simp only [ReachesTask, ← StubCall.marshal_eq_ok_iff,
    ← lookupRoute_eq_ok_iff hash (stub i).methodPath, ← parseAddress_eq_ok_iff (stub i).methodPath]
  unfold callMethod
  cases marshalled : (stub i).marshal with
  | error reason => simp [CallRecord.rejected]
  | ok sendRpcStr =>
      cases routed : lookupRoute hash (stub i).methodPath env.cached env.children with
      | error reason => simp [CallRecord.rejected]
      | ok ch =>
          cases parsed : parseAddress (stub i).methodPath
              (ch.getTargetHost hash (stub i).hashKey) with
          | error reason => simp [CallRecord.rejected, parsed]
          | ok endpoint => simp [CallRecord.completed, parsed]

theorem afterLogin_cases (hash : Bytes → UInt32) (i : Nat) (env : CallEnv) :
    afterLogin hash i env = .launched env ∧ ReachesTask hash (stub i) env ∨
      afterLogin hash i env = .unanswered env ∧ ¬ ReachesTask hash (stub i) env := by
  unfold afterLogin
  rcases callMethod_cases hash i env with ⟨reaches, launched, -⟩ | ⟨stays, notLaunched⟩
  · rcases Option.ne_none_iff_exists'.mp launched with ⟨task, started⟩
    rw [started]
    exact .inl ⟨rfl, reaches⟩
  · rw [notLaunched]
    exact .inr ⟨rfl, stays⟩

theorem afterTask_cases (hash : Bytes → UInt32) (i : Nat) (env : CallEnv) :
    afterTask hash i env = .unanswered env ∧ ¬ ReachesTask hash (stub i) env ∨
      ∃ succeeded, afterTask hash i env = .testing succeeded := by
  unfold afterTask
  dsimp only
  split
  · rename_i never
    rcases callMethod_cases hash i env with ⟨-, -, runs⟩ | ⟨stays, -⟩
    · exact absurd never runs
    · exact .inl ⟨rfl, stays⟩
  · exact .inr ⟨_, rfl⟩

theorem Counted.setMain (counted : s.Counted total) {main : MainPc}
    (posted : main ≠ .posting → s.requests.length = total)
    (left : main.Left → s.completedCount = total)
    (printed : ∀ {n}, main = .returned n → n = s.successCount) :
    Counted total { s with main := main } :=
  ⟨counted.successes, counted.completions, counted.bounded, posted, counted.notification, left,
    printed⟩

/-- A request moves: the counters and the notifications change by what it says
before and after. -/
theorem Counted.move (counted : s.Counted total) {old new : RequestPc}
    (found : s.requests[i]? = some old) (moved : t.requests = s.requests.set i new)
    (successes : t.successCount + (if old.inSuccessCount then 1 else 0) =
      s.successCount + if new.inSuccessCount then 1 else 0)
    (completions : t.completedCount + (if old.inCompletedCount then 1 else 0) =
      s.completedCount + if new.inCompletedCount then 1 else 0)
    (notification : t.notifiedAt.length + (if new.notifies total then 1 else 0) +
        (if s.completedCount = total then 1 else 0) =
      s.notifiedAt.length + (if old.notifies total then 1 else 0) +
        if t.completedCount = total then 1 else 0)
    (settled : s.completedCount = total →
      t.completedCount = total ∧ t.successCount = s.successCount)
    (posting : t.main ≠ .posting → s.main ≠ .posting)
    (left : t.main.Left → t.main = s.main) : t.Counted total := by
  have successful := countP_set_add RequestPc.inSuccessCount found new
  have complete := countP_set_add RequestPc.inCompletedCount found new
  have notifiers := countP_set_add (RequestPc.notifies total) found new
  have length : t.requests.length = s.requests.length := by
    rw [moved]
    exact List.length_set
  have leftBefore : t.main.Left → s.main.Left := fun leaves => left leaves ▸ leaves
  constructor
  · rw [moved]
    have before := counted.successes
    omega
  · rw [moved]
    have before := counted.completions
    omega
  · rw [length]
    exact counted.bounded
  · intro past
    rw [length]
    exact counted.allPosted (posting past)
  · rw [moved]
    have before := counted.notification
    omega
  · exact fun leaves => (settled (counted.complete_of_left (leftBefore leaves))).1
  · intro n returned
    have leaves : t.main.Left := by
      rw [returned]
      trivial
    rw [(settled (counted.complete_of_left (leftBefore leaves))).2]
    exact counted.printed ((left leaves).symm.trans returned)

/-- A request moves before it is counted. -/
theorem Counted.pass (counted : s.Counted total) {old new : RequestPc}
    (found : s.requests[i]? = some old)
    (before : old.inSuccessCount = false ∧ old.inCompletedCount = false ∧
      old.notifies total = false)
    (after : new.inSuccessCount = false ∧ new.inCompletedCount = false ∧
      new.notifies total = false) : (s.setRequest i new).Counted total := by
  apply counted.move found rfl
  · rw [before.1, after.1]
    rfl
  · rw [before.2.1, after.2.1]
    rfl
  · rw [before.2.2, after.2.2]
    rfl
  · exact fun all => ⟨all, rfl⟩
  · exact id
  · exact fun _ => rfl

theorem Counted.requestStep (counted : s.Counted total) {old new : RequestPc}
    (found : s.requests[i]? = some old) (step : RequestStep hash total i s old t new) :
    (t.setRequest i new).Counted total := by
  have early : old.inCompletedCount = false → s.completedCount ≠ total := by
    intro before all
    rw [counted.inCompletedCount_of_all all (List.mem_of_getElem? found)] at before
    cases before
  cases step with
  | take => exact counted.pass found ⟨rfl, rfl, rfl⟩ ⟨rfl, rfl, rfl⟩
  | login env =>
      apply counted.pass found ⟨rfl, rfl, rfl⟩
      rcases afterLogin_cases hash i env with ⟨launched, -⟩ | ⟨unanswered, -⟩
      · rw [launched]
        exact ⟨rfl, rfl, rfl⟩
      · rw [unanswered]
        exact ⟨rfl, rfl, rfl⟩
  | answer env =>
      apply counted.pass found ⟨rfl, rfl, rfl⟩
      rcases afterTask_cases hash i env with ⟨unanswered, -⟩ | ⟨succeeded, testing⟩
      · rw [unanswered]
        exact ⟨rfl, rfl, rfl⟩
      · rw [testing]
        exact ⟨rfl, rfl, rfl⟩
  | count succeeded =>
      apply counted.move found rfl
      · cases succeeded with
        | false => rfl
        | true => rfl
      · rfl
      · rfl
      · exact fun all => absurd all (early rfl)
      · exact id
      · exact fun _ => rfl
  | complete succeeded =>
      have before := early rfl
      apply counted.move found rfl
      · rfl
      · rfl
      · simp only [setRequest, RequestPc.notifies, before, decide_eq_true_eq, if_false,
          Bool.false_eq_true]
        rfl
      · exact fun all => absurd all before
      · exact id
      · exact fun _ => rfl
  | last succeeded =>
      apply counted.move found rfl
      · rfl
      · rfl
      · simp only [setRequest, notifyOne, RequestPc.notifies, decide_true, if_true,
          Bool.false_eq_true, if_false, List.length_append, List.length_singleton]
        rfl
      · exact fun all => ⟨all, rfl⟩
      · intro past before
        apply past
        rw [setRequest, notifyOne, before]
        rfl
      · intro leaves
        simp only [setRequest, notifyOne] at leaves ⊢
        split at leaves
        · exact absurd leaves id
        · rename_i awake
          rw [if_neg awake]
  | other succeeded earlier =>
      apply counted.move found rfl
      · rfl
      · rfl
      · simp only [setRequest, RequestPc.notifies, earlier, decide_false, Bool.false_eq_true,
          if_false]
        rfl
      · exact fun all => ⟨all, rfl⟩
      · exact id
      · exact fun _ => rfl

/-- Every step keeps the counters right. -/
theorem Counted.of_next (counted : s.Counted total) {action : StressAction}
    (step : s.next hash total action = some t) : t.Counted total := by
  cases stepped_of_next step with
  | posted posting more =>
      have unsettled : s.completedCount ≠ total :=
        Nat.ne_of_lt (Nat.lt_of_le_of_lt counted.completedCount_le more)
      have notified := counted.notification
      constructor
      · rw [List.countP_append]
        exact counted.successes
      · rw [List.countP_append]
        exact counted.completions
      · rw [List.length_append, List.length_singleton]
        exact more
      · exact fun past => absurd posting past
      · rw [List.countP_append]
        exact notified
      · exact counted.complete_of_left
      · exact counted.printed
  | allPosted posting all =>
      apply counted.setMain
      · exact fun _ => Nat.le_antisymm counted.bounded (Nat.le_of_not_lt all)
      · exact fun left => left.elim
      · nofun
  | passed checking all =>
      apply counted.setMain
      · exact fun _ => counted.allPosted (by rw [checking]; nofun)
      · exact fun _ => all
      · nofun
  | failed checking missing =>
      apply counted.setMain
      · exact fun _ => counted.allPosted (by rw [checking]; nofun)
      · exact fun left => left.elim
      · nofun
  | blocked blocking =>
      apply counted.setMain
      · exact fun _ => counted.allPosted (by rw [blocking]; nofun)
      · exact fun left => left.elim
      · nofun
  | woken sleeping =>
      apply counted.setMain
      · exact fun _ => counted.allPosted (by rw [sleeping]; nofun)
      · exact fun left => left.elim
      · nofun
  | reported reporting =>
      apply counted.setMain
      · exact fun _ => counted.allPosted (by rw [reporting]; nofun)
      · exact fun _ => counted.complete_of_left (by rw [reporting]; trivial)
      · intro n same
        cases same
        rfl
  | moved found moves => exact counted.requestStep found moves

theorem counted_of_reachable {allowed : StressTest → StressAction → Prop} (positive : 0 < total)
    (reached : Reachable (next hash total) allowed {} s) : s.Counted total := by
  apply reached.invariant
  · constructor
    · rfl
    · rfl
    · exact Nat.zero_le _
    · exact fun past => absurd rfl past
    · rw [if_neg (Nat.ne_of_lt positive)]
      rfl
    · exact fun left => left.elim
    · nofun
  · exact fun _ _ _ counted _ step => counted.of_next step

/-- What `main` prints is final.  When it has left its wait, every callback has counted
its request, the number is that of the successes, and of all callbacks only the last to be
counted notifies: before `main` left, or on a condition variable that is gone. -/
theorem printed_of_reachable {allowed : StressTest → StressAction → Prop} (positive : 0 < total)
    (reached : Reachable (next hash total) allowed {} s) (left : s.main.Left) :
    s.requests.length = total ∧ (∀ request ∈ s.requests, request.inCompletedCount = true) ∧
      s.successCount = s.requests.countP RequestPc.inSuccessCount ∧
      (∀ printed, s.main = .returned printed →
        printed = s.requests.countP RequestPc.inSuccessCount) ∧
      s.notifiedAt.length + s.requests.countP (RequestPc.notifies total) = 1 := by
  have counted := counted_of_reachable positive reached
  have all := counted.complete_of_left left
  have notification := counted.notification
  rw [if_pos all] at notification
  refine ⟨counted.allPosted ?_, ?_, counted.successes, ?_, notification⟩
  · intro posting
    rw [posting] at left
    exact left
  · exact fun request member => counted.inCompletedCount_of_all all member
  · intro printed returned
    rw [counted.printed returned, counted.successes]

/-- A call that finds one provider and is answered. -/
def answeredEnv : CallEnv where
  cached := none
  children := some [Bytes.ofString "10.0.0.1:8000"]
  task := ⟨some 7, .sent 35, .received [10, 0, 16, 1]⟩

/-- One request: `main` finds it counted before the wait, prints and returns,
and only then the callback comes to its notification. -/
theorem printed_before_notification :
    ∃ s : StressTest, s.main = .returned 1 ∧ s.notifiedAt = [] ∧
      s.requests.length = 1 ∧ (∀ request ∈ s.requests, request.inCompletedCount = true) ∧
      s.successCount = s.requests.countP RequestPc.inSuccessCount ∧
      (∀ printed, s.main = .returned printed →
        printed = s.requests.countP RequestPc.inSuccessCount) ∧
      s.notifiedAt.length + s.requests.countP (RequestPc.notifies 1) = 1 := by
  have run : ∃ s : StressTest, Reachable (next (fun _ => 0) 1) Unrestricted {} s ∧
      s.main = .returned 1 ∧ s.notifiedAt = [] := by
    apply exists_reachable [.post, .post, .take 0, .login 0 answeredEnv, .answer 0, .count 0,
      .complete 0, .check, .report]
    · exact .unrestricted _ _ _
    · decide +kernel
  rcases run with ⟨s, reached, returned, unnotified⟩
  have left : s.main.Left := by
    rw [returned]
    trivial
  exact ⟨s, returned, unnotified, printed_of_reachable (by decide) reached left⟩

/-! ## Waiting for ever -/

/-- Runs in which the wait ends by notifications only. -/
def NotSpurious (_ : StressTest) : StressAction → Prop
  | .wakeSpuriously => False
  | _ => True

instance (s : StressTest) : (action : StressAction) → Decidable (NotSpurious s action)
  | .wakeSpuriously => isFalse id
  | .post | .check | .block | .report | .take _ | .login .. | .answer _ | .count _
  | .complete _ | .finish _ => isTrue trivial

/-- Between its test and its wake-up `main` has not been notified, or was when
it was not yet asleep; then it never leaves. -/
structure Waits (s : StressTest) : Prop where
  unnotified : s.main = .blocking ∨ s.main = .sleeping →
    s.notifiedAt = [] ∨ s.notifiedAt = [.blocking]
  lost : s.notifiedAt = [.blocking] → s.main = .blocking ∨ s.main = .sleeping

/-- Away from the wait nothing is to be kept, unless a notification was lost. -/
theorem Waits.elsewhere (waits : s.Waits) {main : MainPc}
    (outside : ¬ (s.main = .blocking ∨ s.main = .sleeping))
    (leaves : ¬ (main = .blocking ∨ main = .sleeping)) : Waits { s with main := main } :=
  ⟨fun inside => absurd inside leaves, fun lost => absurd (waits.lost lost) outside⟩

theorem Waits.requestStep (waits : s.Waits) (counted : s.Counted total) {old new : RequestPc}
    (found : s.requests[i]? = some old) (step : RequestStep hash total i s old t new) :
    (t.setRequest i new).Waits := by
  cases step with
  | last succeeded =>
      have notifier : 0 < s.requests.countP (RequestPc.notifies total) :=
        List.countP_pos_iff.mpr ⟨_, List.mem_of_getElem? found, decide_eq_true rfl⟩
      have first : s.notifiedAt = [] := by
        have notification := counted.notification
        apply List.eq_nil_of_length_eq_zero
        split at notification
        · omega
        · omega
      constructor
      · intro inside
        simp only [setRequest, notifyOne, first, List.nil_append] at inside ⊢
        split at inside
        · rcases inside with same | same
          · cases same
          · cases same
        · rename_i awake
          rw [inside.resolve_right awake]
          exact .inr rfl
      · intro lost
        simp only [setRequest, notifyOne, first, List.nil_append] at lost ⊢
        have blocking : s.main = .blocking := (List.cons.inj lost).1
        rw [if_neg (by rw [blocking]; nofun)]
        exact .inl blocking
  | _ => exact ⟨waits.unnotified, waits.lost⟩

theorem Waits.of_next (waits : s.Waits) (counted : s.Counted total) {action : StressAction}
    (asked : NotSpurious s action) (step : s.next hash total action = some t) : t.Waits := by
  cases stepped_of_next step with
  | posted posting more => exact ⟨waits.unnotified, waits.lost⟩
  | allPosted posting all => exact waits.elsewhere (by simp [posting]) (by simp)
  | passed checking all => exact waits.elsewhere (by simp [checking]) (by simp)
  | failed checking missing =>
      have none : s.notifiedAt = [] := by
        have notification := counted.notification
        rw [if_neg missing] at notification
        apply List.eq_nil_of_length_eq_zero
        omega
      constructor
      · exact fun _ => .inl none
      · exact fun lost => .inl rfl
  | blocked blocking =>
      constructor
      · exact fun _ => waits.unnotified (.inl blocking)
      · exact fun _ => .inr rfl
  | woken sleeping => exact asked.elim
  | reported reporting => exact waits.elsewhere (by simp [reporting]) (by simp)
  | moved found moves => exact waits.requestStep counted found moves

/-- A request is left without an answer for a reason, and a task is under way for
one. -/
def Justified (hash : Bytes → UInt32) (i : Nat) : RequestPc → Prop
  | .unanswered env => ¬ ReachesTask hash (stub i) env
  | .launched env => ReachesTask hash (stub i) env
  | _ => True

theorem RequestStep.justified {old new : RequestPc}
    (step : RequestStep hash total i s old t new) : Justified hash i new := by
  cases step with
  | login env =>
      rcases afterLogin_cases hash i env with ⟨launched, reaches⟩ | ⟨unanswered, stays⟩
      · rw [launched]
        exact reaches
      · rw [unanswered]
        exact stays
  | answer env =>
      rcases afterTask_cases hash i env with ⟨unanswered, stays⟩ | ⟨succeeded, testing⟩
      · rw [unanswered]
        exact stays
      · rw [testing]
        trivial
  | _ => trivial

theorem RequestStep.requests {old new : RequestPc}
    (step : RequestStep hash total i s old t new) : t.requests = s.requests := by
  cases step with
  | _ => rfl

/-- Every request is where it is for a reason. -/
def AllJustified (hash : Bytes → UInt32) (s : StressTest) : Prop :=
  ∀ {i pc}, s.requests[i]? = some pc → Justified hash i pc

theorem AllJustified.of_next (justified : s.AllJustified hash) {action : StressAction}
    (step : s.next hash total action = some t) : t.AllJustified hash := by
  cases stepped_of_next step with
  | posted posting more =>
      intro j pc found
      dsimp only at found
      rw [List.getElem?_append] at found
      split at found
      · exact justified found
      · rw [List.mem_singleton.mp (List.mem_of_getElem? found)]
        trivial
  | @moved _ i old new changed found moves =>
      intro j pc foundMoved
      simp only [setRequest, moves.requests] at foundMoved
      rw [getElem?_set_eq_ite found] at foundMoved
      split at foundMoved
      · rename_i here
        rw [here, ← Option.some.inj foundMoved]
        exact moves.justified
      · exact justified foundMoved
  | _ => exact justified

/-- A step that a thread of the client takes by itself.  `CallMethod` may wait for
ZooKeeper, a task for the pool and the server, and nobody wakes `main` unasked. -/
def Own : StressAction → Prop
  | .login .. | .answer _ | .wakeSpuriously => False
  | _ => True

/-- Nobody moves unless a call returns that waits for somebody else. -/
def Stuck (hash : Bytes → UInt32) (total : Nat) (s : StressTest) : Prop :=
  ∀ action, Own action → s.next hash total action = none

/-- All workers are busy. -/
def Busy (s : StressTest) : Prop :=
  poolSize ≤ s.requests.countP RequestPc.isCalling

theorem Busy.exists_calling (busy : s.Busy) : ∃ i : Nat, s.requests[i]? = some .calling := by
  have positive : 0 < s.requests.countP RequestPc.isCalling :=
    Nat.lt_of_lt_of_le (by decide) busy
  rcases List.countP_pos_iff.mp positive with ⟨request, member, calling⟩
  rcases List.mem_iff_getElem?.mp member with ⟨i, found⟩
  cases request with
  | calling => exact ⟨i, found⟩
  | _ => cases calling

/-- Where a run stands in which nobody moves. -/
theorem stuck_iff (s : StressTest) :
    s.Stuck hash total ↔
      (s.main = .sleeping ∨ ∃ printed, s.main = .returned printed) ∧
        ∀ request ∈ s.requests, request.resting = true ∨ request = .posted ∧ s.Busy := by
  constructor
  · intro stuck
    constructor
    · cases stands : s.main with
      | posting =>
          have step := stuck .post trivial
          simp only [next, stands] at step
          split at step
          · cases step
          · cases step
      | checking =>
          have step := stuck .check trivial
          simp only [next, stands] at step
          cases step
      | blocking =>
          have step := stuck .block trivial
          simp only [next, stands] at step
          cases step
      | sleeping => exact .inl rfl
      | reporting =>
          have step := stuck .report trivial
          simp only [next, stands] at step
          cases step
      | returned printed => exact .inr ⟨printed, rfl⟩
    · intro request member
      rcases List.mem_iff_getElem?.mp member with ⟨i, found⟩
      cases request with
      | posted =>
          have step := stuck (.take i) trivial
          simp only [next, found] at step
          split at step
          · cases step
          · rename_i busy
            exact .inr ⟨rfl, Nat.le_of_not_lt busy⟩
      | testing succeeded =>
          have step := stuck (.count i) trivial
          simp only [next, found] at step
          cases step
      | counted succeeded =>
          have step := stuck (.complete i) trivial
          simp only [next, found] at step
          cases step
      | completed succeeded currentCompleted =>
          have step := stuck (.finish i) trivial
          simp only [next, found] at step
          cases step
      | _ => exact .inl rfl
  · rintro ⟨stands, rests⟩ action own
    have stays : ∀ {i : Nat} {request}, s.requests[i]? = some request →
        request.resting = true ∨ request = .posted ∧ s.Busy :=
      fun found => rests _ (List.mem_of_getElem? found)
    cases action with
    | take i =>
        simp only [next]
        split
        · rename_i found
          rcases stays found with resting | ⟨-, busy⟩
          · cases resting
          · exact if_neg (Nat.not_lt.mpr busy)
        · rfl
    | count i | complete i | finish i =>
        simp only [next]
        split
        · rename_i found
          rcases stays found with resting | ⟨posted, -⟩
          · cases resting
          · cases posted
        · rfl
    | login i env => exact own.elim
    | answer i => exact own.elim
    | wakeSpuriously => exact own.elim
    | _ =>
        rcases stands with sleeping | ⟨printed, returned⟩
        · simp [next, sleeping]
        · simp [next, returned]

/-- As long as the count is not full, some request is not in it. -/
theorem Counted.exists_uncounted (counted : s.Counted total) (posted : s.requests.length = total)
    (missing : s.completedCount ≠ total) :
    ∃ (i : Nat) (request : RequestPc), s.requests[i]? = some request ∧
      request.inCompletedCount = false := by
  have someMissing : ∃ request ∈ s.requests, ¬ request.inCompletedCount = true := by
    by_contra none
    apply missing
    rw [counted.completions, ← posted]
    apply List.countP_eq_length.mpr
    intro request member
    by_contra uncounted
    exact none ⟨request, member, uncounted⟩
  rcases someMissing with ⟨request, member, uncounted⟩
  rcases List.mem_iff_getElem?.mp member with ⟨i, found⟩
  exact ⟨i, request, found, by simpa using uncounted⟩

/-- When all are counted and nobody moves, the last one has notified. -/
theorem Counted.notifiedAt_ne_nil (counted : s.Counted total) (all : s.completedCount = total)
    (rests : ∀ request ∈ s.requests, request.resting = true ∨ request = .posted ∧ s.Busy) :
    s.notifiedAt ≠ [] := by
  intro none
  have notification := counted.notification
  rw [none, if_pos all, List.length_nil, Nat.zero_add] at notification
  have notifier : 0 < s.requests.countP (RequestPc.notifies total) := by omega
  rcases List.countP_pos_iff.mp notifier with ⟨request, member, notifies⟩
  cases request with
  | completed succeeded currentCompleted =>
      rcases rests _ member with resting | ⟨posted, -⟩
      · cases resting
      · cases posted
  | _ => cases notifies

/-- A request that is not counted keeps `main` from returning. -/
theorem Counted.sleeping (counted : s.Counted total)
    (stands : s.main = .sleeping ∨ ∃ printed, s.main = .returned printed) {request : RequestPc}
    (found : s.requests[i]? = some request) (uncounted : request.inCompletedCount = false) :
    s.main = .sleeping := by
  rcases stands with sleeping | ⟨printed, returned⟩
  · exact sleeping
  · have all : s.completedCount = total :=
      counted.complete_of_left (by rw [returned]; trivial)
    rw [counted.inCompletedCount_of_all all (List.mem_of_getElem? found)] at uncounted
    cases uncounted

/-- Where nobody moves by himself, `main` is through or sleeps for ever.  It sleeps if
some `CallMethod` or some task waits in a call that does not return, if some request
never got as far as its task, so that nothing runs its callback, or if the one
notification came between the last test of `main` and its wait; and otherwise it does
not. -/
theorem sleeping_iff_of_stuck (positive : 0 < total)
    (reached : Reachable (next hash total) NotSpurious {} s) (stuck : s.Stuck hash total) :
    (s.main = .sleeping ∨ ∃ printed, s.main = .returned printed) ∧
      (s.main = .sleeping ↔
        (∃ i : Nat, s.requests[i]? = some .calling) ∨
          (∃ i env, s.requests[i]? = some (.launched env) ∧ ReachesTask hash (stub i) env) ∨
            (∃ i env, s.requests[i]? = some (.unanswered env) ∧
              ¬ ReachesTask hash (stub i) env) ∨ s.notifiedAt = [.blocking]) := by
  have counted := counted_of_reachable positive reached
  have known : ∀ ⦃state : StressTest⦄, Reachable (next hash total) NotSpurious {} state →
      state.Counted total := fun _ before => counted_of_reachable positive before
  have waits : s.Waits := by
    apply reached.invariant_of known
    · exact ⟨fun _ => .inl rfl, nofun⟩
    · exact fun _ _ _ counted waits asked step => waits.of_next counted asked step
  have justified : s.AllJustified hash := by
    apply reached.invariant
    · nofun
    · exact fun _ _ _ justified _ step => justified.of_next step
  rcases s.stuck_iff.mp stuck with ⟨stands, rests⟩
  refine ⟨stands, ?_, ?_⟩
  · intro sleeping
    by_cases all : s.completedCount = total
    · rcases waits.unnotified (.inr sleeping) with none | lost
      · exact absurd none (counted.notifiedAt_ne_nil all rests)
      · exact .inr (.inr (.inr lost))
    · have posted := counted.allPosted (by rw [sleeping]; nofun)
      rcases counted.exists_uncounted posted all with ⟨i, request, found, uncounted⟩
      rcases rests _ (List.mem_of_getElem? found) with resting | ⟨-, busy⟩
      · cases request with
        | calling => exact .inl ⟨i, found⟩
        | launched env => exact .inr (.inl ⟨i, env, found, justified found⟩)
        | unanswered env => exact .inr (.inr (.inl ⟨i, env, found, justified found⟩))
        | finished succeeded => cases uncounted
        | _ => cases resting
      · exact .inl busy.exists_calling
  · rintro (⟨i, found⟩ | ⟨i, env, found, -⟩ | ⟨i, env, found, -⟩ | lost)
    · exact counted.sleeping stands found rfl
    · exact counted.sleeping stands found rfl
    · exact counted.sleeping stands found rfl
    · rcases stands with sleeping | ⟨printed, returned⟩
      · exact sleeping
      · rcases waits.lost lost with blocking | sleeping
        · rw [returned] at blocking
          cases blocking
        · exact sleeping

/-- Two requests: one is answered and counted, and the task of the other waits in
`recv`. -/
theorem sleeping_with_task_waiting :
    ∃ s : StressTest, s.completedCount = 1 ∧ s.notifiedAt = [] ∧ s.Stuck (fun _ => 0) 2 ∧
      (s.main = .sleeping ∨ ∃ printed, s.main = .returned printed) ∧
      (s.main = .sleeping ↔
        (∃ i : Nat, s.requests[i]? = some .calling) ∨
          (∃ i env, s.requests[i]? = some (.launched env) ∧
            ReachesTask (fun _ => 0) (stub i) env) ∨
            (∃ i env, s.requests[i]? = some (.unanswered env) ∧
              ¬ ReachesTask (fun _ => 0) (stub i) env) ∨ s.notifiedAt = [.blocking]) := by
  have run : ∃ s : StressTest, Reachable (next (fun _ => 0) 2) NotSpurious {} s ∧
      (s.completedCount = 1 ∧ s.notifiedAt = []) ∧ s.main = .sleeping ∧
        ∀ request ∈ s.requests, request.resting = true := by
    apply exists_reachable [.post, .post, .post, .take 0, .take 1, .login 1 answeredEnv,
      .login 0 answeredEnv, .check, .answer 0, .count 0, .complete 0, .finish 0, .block]
    · decide +kernel
    · decide +kernel
  rcases run with ⟨s, reached, ⟨one, unnotified⟩, sleeping, resting⟩
  have stuck : s.Stuck (fun _ => 0) 2 :=
    s.stuck_iff.mpr ⟨.inl sleeping, fun request member => .inl (resting request member)⟩
  exact ⟨s, one, unnotified, stuck, sleeping_iff_of_stuck (by decide) reached stuck⟩

end StressTest

end Mprpc.Example
