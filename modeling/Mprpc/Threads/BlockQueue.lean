import Mprpc.Transition.ConditionVariable
import Mprpc.Transition.Core

/-!
# The blocking queue `BlockQueue`

The first part is the queue itself: what each member function does to the data
under the lock.  The second is a queue in use: any number of calls, each with
its program counter, and one condition variable for all that wait.  A step is a
locked section; `push` notifies before it releases the lock, `close` afterwards.
-/

namespace Mprpc.Threads

open Mprpc.Transition

universe u

/-- The data of `class BlockQueue`.  It never holds more than its maximum. -/
structure BlockQueue (α : Type u) where
  queue : List α
  maxSize : Nat
  isClose : Bool
  bounded : queue.length ≤ maxSize
  deriving DecidableEq

namespace BlockQueue

variable {α : Type u}

/-- `BlockQueue(max_size)`; `none` is the `exit(-1)`. -/
def new (maxSize : Int) : Option (BlockQueue α) :=
  if maxSize ≤ 0 then none
  else some ⟨[], maxSize.toNat, false, Nat.zero_le _⟩

/-- `clear`. -/
def clear (bq : BlockQueue α) : BlockQueue α :=
  ⟨[], bq.maxSize, bq.isClose, Nat.zero_le _⟩

/-- `full`. -/
def full (bq : BlockQueue α) : Bool :=
  decide (bq.maxSize ≤ bq.queue.length)

/-- `empty`. -/
def empty (bq : BlockQueue α) : Bool :=
  bq.queue.isEmpty

/-- `front`; `none` is the `false`. -/
def front (bq : BlockQueue α) : Option α :=
  bq.queue.head?

/-- `back`; `none` is the `false`. -/
def back (bq : BlockQueue α) : Option α :=
  bq.queue.getLast?

/-- The data part of `push`; `none` is the `false` of a full queue. -/
def push (bq : BlockQueue α) (item : α) : Option (BlockQueue α) :=
  if room : bq.queue.length < bq.maxSize then
    some ⟨bq.queue ++ [item], bq.maxSize, bq.isClose, by
      rw [List.length_append]
      exact room⟩
  else none

/-- The data part of `pop` on a queue that is not empty. -/
def pop (bq : BlockQueue α) : Option (α × BlockQueue α) :=
  match bq with
  | ⟨[], _, _, _⟩ => none
  | ⟨item :: rest, maxSize, isClose, bounded⟩ =>
      some (item, ⟨rest, maxSize, isClose, Nat.le_of_succ_le bounded⟩)

/-- The locked part of `close`. -/
def close (bq : BlockQueue α) : BlockQueue α :=
  ⟨[], bq.maxSize, true, Nat.zero_le _⟩

theorem push_eq_some_iff {bq next : BlockQueue α} {item : α} :
    bq.push item = some next ↔
      bq.queue.length < bq.maxSize ∧ next.queue = bq.queue ++ [item] ∧
        next.maxSize = bq.maxSize ∧ next.isClose = bq.isClose := by
  unfold push
  split
  · rename_i room
    constructor
    · intro same
      cases same
      exact ⟨room, rfl, rfl, rfl⟩
    · rintro ⟨-, queue, maxSize, isClose⟩
      cases next
      dsimp only at queue maxSize isClose
      subst queue maxSize isClose
      rfl
  · rename_i noRoom
    simp [noRoom]

theorem push_eq_none_iff {bq : BlockQueue α} {item : α} :
    bq.push item = none ↔ bq.full = true := by
  simp [push, full]

theorem pop_eq_none_iff {bq : BlockQueue α} : bq.pop = none ↔ bq.queue = [] := by
  rcases bq with ⟨queue, maxSize, isClose, bounded⟩
  cases queue with
  | nil => simp [pop]
  | cons item rest => simp [pop]

theorem pop_eq_some {bq next : BlockQueue α} {item : α} (popped : bq.pop = some (item, next)) :
    bq.queue = item :: next.queue ∧ next.maxSize = bq.maxSize ∧ next.isClose = bq.isClose := by
  rcases bq with ⟨queue, maxSize, isClose, bounded⟩
  cases queue with
  | nil => cases popped
  | cons item rest =>
      cases popped
      exact ⟨rfl, rfl, rfl⟩

end BlockQueue

/-! ## A queue in use -/

/-- A member function with its argument.  The time of a timed `pop` has no
effect but to end its wait. -/
inductive QueueOp (α : Type u)
  | push (item : α)
  | pop
  | popTimed
  | clear
  | full
  | empty
  | front
  | back
  | close
  deriving DecidableEq, Repr

/-- What a call returns.  The item of a `pop`, `front` or `back` that returns
`false` is `none`. -/
inductive QueueAnswer (α : Type u)
  | done
  | flag (result : Bool)
  | item (value : Option α)
  deriving DecidableEq, Repr

/-- Where a call stands. -/
inductive QueuePc (α : Type u)
  /-- before it takes the lock -/
  | entering
  /-- asleep in `m_cond` -/
  | asleep
  /-- notified, before it has the lock again -/
  | woken
  /-- awake without a notification, before it has the lock again -/
  | roused
  /-- in `close`, before `notify_all` -/
  | closing
  | returned (answer : QueueAnswer α)
  deriving DecidableEq, Repr

structure QueueCall (α : Type u) where
  op : QueueOp α
  pc : QueuePc α := .entering
  deriving DecidableEq, Repr

namespace QueueCall

variable {α : Type u}

def isAsleep (call : QueueCall α) : Bool :=
  match call.pc with
  | .asleep => true
  | _ => false

def isWoken (call : QueueCall α) : Bool :=
  match call.pc with
  | .woken => true
  | _ => false

/-- The call with an answer. -/
def answered (call : QueueCall α) (answer : QueueAnswer α) : QueueCall α :=
  { call with pc := .returned answer }

/-- How calls wait on `m_cond`. -/
def waiting : Waiting (QueueCall α) where
  asleep := isAsleep
  woken := isWoken
  wake call := { call with pc := .woken }
  not_woken_of_asleep {call} sleeps := by
    rcases call with ⟨op, pc⟩
    cases pc <;> first | rfl | cases sleeps
  not_asleep_wake _ := rfl
  woken_wake _ := rfl

theorem isAsleep_iff {call : QueueCall α} : call.isAsleep = true ↔ call.pc = .asleep := by
  rcases call with ⟨op, pc⟩
  cases pc <;> simp [isAsleep]

end QueueCall

/-- How an item left the queue. -/
inductive Removal
  /-- to the call with this number -/
  | delivered (i : Nat)
  | cleared
  deriving DecidableEq, Repr

/-- A queue with its calls.  `pushed` lists what entered the queue, with the
number of the call, and `removed` what left it, both in order; `lapses` counts
the timed waits that reported a timeout after they had been notified. -/
structure QueueState (α : Type u) where
  bq : BlockQueue α
  calls : List (QueueCall α) := []
  pushed : List (α × Nat) := []
  removed : List (α × Removal) := []
  lapses : Nat := 0
  deriving DecidableEq

/-- A step of a call. -/
inductive QueueAction (α : Type u)
  /-- a function is called -/
  | call (op : QueueOp α)
  /-- a call takes the lock; `woken` is the choice of `notify_one` -/
  | enter (i : Nat) (woken : Option Nat)
  /-- a call that waited has the lock again, with no timeout -/
  | resume (i : Nat)
  /-- a call wakes up without being notified -/
  | wakeSpuriously (i : Nat)
  /-- `wait_for` reports a timeout -/
  | timeOut (i : Nat)
  /-- the `notify_all` of `close` -/
  | notifyAll (i : Nat)
  deriving DecidableEq, Repr

namespace QueueState

variable {α : Type u}

def start (bq : BlockQueue α) : QueueState α where
  bq := bq

def setCall (s : QueueState α) (i : Nat) (call : QueueCall α) : QueueState α :=
  { s with calls := s.calls.set i call }

/-- A call returns. -/
def answer (s : QueueState α) (i : Nat) (call : QueueCall α) (answer : QueueAnswer α) :
    QueueState α :=
  s.setCall i (call.answered answer)

/-- A `pop` returns the first item. -/
def deliver (s : QueueState α) (i : Nat) (call : QueueCall α) (item : α) (bq : BlockQueue α) :
    QueueState α :=
  { s with bq := bq, removed := s.removed ++ [(item, Removal.delivered i)] }.answer i call
    (.item (some item))

/-- The loop of the untimed `pop`, from one test of the queue to the next. -/
def pop (s : QueueState α) (i : Nat) (call : QueueCall α) : QueueState α :=
  match s.bq.pop with
  | some (item, bq) => s.deliver i call item bq
  | none =>
      if s.bq.isClose then s.answer i call (.item none)
      else s.setCall i { call with pc := .asleep }

/-- The timed `pop` behind its wait. -/
def popRest (s : QueueState α) (i : Nat) (call : QueueCall α) : QueueState α :=
  if s.bq.isClose then s.answer i call (.item none)
  else
    match s.bq.pop with
    | some (item, bq) => s.deliver i call item bq
    | none => s.answer i call (.item none)

/-- The timed `pop` up to its wait. -/
def popTimed (s : QueueState α) (i : Nat) (call : QueueCall α) : QueueState α :=
  if s.bq.empty then
    if s.bq.isClose then s.answer i call (.item none)
    else s.setCall i { call with pc := .asleep }
  else s.popRest i call

/-- `push`. -/
def push (s : QueueState α) (i : Nat) (call : QueueCall α) (item : α) (woken : Option Nat) :
    Option (QueueState α) :=
  match s.bq.push item with
  | none =>
      let s := s.answer i call (.flag false)
      some { s with calls := QueueCall.waiting.notifyAll s.calls }
  | some bq =>
      let s := { s with bq := bq, pushed := s.pushed ++ [(item, i)] }.answer i call (.flag true)
      (QueueCall.waiting.notifyOne s.calls woken).map fun calls => { s with calls := calls }

/-- The queue loses all it holds. -/
def drop (s : QueueState α) (bq : BlockQueue α) : QueueState α :=
  { s with
    bq := bq
    removed := s.removed ++ s.bq.queue.map fun item => (item, Removal.cleared) }

/-- A call that takes the lock for the first time. -/
def enter (s : QueueState α) (i : Nat) (call : QueueCall α) (woken : Option Nat) :
    Option (QueueState α) :=
  match call.op with
  | .push item => s.push i call item woken
  | .pop => some (s.pop i call)
  | .popTimed => some (s.popTimed i call)
  | .clear => some ((s.drop s.bq.clear).answer i call .done)
  | .full => some (s.answer i call (.flag s.bq.full))
  | .empty => some (s.answer i call (.flag s.bq.empty))
  | .front => some (s.answer i call (.item s.bq.front))
  | .back => some (s.answer i call (.item s.bq.back))
  | .close => some ((s.drop s.bq.close).setCall i { call with pc := .closing })

/-- One step. -/
def next (s : QueueState α) : QueueAction α → Option (QueueState α)
  | .call op => some { s with calls := s.calls ++ [⟨op, .entering⟩] }
  | .enter i woken =>
      (s.calls[i]?).bind fun call =>
        match call.pc with
        | .entering => s.enter i call woken
        | _ => none
  | .resume i =>
      (s.calls[i]?).bind fun call =>
        match call.pc, call.op with
        | .woken, .pop | .roused, .pop => some (s.pop i call)
        | .woken, .popTimed | .roused, .popTimed => some (s.popRest i call)
        | _, _ => none
  | .wakeSpuriously i =>
      (s.calls[i]?).bind fun call =>
        match call.pc with
        | .asleep => some (s.setCall i { call with pc := .roused })
        | _ => none
  | .timeOut i =>
      (s.calls[i]?).bind fun call =>
        match call.op, call.pc with
        | .popTimed, .asleep | .popTimed, .roused => some (s.answer i call (.item none))
        | .popTimed, .woken =>
            some ({ s with lapses := s.lapses + 1 }.answer i call (.item none))
        | _, _ => none
  | .notifyAll i =>
      (s.calls[i]?).bind fun call =>
        match call.pc with
        | .closing =>
            let s := s.answer i call .done
            some { s with calls := QueueCall.waiting.notifyAll s.calls }
        | _ => none

/-- A call that is not asleep, of one of the two `pop` functions. -/
structure Popping (s : QueueState α) (i : Nat) (call : QueueCall α) : Prop where
  found : s.calls[i]? = some call
  isPop : call.op = .pop ∨ call.op = .popTimed
  awake : call.pc = .entering ∨ call.pc = .woken ∨ call.pc = .roused

/-- A call that takes the lock for the first time. -/
structure Entering (s : QueueState α) (i : Nat) (call : QueueCall α) (op : QueueOp α) : Prop where
  found : s.calls[i]? = some call
  isOp : call.op = op
  entering : call.pc = .entering

/-- The effect of one step. -/
inductive Stepped (s : QueueState α) : QueueAction α → QueueState α → Prop
  | called (op : QueueOp α) :
      Stepped s (.call op) { s with calls := s.calls ++ [⟨op, .entering⟩] }
  | pushed {i : Nat} {call : QueueCall α} {item : α} {woken : Option Nat} {bq : BlockQueue α}
      {calls : List (QueueCall α)} (enters : s.Entering i call (.push item))
      (room : s.bq.push item = some bq)
      (wakes : QueueCall.waiting.notifyOne (s.calls.set i (call.answered (.flag true))) woken =
        some calls) :
      Stepped s (.enter i woken)
        { s with bq := bq, pushed := s.pushed ++ [(item, i)], calls := calls }
  | refused {i : Nat} {call : QueueCall α} {item : α} {woken : Option Nat}
      (enters : s.Entering i call (.push item)) (full : s.bq.push item = none) :
      Stepped s (.enter i woken)
        { s with
          calls := QueueCall.waiting.notifyAll (s.calls.set i (call.answered (.flag false))) }
  | delivered {action : QueueAction α} {i : Nat} {call : QueueCall α} {item : α}
      {bq : BlockQueue α} (pops : s.Popping i call) (popped : s.bq.pop = some (item, bq)) :
      Stepped s action (s.deliver i call item bq)
  | slept {action : QueueAction α} {i : Nat} {call : QueueCall α} (pops : s.Popping i call)
      (drained : s.bq.queue = []) (isOpen : s.bq.isClose = false) :
      Stepped s action (s.setCall i { call with pc := .asleep })
  | failed {action : QueueAction α} {i : Nat} {call : QueueCall α} (pops : s.Popping i call)
      (nothing : s.bq.queue = [] ∨ s.bq.isClose = true) :
      Stepped s action (s.answer i call (.item none))
  | wokeSpuriously {i : Nat} {call : QueueCall α} (found : s.calls[i]? = some call)
      (asleep : call.pc = .asleep) :
      Stepped s (.wakeSpuriously i) (s.setCall i { call with pc := .roused })
  | timedOut {i : Nat} {call : QueueCall α} (found : s.calls[i]? = some call)
      (isTimed : call.op = .popTimed) (waits : call.pc = .asleep ∨ call.pc = .roused) :
      Stepped s (.timeOut i) (s.answer i call (.item none))
  | lapsed {i : Nat} {call : QueueCall α} (found : s.calls[i]? = some call)
      (isTimed : call.op = .popTimed) (woken : call.pc = .woken) :
      Stepped s (.timeOut i) ({ s with lapses := s.lapses + 1 }.answer i call (.item none))
  | cleared {i : Nat} {call : QueueCall α} {woken : Option Nat}
      (enters : s.Entering i call .clear) :
      Stepped s (.enter i woken) ((s.drop s.bq.clear).answer i call .done)
  | looked {i : Nat} {call : QueueCall α} {woken : Option Nat} {op : QueueOp α}
      {answer : QueueAnswer α} (enters : s.Entering i call op)
      (looks : op = .full ∨ op = .empty ∨ op = .front ∨ op = .back) :
      Stepped s (.enter i woken) (s.answer i call answer)
  | closed {i : Nat} {call : QueueCall α} {woken : Option Nat}
      (enters : s.Entering i call .close) :
      Stepped s (.enter i woken) ((s.drop s.bq.close).setCall i { call with pc := .closing })
  | notifiedAll {i : Nat} {call : QueueCall α} (found : s.calls[i]? = some call)
      (closing : call.pc = .closing) :
      Stepped s (.notifyAll i)
        { s with calls := QueueCall.waiting.notifyAll (s.calls.set i (call.answered .done)) }

theorem stepped_pop {s : QueueState α} {i : Nat} {call : QueueCall α} (action : QueueAction α)
    (pops : s.Popping i call) : Stepped s action (s.pop i call) := by
  unfold pop
  cases popped : s.bq.pop with
  | some result =>
      rcases result with ⟨item, bq⟩
      exact .delivered pops popped
  | none =>
      have drained := BlockQueue.pop_eq_none_iff.mp popped
      cases closed : s.bq.isClose with
      | true => exact .failed pops (.inl drained)
      | false => exact .slept pops drained closed

theorem stepped_popRest {s : QueueState α} {i : Nat} {call : QueueCall α}
    (action : QueueAction α) (pops : s.Popping i call) :
    Stepped s action (s.popRest i call) := by
  unfold popRest
  cases closed : s.bq.isClose with
  | true => exact .failed pops (.inr closed)
  | false =>
      cases popped : s.bq.pop with
      | some result =>
          rcases result with ⟨item, bq⟩
          exact .delivered pops popped
      | none => exact .failed pops (.inl (BlockQueue.pop_eq_none_iff.mp popped))

theorem stepped_popTimed {s : QueueState α} {i : Nat} {call : QueueCall α}
    (action : QueueAction α) (pops : s.Popping i call) :
    Stepped s action (s.popTimed i call) := by
  unfold popTimed
  split
  · rename_i empty
    have drained : s.bq.queue = [] := List.isEmpty_iff.mp empty
    cases closed : s.bq.isClose with
    | true => exact .failed pops (.inl drained)
    | false => exact .slept pops drained closed
  · exact stepped_popRest action pops

theorem stepped_push {s t : QueueState α} {i : Nat} {call : QueueCall α} {item : α}
    {woken : Option Nat} (enters : s.Entering i call (.push item))
    (step : s.push i call item woken = some t) : Stepped s (.enter i woken) t := by
  unfold push at step
  cases pushed : s.bq.push item with
  | none =>
      simp only [pushed, Option.some.injEq] at step
      subst step
      exact .refused enters pushed
  | some bq =>
      simp only [pushed] at step
      rcases Option.map_eq_some_iff.mp step with ⟨calls, wakes, rfl⟩
      exact .pushed enters pushed wakes

theorem stepped_enter {s t : QueueState α} {i : Nat} {call : QueueCall α} {woken : Option Nat}
    (found : s.calls[i]? = some call) (entering : call.pc = .entering)
    (step : s.enter i call woken = some t) : Stepped s (.enter i woken) t := by
  unfold enter at step
  split at step
  · rename_i item isOp
    exact stepped_push ⟨found, isOp, entering⟩ step
  · rename_i isOp
    cases step
    exact stepped_pop _ ⟨found, .inl isOp, .inl entering⟩
  · rename_i isOp
    cases step
    exact stepped_popTimed _ ⟨found, .inr isOp, .inl entering⟩
  · rename_i isOp
    cases step
    exact .cleared ⟨found, isOp, entering⟩
  · rename_i isOp
    cases step
    exact .looked ⟨found, isOp, entering⟩ (.inl rfl)
  · rename_i isOp
    cases step
    exact .looked ⟨found, isOp, entering⟩ (.inr (.inl rfl))
  · rename_i isOp
    cases step
    exact .looked ⟨found, isOp, entering⟩ (.inr (.inr (.inl rfl)))
  · rename_i isOp
    cases step
    exact .looked ⟨found, isOp, entering⟩ (.inr (.inr (.inr rfl)))
  · rename_i isOp
    cases step
    exact .closed ⟨found, isOp, entering⟩

/-- Every step is one of the listed effects. -/
theorem stepped_of_next {s t : QueueState α} {action : QueueAction α}
    (step : s.next action = some t) : Stepped s action t := by
  cases action with
  | call op =>
      cases step
      exact .called op
  | enter i woken =>
      rcases Option.bind_eq_some_iff.mp step with ⟨call, found, step⟩
      split at step
      · rename_i entering
        exact stepped_enter found entering step
      · cases step
  | resume i =>
      rcases Option.bind_eq_some_iff.mp step with ⟨call, found, step⟩
      split at step
      · rename_i woken isOp
        cases step
        exact stepped_pop _ ⟨found, .inl isOp, .inr (.inl woken)⟩
      · rename_i roused isOp
        cases step
        exact stepped_pop _ ⟨found, .inl isOp, .inr (.inr roused)⟩
      · rename_i woken isOp
        cases step
        exact stepped_popRest _ ⟨found, .inr isOp, .inr (.inl woken)⟩
      · rename_i roused isOp
        cases step
        exact stepped_popRest _ ⟨found, .inr isOp, .inr (.inr roused)⟩
      · cases step
  | wakeSpuriously i =>
      rcases Option.bind_eq_some_iff.mp step with ⟨call, found, step⟩
      split at step
      · rename_i asleep
        cases step
        exact .wokeSpuriously found asleep
      · cases step
  | timeOut i =>
      rcases Option.bind_eq_some_iff.mp step with ⟨call, found, step⟩
      split at step
      · rename_i isTimed asleep
        cases step
        exact .timedOut found isTimed (.inl asleep)
      · rename_i isTimed roused
        cases step
        exact .timedOut found isTimed (.inr roused)
      · rename_i isTimed woken
        cases step
        exact .lapsed found isTimed woken
      · cases step
  | notifyAll i =>
      rcases Option.bind_eq_some_iff.mp step with ⟨call, found, step⟩
      split at step
      · rename_i closing
        cases step
        exact .notifiedAll found closing
      · cases step

end QueueState

end Mprpc.Threads
