import Mprpc.Data.Bytes
import Mprpc.Transition.ConditionVariable
import Mprpc.Transition.Core

/-!
# The thread pool `ThreadPool`

The workers, the calls of `enqueue` and the destructor share a queue of tasks
and a stop flag under one mutex, which is held within a single step only.  The
notifications are given after the mutex is released and are steps of their own.
What was accepted, taken from the queue, started and finished is recorded as it
happens.
-/

namespace Mprpc.Threads

open Mprpc.Transition

universe u

/-- Where a worker is in its loop. -/
inductive WorkerPc (α : Type u)
  /-- before it takes the lock -/
  | entering
  /-- asleep in `condition.wait` -/
  | asleep
  /-- notified, before it has the lock again -/
  | woken
  /-- after it has released the lock, before `task()` -/
  | holding (task : α)
  /-- in `task()` -/
  | running (task : α)
  /-- after it has left its loop -/
  | exited
  deriving DecidableEq, Repr

/-- Where the destructor is. -/
inductive DestructorPc
  /-- not called -/
  | idle
  /-- after it has set `stop`, before `notify_all` -/
  | stopped
  | joining
  | returned
  deriving DecidableEq, Repr

namespace WorkerPc

variable {α : Type u}

def isAsleep : WorkerPc α → Bool
  | .asleep => true
  | _ => false

def isWoken : WorkerPc α → Bool
  | .woken => true
  | _ => false

def isExited : WorkerPc α → Bool
  | .exited => true
  | _ => false

/-- A task that was taken from the queue and not started yet. -/
def held : WorkerPc α → Option α
  | .holding task => some task
  | _ => none

/-- A task that was started and has not returned yet. -/
def current : WorkerPc α → Option α
  | .running task => some task
  | _ => none

/-- How workers wait on `condition`. -/
def waiting : Waiting (WorkerPc α) where
  asleep := isAsleep
  woken := isWoken
  wake _ := .woken
  not_woken_of_asleep {pc} sleeps := by
    cases pc <;> first | rfl | cases sleeps
  not_asleep_wake _ := rfl
  woken_wake _ := rfl

theorem isAsleep_iff {pc : WorkerPc α} : pc.isAsleep = true ↔ pc = .asleep := by
  cases pc <;> simp [isAsleep]

end WorkerPc

/-- `class ThreadPool` with its workers and callers.  `notifying` counts the calls
of `enqueue` between the release of the lock and `notify_one`. -/
structure ThreadPool (α : Type u) where
  workers : List (WorkerPc α)
  tasks : List α := []
  stop : Bool := false
  destructor : DestructorPc := .idle
  notifying : Nat := 0
  accepted : List α := []
  dequeued : List α := []
  started : List α := []
  finished : List α := []
  deriving DecidableEq, Repr

/-- A step of a worker, of a caller of `enqueue` or of the destructor. -/
inductive ThreadPoolAction (α : Type u)
  /-- the locked part of `enqueue` -/
  | enqueue (task : α)
  /-- the `notify_one` of a call of `enqueue` -/
  | notifyOne (woken : Option Nat)
  /-- a worker that is not asleep gets the lock -/
  | enter (i : Nat)
  /-- a worker wakes up without being notified, and tests the predicate again -/
  | wakeSpuriously (i : Nat)
  | startTask (i : Nat)
  /-- a task returns -/
  | finishTask (i : Nat)
  /-- the destructor sets `stop` -/
  | setStop
  | notifyAll
  /-- all workers have been joined -/
  | join
  deriving DecidableEq, Repr

namespace ThreadPool

variable {α : Type u}

/-- `ThreadPool(threads)`. -/
def new (threads : Nat) : ThreadPool α where
  workers := List.replicate threads .entering

def setWorker (s : ThreadPool α) (i : Nat) (pc : WorkerPc α) : ThreadPool α :=
  { s with workers := s.workers.set i pc }

/-- The predicate of `condition.wait`. -/
def predicate (s : ThreadPool α) : Bool :=
  s.stop || !s.tasks.isEmpty

/-- The locked part of `enqueue`, or the text of the exception. -/
def enqueue (s : ThreadPool α) (task : α) : Except Bytes (ThreadPool α) :=
  if s.stop then .error (Bytes.ofString "enqueue on stopped ThreadPool")
  else .ok
    { s with
      tasks := s.tasks ++ [task]
      accepted := s.accepted ++ [task]
      notifying := s.notifying + 1 }

/-- The locked part of a worker's turn. -/
def turn (s : ThreadPool α) (i : Nat) : ThreadPool α :=
  if s.predicate then
    match s.tasks with
    | [] => s.setWorker i .exited
    | task :: rest =>
        { s with tasks := rest, dequeued := s.dequeued ++ [task] }.setWorker i (.holding task)
  else s.setWorker i .asleep

/-- One step.  An `enqueue` that throws leaves the pool as it was; nothing is
called on a pool that is destroyed. -/
def next (s : ThreadPool α) : ThreadPoolAction α → Option (ThreadPool α)
  | .enqueue task =>
      if s.destructor = .returned then none
      else
        match s.enqueue task with
        | .ok t => some t
        | .error _ => some s
  | .notifyOne woken =>
      match s.notifying with
      | 0 => none
      | count + 1 =>
          (WorkerPc.waiting.notifyOne s.workers woken).map fun workers =>
            { s with workers := workers, notifying := count }
  | .enter i =>
      (s.workers[i]?).bind fun
        | .entering | .woken => some (s.turn i)
        | _ => none
  | .wakeSpuriously i =>
      (s.workers[i]?).bind fun
        | .asleep => some (s.setWorker i .entering)
        | _ => none
  | .startTask i =>
      (s.workers[i]?).bind fun
        | .holding task =>
            some ({ s with started := s.started ++ [task] }.setWorker i (.running task))
        | _ => none
  | .finishTask i =>
      (s.workers[i]?).bind fun
        | .running task =>
            some ({ s with finished := s.finished ++ [task] }.setWorker i .entering)
        | _ => none
  | .setStop =>
      if s.destructor = .idle then some { s with stop := true, destructor := .stopped } else none
  | .notifyAll =>
      if s.destructor = .stopped then
        some { s with workers := WorkerPc.waiting.notifyAll s.workers, destructor := .joining }
      else none
  | .join =>
      if s.destructor = .joining ∧ s.workers.all WorkerPc.isExited then
        some { s with destructor := .returned }
      else none

/-- The effect of one step. -/
inductive Stepped (s : ThreadPool α) : ThreadPoolAction α → ThreadPool α → Prop
  | enqueued (task : α) (running : s.stop = false) :
      Stepped s (.enqueue task)
        { s with
          tasks := s.tasks ++ [task]
          accepted := s.accepted ++ [task]
          notifying := s.notifying + 1 }
  | threw (task : α) (stopped : s.stop = true) : Stepped s (.enqueue task) s
  | notified {woken : Option Nat} {count : Nat} {workers : List (WorkerPc α)}
      (pending : s.notifying = count + 1)
      (wakes : WorkerPc.waiting.notifyOne s.workers woken = some workers) :
      Stepped s (.notifyOne woken) { s with workers := workers, notifying := count }
  | exits {i : Nat} {pc : WorkerPc α} (found : s.workers[i]? = some pc)
      (awake : pc = .entering ∨ pc = .woken) (stopped : s.stop = true) (drained : s.tasks = []) :
      Stepped s (.enter i) (s.setWorker i .exited)
  | takes {i : Nat} {pc : WorkerPc α} {task : α} {rest : List α}
      (found : s.workers[i]? = some pc) (awake : pc = .entering ∨ pc = .woken)
      (queued : s.tasks = task :: rest) :
      Stepped s (.enter i)
        ({ s with tasks := rest, dequeued := s.dequeued ++ [task] }.setWorker i (.holding task))
  | sleeps {i : Nat} {pc : WorkerPc α} (found : s.workers[i]? = some pc)
      (awake : pc = .entering ∨ pc = .woken) (running : s.stop = false) (drained : s.tasks = []) :
      Stepped s (.enter i) (s.setWorker i .asleep)
  | wokeSpuriously {i : Nat} (found : s.workers[i]? = some .asleep) :
      Stepped s (.wakeSpuriously i) (s.setWorker i .entering)
  | starts {i : Nat} {task : α} (found : s.workers[i]? = some (.holding task)) :
      Stepped s (.startTask i)
        ({ s with started := s.started ++ [task] }.setWorker i (.running task))
  | finishes {i : Nat} {task : α} (found : s.workers[i]? = some (.running task)) :
      Stepped s (.finishTask i)
        ({ s with finished := s.finished ++ [task] }.setWorker i .entering)
  | stops (idle : s.destructor = .idle) :
      Stepped s .setStop { s with stop := true, destructor := .stopped }
  | notifiedAll (stopped : s.destructor = .stopped) :
      Stepped s .notifyAll
        { s with workers := WorkerPc.waiting.notifyAll s.workers, destructor := .joining }
  | joined (joining : s.destructor = .joining)
      (allExited : s.workers.all WorkerPc.isExited = true) :
      Stepped s .join { s with destructor := .returned }

theorem stepped_turn {s : ThreadPool α} {i : Nat} {pc : WorkerPc α}
    (found : s.workers[i]? = some pc) (awake : pc = .entering ∨ pc = .woken) :
    Stepped s (.enter i) (s.turn i) := by
  unfold turn predicate
  cases queued : s.tasks with
  | nil =>
      cases stopped : s.stop with
      | false => exact .sleeps found awake stopped queued
      | true => exact .exits found awake stopped queued
  | cons task rest =>
      rw [if_pos (by simp)]
      exact .takes found awake queued

/-- Every step is one of the listed effects. -/
theorem stepped_of_next {s t : ThreadPool α} {action : ThreadPoolAction α}
    (step : s.next action = some t) : Stepped s action t := by
  cases action with
  | enqueue task =>
      by_cases stopped : s.stop = true
      · simp only [next, enqueue, if_pos stopped] at step
        split at step
        · cases step
        · cases step
          exact .threw task stopped
      · simp only [next, enqueue, if_neg stopped] at step
        split at step
        · cases step
        · cases step
          exact .enqueued task (Bool.eq_false_iff.mpr stopped)
  | notifyOne woken =>
      simp only [next] at step
      split at step
      · cases step
      · rename_i count pending
        rcases Option.map_eq_some_iff.mp step with ⟨workers, wakes, rfl⟩
        exact .notified pending wakes
  | enter i =>
      rcases Option.bind_eq_some_iff.mp step with ⟨pc, found, step⟩
      split at step
      · cases step
        exact stepped_turn found (.inl rfl)
      · cases step
        exact stepped_turn found (.inr rfl)
      · cases step
  | wakeSpuriously i =>
      rcases Option.bind_eq_some_iff.mp step with ⟨pc, found, step⟩
      split at step
      · cases step
        exact .wokeSpuriously found
      · cases step
  | startTask i =>
      rcases Option.bind_eq_some_iff.mp step with ⟨pc, found, step⟩
      split at step
      · cases step
        exact .starts found
      · cases step
  | finishTask i =>
      rcases Option.bind_eq_some_iff.mp step with ⟨pc, found, step⟩
      split at step
      · cases step
        exact .finishes found
      · cases step
  | setStop =>
      simp only [next] at step
      split at step
      · rename_i idle
        cases step
        exact .stops idle
      · cases step
  | notifyAll =>
      simp only [next] at step
      split at step
      · rename_i stopped
        cases step
        exact .notifiedAll stopped
      · cases step
  | join =>
      simp only [next] at step
      split at step
      · rename_i both
        cases step
        exact .joined both.1 both.2
      · cases step

end ThreadPool

end Mprpc.Threads
