import Mprpc.Threads.ThreadPool

/-!
# Accepted tasks run once

Tasks leave the queue in the order in which they came, and each worker starts
what it took.  `enqueue` and the destructor notify after they have released the
lock, but no sleeper is forgotten: while a worker sleeps, the queued tasks are
matched by woken workers and notifications to come, and a stopped pool has its
`notify_all` still before it.  So once nothing is left to do but to sleep, every
accepted task has run.
-/

namespace Mprpc.Threads

open Mprpc.Transition

universe u

namespace ThreadPool

variable {α : Type u}

/-- The tasks that workers have taken and not started. -/
def held (s : ThreadPool α) : List α :=
  s.workers.filterMap WorkerPc.held

/-- The tasks that are running. -/
def current (s : ThreadPool α) : List α :=
  s.workers.filterMap WorkerPc.current

/-- The number of sleeping workers. -/
def asleep (s : ThreadPool α) : Nat :=
  s.workers.countP WorkerPc.isAsleep

/-- No notification is pending: no `notify_one` or `notify_all` is to come, and no
worker has been woken and not resumed. -/
def Settled (s : ThreadPool α) : Prop :=
  s.notifying = 0 ∧ s.destructor ≠ .stopped ∧ s.workers.countP WorkerPc.isWoken = 0

def AllExited (s : ThreadPool α) : Prop :=
  ∀ pc ∈ s.workers, pc = .exited

/-- What workers and pending notifications do by themselves. -/
def Internal : ThreadPoolAction α → Prop
  | .notifyOne _ | .enter _ | .startTask _ | .finishTask _ | .notifyAll | .join => True
  | .enqueue _ | .wakeSpuriously _ | .setStop => False

/-- Nothing is left to do. -/
def Quiet (s : ThreadPool α) : Prop :=
  ∀ action, Internal action → s.next action = none

/-- A worker that moves on takes along what it counts for. -/
theorem held_set {s : ThreadPool α} {i : Nat} {old : WorkerPc α}
    (found : s.workers[i]? = some old) (new : WorkerPc α) :
    (old.held.toList ++ (s.workers.set i new).filterMap WorkerPc.held).Perm
      (new.held.toList ++ s.held) :=
  filterMap_set_perm WorkerPc.held found new

theorem current_set {s : ThreadPool α} {i : Nat} {old : WorkerPc α}
    (found : s.workers[i]? = some old) (new : WorkerPc α) :
    (old.current.toList ++ (s.workers.set i new).filterMap WorkerPc.current).Perm
      (new.current.toList ++ s.current) :=
  filterMap_set_perm WorkerPc.current found new

/-! ## Where the tasks are -/

/-- Accepted tasks are queued or were taken, in this order; taken tasks are held
or were started; started tasks are running or have finished. -/
structure Accounted (s : ThreadPool α) : Prop where
  accepted : s.accepted = s.dequeued ++ s.tasks
  dequeued : s.dequeued.Perm (s.held ++ s.started)
  started : s.started.Perm (s.current ++ s.finished)

/-- A worker moves on and takes nothing along. -/
theorem Accounted.move {s : ThreadPool α} (accounted : s.Accounted) {i : Nat}
    {old new : WorkerPc α} (found : s.workers[i]? = some old) (noneHeld : old.held = none)
    (holdsNone : new.held = none) (noneRunning : old.current = none)
    (runsNone : new.current = none) : (s.setWorker i new).Accounted := by
  have held := held_set found new
  have current := current_set found new
  rw [noneHeld, holdsNone] at held
  rw [noneRunning, runsNone] at current
  exact ⟨accounted.accepted, accounted.dequeued.trans (held.symm.append_right _),
    accounted.started.trans (current.symm.append_right _)⟩

/-- A worker that is woken moves no task. -/
theorem held_wake (pc : WorkerPc α) (sleeps : WorkerPc.waiting.asleep pc = true) :
    (WorkerPc.waiting.wake pc).held = pc.held := by
  cases WorkerPc.isAsleep_iff.mp sleeps
  rfl

theorem current_wake (pc : WorkerPc α) (sleeps : WorkerPc.waiting.asleep pc = true) :
    (WorkerPc.waiting.wake pc).current = pc.current := by
  cases WorkerPc.isAsleep_iff.mp sleeps
  rfl

/-- Workers are woken. -/
theorem Accounted.wake {s : ThreadPool α} (accounted : s.Accounted)
    {workers : List (WorkerPc α)}
    (held : workers.map WorkerPc.held = s.workers.map WorkerPc.held)
    (current : workers.map WorkerPc.current = s.workers.map WorkerPc.current) :
    { s with workers := workers }.Accounted := by
  refine ⟨accounted.accepted, ?_, ?_⟩
  · have same : { s with workers := workers }.held = s.held := filterMap_of_map_eq held
    rw [same]
    exact accounted.dequeued
  · have same : { s with workers := workers }.current = s.current := filterMap_of_map_eq current
    rw [same]
    exact accounted.started

/-- A worker takes the first task. -/
theorem Accounted.take {s : ThreadPool α} (accounted : s.Accounted) {i : Nat}
    {pc : WorkerPc α} {task : α} {rest : List α} (found : s.workers[i]? = some pc)
    (awake : pc = .entering ∨ pc = .woken) (queued : s.tasks = task :: rest) :
    ({ s with tasks := rest, dequeued := s.dequeued ++ [task] }.setWorker i
      (.holding task)).Accounted := by
  have held := held_set found (.holding task)
  have current := current_set found (.holding task)
  have nothing : pc.held = none ∧ pc.current = none := by
    rcases awake with rfl | rfl
    · exact ⟨rfl, rfl⟩
    · exact ⟨rfl, rfl⟩
  rw [nothing.1] at held
  rw [nothing.2] at current
  constructor
  · change s.accepted = s.dequeued ++ [task] ++ rest
    rw [accounted.accepted, queued, List.append_assoc, List.singleton_append]
  · change (s.dequeued ++ [task]).Perm _
    refine (List.perm_append_comm).trans ?_
    refine (accounted.dequeued.append_left [task]).trans ?_
    rw [← List.append_assoc]
    exact held.symm.append_right _
  · exact accounted.started.trans (current.symm.append_right _)

/-- A worker starts its task. -/
theorem Accounted.start {s : ThreadPool α} (accounted : s.Accounted) {i : Nat} {task : α}
    (found : s.workers[i]? = some (.holding task)) :
    ({ s with started := s.started ++ [task] }.setWorker i (.running task)).Accounted := by
  have held := held_set found (.running task)
  have current := current_set found (.running task)
  refine ⟨accounted.accepted, ?_, ?_⟩
  · change s.dequeued.Perm (_ ++ (s.started ++ [task]))
    rw [← List.append_assoc]
    refine accounted.dequeued.trans (List.Perm.trans ?_ List.perm_append_comm)
    rw [← List.append_assoc]
    exact held.symm.append_right _
  · change (s.started ++ [task]).Perm _
    refine (List.perm_append_comm).trans ?_
    refine (accounted.started.append_left [task]).trans ?_
    rw [← List.append_assoc]
    exact current.symm.append_right _

/-- A task returns. -/
theorem Accounted.finish {s : ThreadPool α} (accounted : s.Accounted) {i : Nat} {task : α}
    (found : s.workers[i]? = some (.running task)) :
    ({ s with finished := s.finished ++ [task] }.setWorker i .entering).Accounted := by
  have held := held_set found .entering
  have current := current_set found .entering
  refine ⟨accounted.accepted, accounted.dequeued.trans (held.symm.append_right _), ?_⟩
  change s.started.Perm (_ ++ (s.finished ++ [task]))
  rw [← List.append_assoc]
  refine accounted.started.trans (List.Perm.trans ?_ List.perm_append_comm)
  rw [← List.append_assoc]
  exact current.symm.append_right _

theorem Accounted.of_stepped {s t : ThreadPool α} {action : ThreadPoolAction α}
    (accounted : s.Accounted) (stepped : Stepped s action t) : t.Accounted := by
  cases stepped with
  | enqueued task running =>
      refine ⟨?_, accounted.dequeued, accounted.started⟩
      change s.accepted ++ [task] = s.dequeued ++ (s.tasks ++ [task])
      rw [accounted.accepted, List.append_assoc]
  | threw task stopped => exact accounted
  | @notified woken count workers pending wakes =>
      have later := accounted.wake (Waiting.map_notifyOne held_wake wakes)
        (Waiting.map_notifyOne current_wake wakes)
      exact ⟨later.accepted, later.dequeued, later.started⟩
  | exits found awake stopped drained =>
      rcases awake with rfl | rfl
      · exact accounted.move found rfl rfl rfl rfl
      · exact accounted.move found rfl rfl rfl rfl
  | takes found awake queued => exact accounted.take found awake queued
  | sleeps found awake running drained =>
      rcases awake with rfl | rfl
      · exact accounted.move found rfl rfl rfl rfl
      · exact accounted.move found rfl rfl rfl rfl
  | wokeSpuriously found => exact accounted.move found rfl rfl rfl rfl
  | starts found => exact accounted.start found
  | finishes found => exact accounted.finish found
  | stops idle => exact ⟨accounted.accepted, accounted.dequeued, accounted.started⟩
  | notifiedAll stopped =>
      have later := accounted.wake (Waiting.map_notifyAll held_wake s.workers)
        (Waiting.map_notifyAll current_wake s.workers)
      exact ⟨later.accepted, later.dequeued, later.started⟩
  | joined joining allExited =>
      exact ⟨accounted.accepted, accounted.dequeued, accounted.started⟩

/-! ## Who sleeps -/

/-- What keeps the sleepers safe, and what an exit means. -/
structure Watched (s : ThreadPool α) : Prop where
  covered : WorkerPc.waiting.Covered s.tasks.length s.notifying s.workers
  idle_of_running : s.stop = false → s.destructor = .idle
  nobody_of_stop : s.stop = true → s.destructor = .stopped ∨ s.asleep = 0
  of_exited : ∀ pc ∈ s.workers, pc = .exited → s.stop = true ∧ s.tasks = []

theorem asleep_setWorker_le {s : ThreadPool α} {i : Nat} {old new : WorkerPc α}
    (found : s.workers[i]? = some old) (notAsleep : new.isAsleep = false) :
    (s.setWorker i new).asleep ≤ s.asleep :=
  Waiting.asleep_set_le WorkerPc.waiting found notAsleep

/-- Fewer sleepers are as safe. -/
theorem Watched.nobody_of_le {s : ThreadPool α} (watched : s.Watched) {sleepers : Nat}
    (fewer : sleepers ≤ s.asleep) (stopped : s.stop = true) :
    s.destructor = .stopped ∨ sleepers = 0 := by
  refine (watched.nobody_of_stop stopped).imp_right fun nobody => ?_
  omega

/-- A worker moves on, neither to sleep nor to its exit. -/
theorem Watched.move {s : ThreadPool α} (watched : s.Watched) {i : Nat} {old new : WorkerPc α}
    (found : s.workers[i]? = some old) (notWoken : old.isWoken = false)
    (notAsleep : new.isAsleep = false) (notExited : new ≠ .exited) :
    (s.setWorker i new).Watched := by
  refine ⟨watched.covered.move found notWoken notAsleep, watched.idle_of_running,
    watched.nobody_of_le (asleep_setWorker_le found notAsleep), ?_⟩
  exact forall_mem_set watched.of_exited fun exited => absurd exited notExited

theorem Watched.notify {s : ThreadPool α} (watched : s.Watched) {woken : Option Nat}
    {count : Nat} {workers : List (WorkerPc α)} (pending : s.notifying = count + 1)
    (wakes : WorkerPc.waiting.notifyOne s.workers woken = some workers) :
    { s with workers := workers, notifying := count }.Watched := by
  have covered := watched.covered
  rw [pending] at covered
  have fewer : workers.countP WorkerPc.isAsleep ≤ s.asleep := by
    rcases Waiting.notifyOne_eq_some wakes with ⟨rfl, -⟩ | ⟨j, pc, -, found, sleeps, rfl⟩
    · exact Nat.le_refl _
    · exact asleep_setWorker_le found (WorkerPc.waiting.not_asleep_wake sleeps)
  refine ⟨covered.notifyOne wakes, watched.idle_of_running, watched.nobody_of_le fewer, ?_⟩
  rcases Waiting.notifyOne_eq_some wakes with ⟨rfl, -⟩ | ⟨j, pc, -, found, sleeps, rfl⟩
  · exact watched.of_exited
  · exact forall_mem_set watched.of_exited fun exited => nomatch exited

theorem Watched.of_stepped {s t : ThreadPool α} {action : ThreadPoolAction α}
    (watched : s.Watched) (stepped : Stepped s action t) : t.Watched := by
  cases stepped with
  | enqueued task running =>
      refine ⟨?_, watched.idle_of_running, watched.nobody_of_stop, ?_⟩
      · dsimp only
        rw [List.length_append, List.length_singleton]
        exact watched.covered.add
      · intro pc member exited
        have stopped := (watched.of_exited pc member exited).1
        rw [running] at stopped
        cases stopped
  | threw task stopped => exact watched
  | notified pending wakes => exact watched.notify pending wakes
  | exits found awake stopped drained =>
      exact ⟨.of_nothing (List.length_eq_zero_iff.mpr drained), watched.idle_of_running,
        watched.nobody_of_le (asleep_setWorker_le found rfl), fun _ _ _ => ⟨stopped, drained⟩⟩
  | takes found awake queued =>
      have covered := watched.covered
      rw [queued, List.length_cons] at covered
      refine ⟨covered.take found rfl, watched.idle_of_running,
        watched.nobody_of_le (asleep_setWorker_le found rfl), ?_⟩
      refine forall_mem_set (fun other member exited => ?_) fun exited => nomatch exited
      have drained := (watched.of_exited other member exited).2
      rw [queued] at drained
      cases drained
  | sleeps found awake running drained =>
      refine ⟨.of_nothing (List.length_eq_zero_iff.mpr drained), watched.idle_of_running, ?_, ?_⟩
      · intro stopped
        rw [show s.stop = true from stopped] at running
        cases running
      · exact forall_mem_set watched.of_exited fun exited => nomatch exited
  | wokeSpuriously found => exact watched.move found rfl rfl (fun exited => nomatch exited)
  | starts found =>
      have same : ∀ started, { s with started := started }.Watched := fun _ =>
        ⟨watched.covered, watched.idle_of_running, watched.nobody_of_stop, watched.of_exited⟩
      exact (same _).move found rfl rfl (fun exited => nomatch exited)
  | finishes found =>
      have same : ∀ finished, { s with finished := finished }.Watched := fun _ =>
        ⟨watched.covered, watched.idle_of_running, watched.nobody_of_stop, watched.of_exited⟩
      exact (same _).move found rfl rfl (fun exited => nomatch exited)
  | stops idle =>
      refine ⟨watched.covered, (fun running => nomatch running), fun _ => .inl rfl, ?_⟩
      exact fun pc member exited => ⟨rfl, (watched.of_exited pc member exited).2⟩
  | notifiedAll stopped =>
      have nobody := Waiting.asleep_notifyAll WorkerPc.waiting s.workers
      refine ⟨.of_nobody nobody, ?_, fun _ => .inr nobody, ?_⟩
      · intro running
        have idle := watched.idle_of_running running
        rw [stopped] at idle
        cases idle
      · intro pc member exited
        rcases List.mem_map.mp member with ⟨before, inside, rfl⟩
        split at exited
        · cases exited
        · exact watched.of_exited before inside exited
  | joined joining allExited =>
      refine ⟨watched.covered, ?_, ?_, watched.of_exited⟩
      · intro running
        have idle := watched.idle_of_running running
        rw [joining] at idle
        cases idle
      · intro stopped
        refine .inr ((watched.nobody_of_stop stopped).resolve_left fun before => ?_)
        rw [joining] at before
        cases before

/-! ## How long it takes -/

/-- The number of steps that a worker has left at most, until it asks for the
next task. -/
def workerWork : WorkerPc α → Nat
  | .entering | .woken => 1
  | .holding _ => 3
  | .running _ => 2
  | .asleep | .exited => 0

/-- The number of internal steps that are left at most. -/
def work (s : ThreadPool α) : Nat :=
  3 * s.tasks.length + (s.workers.map workerWork).sum + 2 * s.notifying +
    match s.destructor with
    | .stopped => s.workers.length + 2
    | .joining => 1
    | .idle | .returned => 0

theorem work_setWorker {s : ThreadPool α} {i : Nat} {old : WorkerPc α}
    (found : s.workers[i]? = some old) (new : WorkerPc α) :
    (s.setWorker i new).work + workerWork old = s.work + workerWork new := by
  have moved := sum_map_set workerWork found new
  simp only [work, setWorker, List.length_set]
  omega

/-- `notify_all` gives each sleeper one more step. -/
theorem sum_notifyAll_le (workers : List (WorkerPc α)) :
    ((WorkerPc.waiting.notifyAll workers).map workerWork).sum ≤
      (workers.map workerWork).sum + workers.length := by
  induction workers with
  | nil => exact Nat.le_refl 0
  | cons pc workers inductionHypothesis =>
      have here : workerWork (if WorkerPc.waiting.asleep pc = true then
          WorkerPc.waiting.wake pc else pc) ≤ workerWork pc + 1 := by
        split
        · exact Nat.le_add_left 1 _
        · exact Nat.le_succ _
      simp only [Waiting.notifyAll, List.map_cons, List.sum_cons, List.length_cons] at *
      omega

theorem work_lt_of_stepped {s t : ThreadPool α} {action : ThreadPoolAction α}
    (internal : Internal action) (stepped : Stepped s action t) : t.work < s.work := by
  cases stepped with
  | enqueued task running => cases internal
  | threw task stopped => cases internal
  | wokeSpuriously found => cases internal
  | stops idle => cases internal
  | @notified woken count workers pending wakes =>
      rcases Waiting.notifyOne_eq_some wakes with ⟨rfl, -⟩ | ⟨j, pc, -, found, sleeps, rfl⟩
      · simp only [work, pending]
        omega
      · cases WorkerPc.isAsleep_iff.mp sleeps
        have moved := sum_map_set workerWork found .woken
        simp only [workerWork] at moved
        simp only [work, pending, List.length_set, WorkerPc.waiting]
        omega
  | exits found awake stopped drained =>
      have moved := work_setWorker found .exited
      rcases awake with rfl | rfl <;> simp only [workerWork] at moved <;> omega
  | sleeps found awake running drained =>
      have moved := work_setWorker found .asleep
      rcases awake with rfl | rfl <;> simp only [workerWork] at moved <;> omega
  | @takes i pc task rest found awake queued =>
      have moved := work_setWorker
        (s := { s with tasks := rest, dequeued := s.dequeued ++ [task] }) found (.holding task)
      have shorter : { s with tasks := rest, dequeued := s.dequeued ++ [task] }.work + 3 =
          s.work := by
        simp only [work, queued, List.length_cons]
        omega
      rcases awake with rfl | rfl <;> simp only [workerWork] at moved <;> omega
  | @starts i task found =>
      have moved := work_setWorker (s := { s with started := s.started ++ [task] }) found
        (.running task)
      have same : { s with started := s.started ++ [task] }.work = s.work := rfl
      simp only [workerWork] at moved
      omega
  | @finishes i task found =>
      have moved := work_setWorker (s := { s with finished := s.finished ++ [task] }) found
        .entering
      have same : { s with finished := s.finished ++ [task] }.work = s.work := rfl
      simp only [workerWork] at moved
      omega
  | notifiedAll stopped =>
      have more := sum_notifyAll_le s.workers
      simp only [work, stopped]
      omega
  | joined joining allExited =>
      simp only [work, joining]
      omega

/-! ## When nothing is left to do -/

theorem Quiet.notifying {s : ThreadPool α} (quiet : s.Quiet) : s.notifying = 0 := by
  cases pending : s.notifying with
  | zero => rfl
  | succ count =>
      rcases Waiting.exists_notifyOne WorkerPc.waiting s.workers with ⟨woken, later, notified⟩
      have disabled := quiet (.notifyOne woken) trivial
      simp [next, pending, notified] at disabled

/-- Every worker sleeps or has left. -/
theorem Quiet.workers {s : ThreadPool α} (quiet : s.Quiet) {pc : WorkerPc α}
    (member : pc ∈ s.workers) : pc = .asleep ∨ pc = .exited := by
  rcases List.mem_iff_getElem?.mp member with ⟨i, found⟩
  cases pc with
  | entering =>
      have disabled := quiet (.enter i) trivial
      simp [next, found] at disabled
  | woken =>
      have disabled := quiet (.enter i) trivial
      simp [next, found] at disabled
  | holding task =>
      have disabled := quiet (.startTask i) trivial
      simp [next, found] at disabled
  | running task =>
      have disabled := quiet (.finishTask i) trivial
      simp [next, found] at disabled
  | asleep => exact .inl rfl
  | exited => exact .inr rfl

/-- Where nobody holds or runs a task, everything taken has finished. -/
theorem Accounted.all_finished {s : ThreadPool α} (accounted : s.Accounted)
    (atRest : ∀ pc ∈ s.workers, pc = .asleep ∨ pc = .exited) (drained : s.tasks = []) :
    s.accepted.Perm s.finished := by
  have noneHeld : s.held = [] := by
    apply List.filterMap_eq_nil_iff.mpr
    intro pc member
    rcases atRest pc member with rfl | rfl
    · rfl
    · rfl
  have noneRunning : s.current = [] := by
    apply List.filterMap_eq_nil_iff.mpr
    intro pc member
    rcases atRest pc member with rfl | rfl
    · rfl
    · rfl
  have dequeued := accounted.dequeued
  have started := accounted.started
  rw [noneHeld, List.nil_append] at dequeued
  rw [noneRunning, List.nil_append] at started
  rw [accounted.accepted, drained, List.append_nil]
  exact dequeued.trans started

theorem length_workers_of_stepped {s t : ThreadPool α} {action : ThreadPoolAction α}
    (stepped : Stepped s action t) : t.workers.length = s.workers.length := by
  cases stepped with
  | notified pending wakes =>
      rcases Waiting.notifyOne_eq_some wakes with ⟨rfl, -⟩ | ⟨j, pc, -, found, sleeps, rfl⟩
      · rfl
      · exact List.length_set
  | exits found awake stopped drained => exact List.length_set
  | takes found awake queued => exact List.length_set
  | sleeps found awake running drained => exact List.length_set
  | wokeSpuriously found => exact List.length_set
  | starts found => exact List.length_set
  | finishes found => exact List.length_set
  | notifiedAll stopped => exact List.length_map _
  | _ => rfl

/-- The invariant of the pool. -/
theorem invariant_of_reachable {threads : Nat} {s : ThreadPool α}
    (reached : Reachable next Unrestricted (new threads) s) :
    s.Accounted ∧ s.Watched ∧ s.workers.length = threads := by
  apply reached.invariant
  · have entering : ∀ pc ∈ (new threads : ThreadPool α).workers, pc = .entering := fun _ member =>
      List.eq_of_mem_replicate member
    have nothing : ∀ f : WorkerPc α → Option α, f .entering = none →
        (new threads : ThreadPool α).workers.filterMap f = [] := by
      intro f none
      apply List.filterMap_eq_nil_iff.mpr
      intro pc member
      rw [entering pc member, none]
    refine ⟨⟨rfl, ?_, ?_⟩, ⟨.of_nothing rfl, fun _ => rfl, (fun stopped => nomatch stopped), ?_⟩,
      List.length_replicate⟩
    · rw [held, nothing _ rfl]
      exact .refl []
    · rw [current, nothing _ rfl]
      exact .refl []
    · intro pc member exited
      rw [entering pc member] at exited
      cases exited
  · intro state action successor invariant _ step
    rcases invariant with ⟨accounted, watched, length⟩
    have stepped := stepped_of_next step
    exact ⟨accounted.of_stepped stepped, watched.of_stepped stepped,
      (length_workers_of_stepped stepped).trans length⟩

/-- Whatever workers, callers and destructor do: accepted tasks are taken in
order and each is started and finished once; when the workers have left, all
have run; nobody sleeps through a task or the stop; and after finitely many
steps without new calls, all accepted tasks have run. -/
theorem accepted_tasks_run_once {threads : Nat} (positive : 0 < threads) {s : ThreadPool α}
    (reached : Reachable next Unrestricted (new threads) s) :
    s.accepted = s.dequeued ++ s.tasks ∧
      s.dequeued.Perm (s.held ++ s.started) ∧
      s.started.Perm (s.current ++ s.finished) ∧
      (s.AllExited → s.tasks = [] ∧ s.accepted.Perm s.finished) ∧
      (s.Settled → 0 < s.asleep → s.tasks = [] ∧ s.stop = false) ∧
      (s.Quiet → s.accepted.Perm s.finished) ∧
      ∀ actions t, Meets next (fun _ => Internal) s actions → run next s actions = some t →
        actions.length ≤ s.work := by
  rcases invariant_of_reachable reached with ⟨accounted, watched, length⟩
  have worker : ∃ pc, pc ∈ s.workers := List.exists_mem_of_length_pos (by omega)
  rcases worker with ⟨pc, member⟩
  refine ⟨accounted.accepted, accounted.dequeued, accounted.started, ?_, ?_, ?_, ?_⟩
  · intro exited
    have drained := (watched.of_exited pc member (exited pc member)).2
    exact ⟨drained, accounted.all_finished (fun pc member => .inr (exited pc member)) drained⟩
  · rintro ⟨noneNotifying, notStopping, noneWoken⟩ sleeps
    have covered := watched.covered
    rw [noneNotifying] at covered
    refine ⟨List.length_eq_zero_iff.mp (covered.nothing_left noneWoken sleeps), ?_⟩
    by_contra running
    have stopped : s.stop = true := by simpa using running
    rcases watched.nobody_of_stop stopped with stopping | nobody
    · exact notStopping stopping
    · omega
  · intro quiet
    have drained : s.tasks = [] := by
      rcases quiet.workers member with sleeping | exited
      · have covered := watched.covered
        rw [quiet.notifying] at covered
        have noneWoken : s.workers.countP WorkerPc.waiting.woken = 0 := by
          apply List.countP_eq_zero.mpr
          intro other inside
          rcases quiet.workers inside with rfl | rfl <;> exact Bool.false_ne_true
        refine List.length_eq_zero_iff.mp (covered.nothing_left noneWoken ?_)
        exact List.countP_pos_iff.mpr ⟨pc, member, WorkerPc.isAsleep_iff.mpr sleeping⟩
      · exact (watched.of_exited pc member exited).2
    exact accounted.all_finished (fun _ => quiet.workers) drained
  · intro actions t internal succeeds
    have bound := length_add_le_of_meets
      (fun _ _ _ allowed step => work_lt_of_stepped allowed (stepped_of_next step))
      internal succeeds
    omega

/-- A task that is accepted just before the destructor runs, taken by the worker
that the destructor woke. -/
theorem last_task_run_once :
    ∃ s : ThreadPool Nat, Reachable next Unrestricted (new 2) s ∧
      (s.workers = [.exited, .exited] ∧ s.accepted = [7]) ∧
      (s.accepted = s.dequeued ++ s.tasks ∧
        s.dequeued.Perm (s.held ++ s.started) ∧
        s.started.Perm (s.current ++ s.finished) ∧
        (s.AllExited → s.tasks = [] ∧ s.accepted.Perm s.finished) ∧
        (s.Settled → 0 < s.asleep → s.tasks = [] ∧ s.stop = false) ∧
        (s.Quiet → s.accepted.Perm s.finished) ∧
        ∀ actions t, Meets next (fun _ => Internal) s actions → run next s actions = some t →
          actions.length ≤ s.work) := by
  have run : ∃ s : ThreadPool Nat, Reachable next Unrestricted (new 2) s ∧
      (s.workers = [.exited, .exited] ∧ s.accepted = [7]) := by
    apply exists_reachable [.enter 0, .enter 1, .enqueue 7, .notifyOne (some 0), .setStop,
      .notifyAll, .enter 1, .startTask 1, .enter 0, .finishTask 1, .enter 1, .join]
    · exact Meets.unrestricted _ _ _
    · decide +kernel
  rcases run with ⟨s, reached, ended⟩
  exact ⟨s, reached, ended, accepted_tasks_run_once (by decide) reached⟩

end ThreadPool

end Mprpc.Threads
