import Mprpc.Transition.Parties

/-!
# Waiting on one condition variable

All threads wait for the same thing, so any of them can use any notification.
The threads are a list of program counters; `Waiting` says which of these are
asleep, which have been woken and have not resumed yet, and what a notification
makes of a sleeper.

A thread that was woken takes nothing by being woken: another thread may come
first.  What keeps the sleepers safe is a count.  As long as somebody sleeps,
there are no more items than woken threads and notifications still to come.
-/

namespace Mprpc.Transition

universe u v

/-- How threads with program counters in `π` wait. -/
structure Waiting (π : Type u) where
  asleep : π → Bool
  woken : π → Bool
  wake : π → π
  not_woken_of_asleep : ∀ {pc}, asleep pc = true → woken pc = false
  not_asleep_wake : ∀ {pc}, asleep pc = true → asleep (wake pc) = false
  woken_wake : ∀ {pc}, asleep pc = true → woken (wake pc) = true

namespace Waiting

variable {π : Type u} (waiting : Waiting π)

/-- `notify_one`: one of the sleepers, whichever the library picks, and none
only when there is none. -/
def notifyOne (threads : List π) : Option Nat → Option (List π)
  | none => if threads.any waiting.asleep then none else some threads
  | some j =>
      (threads[j]?).bind fun pc =>
        if waiting.asleep pc then some (threads.set j (waiting.wake pc)) else none

/-- `notify_all`. -/
def notifyAll (threads : List π) : List π :=
  threads.map fun pc => if waiting.asleep pc then waiting.wake pc else pc

/-- While somebody sleeps, every item is matched by a woken thread or by a
notification still to come. -/
def Covered (items notifications : Nat) (threads : List π) : Prop :=
  0 < threads.countP waiting.asleep → items ≤ threads.countP waiting.woken + notifications

variable {waiting} {threads later : List π} {items notifications i : Nat} {old new : π}

/-- `notify_one` wakes one sleeper, or there is none. -/
theorem notifyOne_eq_some {woken : Option Nat}
    (notified : waiting.notifyOne threads woken = some later) :
    (later = threads ∧ threads.countP waiting.asleep = 0) ∨
      ∃ j pc, woken = some j ∧ threads[j]? = some pc ∧ waiting.asleep pc = true ∧
        later = threads.set j (waiting.wake pc) := by
  cases woken with
  | none =>
      left
      simp only [notifyOne] at notified
      split at notified
      · cases notified
      · rename_i nobody
        cases notified
        refine ⟨rfl, List.countP_eq_zero.mpr fun pc member sleeps => ?_⟩
        exact nobody (List.any_eq_true.mpr ⟨pc, member, sleeps⟩)
  | some j =>
      right
      rcases Option.bind_eq_some_iff.mp notified with ⟨pc, found, notified⟩
      split at notified
      · rename_i sleeps
        cases notified
        exact ⟨j, pc, rfl, found, sleeps, rfl⟩
      · cases notified

/-- `notify_one` can always be given. -/
theorem exists_notifyOne (waiting : Waiting π) (threads : List π) :
    ∃ woken later, waiting.notifyOne threads woken = some later := by
  by_cases somebody : threads.any waiting.asleep = true
  · rcases List.any_eq_true.mp somebody with ⟨pc, member, sleeps⟩
    rcases List.mem_iff_getElem?.mp member with ⟨j, found⟩
    exact ⟨some j, threads.set j (waiting.wake pc), by simp [notifyOne, found, sleeps]⟩
  · exact ⟨none, threads, by simp only [notifyOne, if_neg somebody]⟩

/-- What sleepers keep when they are woken, all threads keep. -/
theorem map_notifyOne {β : Type v} {f : π → β}
    (same : ∀ pc, waiting.asleep pc = true → f (waiting.wake pc) = f pc) {woken : Option Nat}
    (notified : waiting.notifyOne threads woken = some later) : later.map f = threads.map f := by
  rcases notifyOne_eq_some notified with ⟨rfl, -⟩ | ⟨j, pc, -, found, sleeps, rfl⟩
  · rfl
  · exact map_set_of_eq found (same pc sleeps)

theorem map_notifyAll {β : Type v} {f : π → β}
    (same : ∀ pc, waiting.asleep pc = true → f (waiting.wake pc) = f pc) (threads : List π) :
    (waiting.notifyAll threads).map f = threads.map f := by
  unfold notifyAll
  rw [List.map_map]
  refine List.map_congr_left fun pc _ => ?_
  dsimp only [Function.comp]
  split
  · rename_i sleeps
    exact same pc sleeps
  · rfl

/-- After `notify_all` nobody sleeps. -/
theorem asleep_notifyAll (waiting : Waiting π) (threads : List π) :
    (waiting.notifyAll threads).countP waiting.asleep = 0 := by
  apply List.countP_eq_zero.mpr
  intro pc member
  rcases List.mem_map.mp member with ⟨before, -, rfl⟩
  split
  · rename_i sleeps
    simp [waiting.not_asleep_wake sleeps]
  · rename_i awake
    exact awake

/-! ### One thread moves -/

theorem asleep_set_le (waiting : Waiting π) (found : threads[i]? = some old)
    (notAsleep : waiting.asleep new = false) :
    (threads.set i new).countP waiting.asleep ≤ threads.countP waiting.asleep := by
  have sleepers := countP_set_add waiting.asleep found new
  simp only [notAsleep, Bool.false_eq_true, if_false] at sleepers
  omega

theorem woken_le_set (found : threads[i]? = some old) (notWoken : waiting.woken old = false) :
    threads.countP waiting.woken ≤ (threads.set i new).countP waiting.woken := by
  have wokens := countP_set_add waiting.woken found new
  simp only [notWoken, Bool.false_eq_true, if_false] at wokens
  omega

theorem woken_le_set_succ (found : threads[i]? = some old) :
    threads.countP waiting.woken ≤ (threads.set i new).countP waiting.woken + 1 := by
  have wokens := countP_set_add waiting.woken found new
  have share : (if waiting.woken old = true then 1 else 0) ≤ 1 := by
    split
    · exact Nat.le_refl 1
    · exact Nat.zero_le 1
  omega

theorem woken_set_wake (found : threads[i]? = some old) (sleeps : waiting.asleep old = true) :
    (threads.set i (waiting.wake old)).countP waiting.woken =
      threads.countP waiting.woken + 1 := by
  have wokens := countP_set_add waiting.woken found (waiting.wake old)
  simp only [waiting.not_woken_of_asleep sleeps, waiting.woken_wake sleeps, Bool.false_eq_true,
    if_false, if_true] at wokens
  omega

namespace Covered

/-- Without sleepers there is nothing to show. -/
theorem of_nobody (nobody : threads.countP waiting.asleep = 0) :
    waiting.Covered items notifications threads := by
  intro somebody
  omega

/-- Without items there is nothing to show either: a thread may go to sleep. -/
theorem of_nothing (nothing : items = 0) : waiting.Covered items notifications threads := by
  intro _
  omega

/-- A thread that was not woken goes on. -/
theorem move (covered : waiting.Covered items notifications threads)
    (found : threads[i]? = some old) (notWoken : waiting.woken old = false)
    (notAsleep : waiting.asleep new = false) :
    waiting.Covered items notifications (threads.set i new) := by
  intro somebody
  have sleepers := asleep_set_le waiting found notAsleep
  have wokens : threads.countP waiting.woken ≤ (threads.set i new).countP waiting.woken :=
    woken_le_set found notWoken
  have before := covered (by omega)
  omega

/-- A thread takes an item; it was woken or has just come. -/
theorem take (covered : waiting.Covered (items + 1) notifications threads)
    (found : threads[i]? = some old) (notAsleep : waiting.asleep new = false) :
    waiting.Covered items notifications (threads.set i new) := by
  intro somebody
  have sleepers := asleep_set_le waiting found notAsleep
  have wokens : threads.countP waiting.woken ≤ (threads.set i new).countP waiting.woken + 1 :=
    woken_le_set_succ found
  have before := covered (by omega)
  omega

/-- A notification that is given covers one item. -/
theorem notifyOne {woken : Option Nat}
    (covered : waiting.Covered items (notifications + 1) threads)
    (notified : waiting.notifyOne threads woken = some later) :
    waiting.Covered items notifications later := by
  rcases notifyOne_eq_some notified with ⟨rfl, nobody⟩ | ⟨j, pc, -, found, sleeps, rfl⟩
  · exact of_nobody nobody
  · intro somebody
    have sleepers := asleep_set_le waiting found (waiting.not_asleep_wake sleeps)
    have wokens := woken_set_wake found sleeps
    have before := covered (by omega)
    omega

/-- An item is added, with a notification to follow. -/
theorem add (covered : waiting.Covered items notifications threads) :
    waiting.Covered (items + 1) (notifications + 1) threads := by
  intro somebody
  have before := covered somebody
  omega

/-- A new thread arrives awake. -/
theorem spawn (covered : waiting.Covered items notifications threads)
    (notAsleep : waiting.asleep new = false) :
    waiting.Covered items notifications (threads ++ [new]) := by
  intro somebody
  simp only [List.countP_append, List.countP_singleton, notAsleep] at somebody
  have before := covered (by simpa using somebody)
  rw [List.countP_append]
  omega

/-- When no notification is to come and no woken thread is left, whoever sleeps
has nothing to wake up for. -/
theorem nothing_left (covered : waiting.Covered items 0 threads)
    (settled : threads.countP waiting.woken = 0) (sleeps : 0 < threads.countP waiting.asleep) :
    items = 0 := by
  have bound := covered sleeps
  omega

end Covered

end Waiting

end Mprpc.Transition
