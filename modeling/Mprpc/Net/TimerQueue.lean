import Mprpc.Net.TimerOrder
import Mprpc.Transition.Observed

/-!
# The timer heap as a priority queue

Timers leave the heap through `pop_timer` alone.  Whatever is called in whatever
order, the array holds the timers that were added and not popped, none of them
earlier than its parent, and a popped timer is one that expires first.

`adjust_timer` adds a timer and takes none out, `del_timer` does neither.
-/

namespace Mprpc.Net

open Mprpc.ArrayHeap
open Mprpc.Transition

/-- Calls of a `time_heap`.  `create` is a `new util_timer` of the caller, who sets
the fields before the timer is added. -/
inductive HeapCall
  | create (expire : Int) (cbFunc : Bool) (userData : Fd)
  | add (timer : TimerId)
  | adjust (now : Int) (timer : TimerId)
  | del (timer : TimerId)
  | pop
  deriving DecidableEq, Repr

/-- The timer that a call puts into the heap and the one that it takes out. -/
structure Moved where
  added : Option TimerId := none
  popped : Option TimerId := none
  deriving DecidableEq, Repr

/-- The timers that the calls of a history moved on one side. -/
def movedTimers (side : Moved → Option TimerId) (history : List (HeapCall × Moved)) :
    Multiset TimerId :=
  history.filterMap fun entry => side entry.2

/-- The timers that the calls put into the heap. -/
def addedTimers : List (HeapCall × Moved) → Multiset TimerId :=
  movedTimers Moved.added

/-- The timers that they took out. -/
def poppedTimers : List (HeapCall × Moved) → Multiset TimerId :=
  movedTimers Moved.popped

theorem movedTimers_concat (side : Moved → Option TimerId) (history : List (HeapCall × Moved))
    (heapCall : HeapCall) (moved : Moved) :
    movedTimers side (history ++ [(heapCall, moved)]) =
      ((side moved).toList : Multiset TimerId) + movedTimers side history := by
  unfold movedTimers
  rw [List.filterMap_append, ← Multiset.coe_add, Multiset.add_comm]
  cases timer : side moved <;> simp [timer]

namespace TimeHeap

/-- One call, with the timers it moves.  `add_timer` gets a timer that was not
added before: one that is neither in the heap nor freed.  `adjust_timer` and
`del_timer` get one that is still in the heap. -/
def move (t : TimeHeap) : HeapCall → Option (Moved × TimeHeap)
  | .create expire cbFunc userData => some ({}, t.newTimer ⟨expire, cbFunc, userData, false⟩)
  | .add timer =>
      if timer < t.allocated ∧ (t.timers timer).freed = false ∧ some timer ∉ t.entries then
        some ({ added := some timer }, t.addTimer timer)
      else none
  | .adjust now timer =>
      if some timer ∈ t.entries then
        some ({ added := some t.allocated }, t.adjustTimer now timer)
      else none
  | .del timer => if some timer ∈ t.entries then some ({}, t.delTimer timer) else none
  | .pop => some ({ popped := t.top }, t.popTimer)

/-- The array is a heap of some timers. -/
structure Represents (t : TimeHeap) (timers : Multiset TimerId) : Prop where
  sized : t.curSize ≤ t.capacity
  filled : ∀ i < t.curSize, t.array i ≠ none
  distinct : ∀ i < t.curSize, ∀ j < t.curSize, t.array i = t.array j → i = j
  order : ∀ i, 0 < i → i < t.curSize → ∀ parent child, t.array ((i - 1) / 2) = some parent →
    t.array i = some child → t.expire parent ≤ t.expire child
  cleared : t.curSize = 0 → t.array 0 = none
  entries : t.entries = timers.map some

/-- `pop_timer` takes out one timer, and none in the heap expires before it.  An
empty heap stays as it is. -/
structure PopsFirst (t : TimeHeap) : Prop where
  empty : t.curSize = 0 → t.popTimer = t
  root : t.curSize ≠ 0 → ∃ root, t.top = some root ∧
    t.entries = some root ::ₘ t.popTimer.entries ∧
      ∀ timer, some timer ∈ t.entries → t.expire root ≤ t.expire timer

/-! ## The count of timers -/

/-- The heap is well formed, its root is cleared when it is empty, and its timers
are those added and not popped. -/
structure Accounts (t : TimeHeap) (added popped : Multiset TimerId) : Prop where
  wellFormed : t.WellFormed
  cleared : t.curSize = 0 → t.array 0 = none
  balance : t.entries + popped.map some = added.map some

namespace Accounts

variable {t : TimeHeap} {added popped : Multiset TimerId}

theorem new {capacity : Nat} (positive : 0 < capacity) : (TimeHeap.new capacity).Accounts 0 0 where
  wellFormed := .new positive
  cleared _ := rfl
  balance := rfl

theorem newTimer (accounts : t.Accounts added popped) (value : UtilTimer) :
    (t.newTimer value).Accounts added popped where
  wellFormed := accounts.wellFormed.newTimer value
  cleared := accounts.cleared
  balance := accounts.balance

theorem delTimer (accounts : t.Accounts added popped) (timer : TimerId) :
    (t.delTimer timer).Accounts added popped where
  wellFormed := accounts.wellFormed.delTimer timer
  cleared := accounts.cleared
  balance := accounts.balance

theorem addTimer (accounts : t.Accounts added popped) {timer : TimerId}
    (bound : timer < t.allocated) (fresh : some timer ∉ t.entries)
    (alive : (t.timers timer).freed = false) :
    (t.addTimer timer).Accounts (timer ::ₘ added) popped := by
  constructor
  · exact accounts.wellFormed.addTimer bound fresh alive
  · intro empty
    rw [addTimer_curSize] at empty
    exact absurd empty (Nat.succ_ne_zero _)
  · rw [entries_addTimer, Multiset.cons_add, accounts.balance, Multiset.map_cons]

theorem adjustTimer (accounts : t.Accounts added popped) (now : Int) (timer : TimerId) :
    (t.adjustTimer now timer).Accounts (t.allocated ::ₘ added) popped := by
  constructor
  · exact accounts.wellFormed.adjustTimer now timer
  · intro empty
    rw [TimeHeap.adjustTimer, addTimer_curSize] at empty
    exact absurd empty (Nat.succ_ne_zero _)
  · rw [entries_adjustTimer, Multiset.cons_add, accounts.balance, Multiset.map_cons]

/-- The root moves to the popped timers. -/
theorem popTimer (accounts : t.Accounts added popped) :
    t.popTimer.Accounts added ((t.top.toList : Multiset TimerId) + popped) := by
  by_cases empty : t.curSize = 0
  · have noRoot : t.top = none := if_pos empty
    have same : t.popTimer = t := if_pos empty
    rw [noRoot, same, Option.toList_none, Multiset.coe_nil, Multiset.zero_add]
    exact accounts
  · rcases accounts.wellFormed.exists_root empty with ⟨root, atRoot⟩
    have isTop : t.top = some root := by
      rw [top, if_neg empty, atRoot]
    constructor
    · exact accounts.wellFormed.popTimer
    · intro last
      rw [popTimer_curSize] at last
      exact popTimer_cleared (by omega)
    · have balance := accounts.balance
      rw [entries_popTimer empty, atRoot, Multiset.cons_add] at balance
      rw [isTop, Option.toList_some, Multiset.coe_singleton, Multiset.singleton_add,
        Multiset.map_cons, Multiset.add_cons]
      exact balance

/-- Every call keeps the count. -/
theorem move {t' : TimeHeap} {heapCall : HeapCall} {moved : Moved}
    (accounts : t.Accounts added popped) (answers : Answers move t heapCall moved t') :
    t'.Accounts ((moved.added.toList : Multiset TimerId) + added)
      ((moved.popped.toList : Multiset TimerId) + popped) := by
  unfold Answers at answers
  cases heapCall with
  | create expire cbFunc userData =>
      cases answers
      simpa using accounts.newTimer _
  | add timer =>
      simp only [TimeHeap.move] at answers
      split at answers
      · rename_i fresh
        cases answers
        simpa using accounts.addTimer fresh.1 fresh.2.2 fresh.2.1
      · cases answers
  | adjust now timer =>
      simp only [TimeHeap.move] at answers
      split at answers
      · cases answers
        simpa using accounts.adjustTimer now timer
      · cases answers
  | del timer =>
      simp only [TimeHeap.move] at answers
      split at answers
      · cases answers
        simpa using accounts.delTimer timer
      · cases answers
  | pop =>
      cases answers
      simpa using accounts.popTimer

end Accounts

/-! ## What the array holds -/

/-- The timers in the heap are those that were added and not popped. -/
theorem Accounts.remaining {t : TimeHeap} {added popped : Multiset TimerId}
    (accounts : t.Accounts added popped) :
    popped ≤ added ∧ t.entries = (added - popped).map some := by
  have inside : popped.map some ≤ added.map some := by
    rw [← accounts.balance]
    exact Multiset.le_add_left _ _
  have fewer : popped ≤ added := (Multiset.map_le_map_iff (Option.some_injective _)).mp inside
  refine ⟨fewer, ?_⟩
  have balance := accounts.balance
  rw [← Multiset.sub_add_cancel fewer, Multiset.map_add] at balance
  exact (Multiset.add_left_inj).mp balance

theorem WellFormed.represents {t : TimeHeap} {timers : Multiset TimerId}
    (wellFormed : t.WellFormed) (cleared : t.curSize = 0 → t.array 0 = none)
    (entries : t.entries = timers.map some) : t.Represents timers := by
  constructor
  · exact wellFormed.sized
  · exact wellFormed.filled
  · have nodup : ((Multiset.range t.curSize).map t.array).Nodup := wellFormed.nodup
    intro i iInside j jInside same
    exact Multiset.inj_on_of_nodup_map nodup i (Multiset.mem_range.mpr iInside) j
      (Multiset.mem_range.mpr jInside) same
  · intro i notRoot inside parent child atParent atChild
    have order := wellFormed.order _ i (isChild_parent notRoot.ne') inside
    rw [atParent, atChild] at order
    exact order
  · exact cleared
  · exact entries

/-- `resize` changes the capacity only. -/
theorem Represents.resize {t : TimeHeap} {timers : Multiset TimerId}
    (represents : t.Represents timers) : t.resize.Represents timers := by
  have kept : ∀ i < t.curSize, t.resize.array i = t.array i := fun i inside => if_pos inside
  have sized := represents.sized
  constructor
  · change t.curSize ≤ 2 * t.capacity
    omega
  · intro i inside
    rw [kept i inside]
    exact represents.filled i inside
  · intro i iInside j jInside same
    rw [kept i iInside, kept j jInside] at same
    exact represents.distinct i iInside j jInside same
  · intro i notRoot inside parent child atParent atChild
    have inside : i < t.curSize := inside
    rw [kept _ (by omega)] at atParent
    rw [kept i inside] at atChild
    exact represents.order i notRoot inside parent child atParent atChild
  · intro empty
    have empty : t.curSize = 0 := empty
    exact if_neg (by omega)
  · rw [entries_resize]
    exact represents.entries

theorem WellFormed.popsFirst {t : TimeHeap} (wellFormed : t.WellFormed) : t.PopsFirst := by
  constructor
  · exact fun empty => if_pos empty
  · intro many
    rcases wellFormed.exists_root many with ⟨root, atRoot⟩
    refine ⟨root, ?_, ?_, ?_⟩
    · rw [top, if_neg many, atRoot]
    · rw [entries_popTimer many, atRoot]
    · intro timer member
      exact wellFormed.root_le atRoot member

/-- In every run the array is a heap of the timers added and not popped. -/
theorem represents_of_runs {capacity : Nat} (positive : 0 < capacity)
    {history : List (HeapCall × Moved)} {t : TimeHeap}
    (runs : Runs (Answers move) (new capacity) history t) :
    poppedTimers history ≤ addedTimers history ∧
      t.Represents (addedTimers history - poppedTimers history) ∧
        t.resize.Represents (addedTimers history - poppedTimers history) ∧ t.PopsFirst := by
  have accounts : t.Accounts (addedTimers history) (poppedTimers history) := by
    apply runs.invariant_history (Accounts.new positive)
    intro history state action answer successor accounts step
    rw [addedTimers, poppedTimers, movedTimers_concat, movedTimers_concat]
    exact accounts.move step
  have remaining := accounts.remaining
  have represents := accounts.wellFormed.represents accounts.cleared remaining.2
  exact ⟨remaining.1, represents, represents.resize, accounts.wellFormed.popsFirst⟩

/-- Timers 0 and 1 expire together, and timer 3 is made by `adjust_timer`. -/
def fourTimers : List (HeapCall × Moved) :=
  [(.create 8 true 5, {}), (.create 8 true 6, {}), (.add 1, { added := some 1 }),
    (.add 0, { added := some 0 }), (.create 2 true 7, {}), (.add 2, { added := some 2 }),
    (.adjust 1 0, { added := some 3 }), (.del 1, {}), (.pop, { popped := some 2 }),
    (.pop, { popped := some 0 })]

theorem represents_four_timers :
    ∃ t : TimeHeap, Runs (Answers move) (new 1) fourTimers t ∧
      poppedTimers fourTimers ≤ addedTimers fourTimers ∧
        t.Represents (addedTimers fourTimers - poppedTimers fourTimers) ∧
          t.resize.Represents (addedTimers fourTimers - poppedTimers fourTimers) ∧
            t.PopsFirst := by
  have run : ∃ t : TimeHeap, Runs (Answers move) (new 1) fourTimers t := by
    apply exists_runs (fourTimers.map Prod.fst)
    decide +kernel
  rcases run with ⟨t, runs⟩
  exact ⟨t, runs, represents_of_runs (by decide) runs⟩

end TimeHeap

end Mprpc.Net
