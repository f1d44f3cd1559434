import Mprpc.Data.HeapOrder
import Mprpc.Net.TimeHeap

/-!
# The representation of `time_heap`

Whatever is called in whatever order, the array fits its capacity, holds no null
pointer, no timer twice and no freed timer, and is in order of expiry.  Each
operation keeps this; `add_timer` needs a timer that is not in the heap yet.
-/

namespace Mprpc.Net.TimeHeap

open Mprpc.ArrayHeap

/-- The representation invariant. -/
structure WellFormed (t : TimeHeap) : Prop where
  capacity_pos : 0 < t.capacity
  sized : t.curSize ≤ t.capacity
  filled : Filled t.array t.curSize
  order : InOrder t.expire t.array t.curSize
  nodup : t.entries.Nodup
  allocated : ∀ {timer}, some timer ∈ t.entries → timer < t.allocated
  alive : ∀ {timer}, some timer ∈ t.entries → (t.timers timer).freed = false

namespace WellFormed

variable {t : TimeHeap}

theorem new {capacity : Nat} (positive : 0 < capacity) : (TimeHeap.new capacity).WellFormed where
  capacity_pos := positive
  sized := Nat.zero_le capacity
  filled _ inside := absurd inside (Nat.not_lt_zero _)
  order _ _ _ inside := absurd inside (Nat.not_lt_zero _)
  nodup := Multiset.nodup_zero
  allocated member := absurd member (Multiset.notMem_zero _)
  alive member := absurd member (Multiset.notMem_zero _)

/-- Changes of timers that leave the times of those in the heap alone. -/
theorem setTimers (wellFormed : t.WellFormed) {timers : TimerId → UtilTimer}
    (expire : ∀ {timer}, some timer ∈ t.entries → (timers timer).expire = t.expire timer)
    (alive : ∀ {timer}, some timer ∈ t.entries → (timers timer).freed = false) :
    { t with timers := timers }.WellFormed where
  capacity_pos := wellFormed.capacity_pos
  sized := wellFormed.sized
  filled := wellFormed.filled
  order := wellFormed.order.congr_expire fun _ member => expire member
  nodup := wellFormed.nodup
  allocated := wellFormed.allocated
  alive := alive

theorem setUser (wellFormed : t.WellFormed) (fd : Fd) (data : ClientData) :
    (t.setUser fd data).WellFormed :=
  ⟨wellFormed.capacity_pos, wellFormed.sized, wellFormed.filled, wellFormed.order,
    wellFormed.nodup, wellFormed.allocated, wellFormed.alive⟩

/-- A new timer is not in the heap yet. -/
theorem notMem_allocated (wellFormed : t.WellFormed) : some t.allocated ∉ t.entries :=
  fun member => (wellFormed.allocated member).ne rfl

theorem newTimer (wellFormed : t.WellFormed) (value : UtilTimer) :
    (t.newTimer value).WellFormed := by
  have kept : ∀ {timer}, some timer ∈ t.entries →
      Function.update t.timers t.allocated value timer = t.timers timer := by
    intro timer member
    exact Function.update_of_ne (wellFormed.allocated member).ne _ _
  have updated : (t.setTimer t.allocated value).WellFormed := by
    apply wellFormed.setTimers
    · intro timer member
      rw [kept member]
      rfl
    · intro timer member
      rw [kept member]
      exact wellFormed.alive member
  exact ⟨updated.capacity_pos, updated.sized, updated.filled, updated.order, updated.nodup,
    fun member => Nat.lt_succ_of_lt (updated.allocated member), updated.alive⟩

theorem delTimer (wellFormed : t.WellFormed) (timer : TimerId) : (t.delTimer timer).WellFormed := by
  apply wellFormed.setTimers
  · intro other _
    have same := congrArg UtilTimer.expire (t.delTimer_timers timer other)
    exact same
  · intro other member
    have same := congrArg UtilTimer.freed (t.delTimer_timers timer other)
    exact same.trans (wellFormed.alive member)

/-- `resize` makes room for one more entry. -/
theorem resize (wellFormed : t.WellFormed) : t.resize.WellFormed := by
  have kept : ∀ index < t.curSize, t.resize.array index = t.array index :=
    fun index inside => if_pos inside
  have sized := wellFormed.sized
  have positive := wellFormed.capacity_pos
  constructor
  · change 0 < 2 * t.capacity
    omega
  · change t.curSize ≤ 2 * t.capacity
    omega
  · exact wellFormed.filled.congr kept
  · exact wellFormed.order.congr kept
  · rw [entries_resize]
    exact wellFormed.nodup
  · intro timer member
    rw [entries_resize] at member
    exact wellFormed.allocated member
  · intro timer member
    rw [entries_resize] at member
    exact wellFormed.alive member

/-- `add_timer` with room for the entry. -/
theorem push (wellFormed : t.WellFormed) (room : t.curSize < t.capacity) {timer : TimerId}
    (bound : timer < t.allocated) (fresh : some timer ∉ t.entries)
    (alive : (t.timers timer).freed = false) :
    { t with
      array := percolateUp t.expire timer t.array t.curSize
      curSize := t.curSize + 1 }.WellFormed := by
  have pushed := inOrder_push wellFormed.filled wellFormed.order timer
  have grown : contents (percolateUp t.expire timer t.array t.curSize) (t.curSize + 1) =
      some timer ::ₘ t.entries := contents_push timer
  have member_cases : ∀ {other}, some other ∈ contents
      (percolateUp t.expire timer t.array t.curSize) (t.curSize + 1) →
        other = timer ∨ some other ∈ t.entries := by
    intro other member
    rw [grown, Multiset.mem_cons] at member
    exact member.imp_left Option.some.inj
  constructor
  · exact wellFormed.capacity_pos
  · exact room
  · exact pushed.1
  · exact pushed.2
  · unfold entries
    rw [grown]
    exact Multiset.nodup_cons.mpr ⟨fresh, wellFormed.nodup⟩
  · intro other member
    rcases member_cases member with rfl | old
    · exact bound
    · exact wellFormed.allocated old
  · intro other member
    rcases member_cases member with rfl | old
    · exact alive
    · exact wellFormed.alive old

theorem addTimer (wellFormed : t.WellFormed) {timer : TimerId} (bound : timer < t.allocated)
    (fresh : some timer ∉ t.entries) (alive : (t.timers timer).freed = false) :
    (t.addTimer timer).WellFormed := by
  have sized := wellFormed.sized
  have positive := wellFormed.capacity_pos
  unfold TimeHeap.addTimer
  by_cases full : t.capacity ≤ t.curSize
  · rw [if_pos full]
    apply wellFormed.resize.push
    · change t.curSize < 2 * t.capacity
      omega
    · exact bound
    · rw [entries_resize]
      exact fresh
    · exact alive
  · rw [if_neg full]
    exact wellFormed.push (Nat.not_le.mp full) bound fresh alive

theorem addNew (wellFormed : t.WellFormed) {value : UtilTimer} (alive : value.freed = false) :
    ((t.newTimer value).addTimer t.allocated).WellFormed := by
  apply (wellFormed.newTimer value).addTimer (Nat.lt_succ_self _) wellFormed.notMem_allocated
  rw [newTimer_timers_self]
  exact alive

/-- A new timer that is stored in `users_timer` before it is added. -/
theorem addStored (wellFormed : t.WellFormed) {value : UtilTimer} (alive : value.freed = false)
    (fd : Fd) (data : ClientData) :
    (((t.newTimer value).setUser fd data).addTimer t.allocated).WellFormed := by
  apply ((wellFormed.newTimer value).setUser fd data).addTimer (Nat.lt_succ_self t.allocated)
    wellFormed.notMem_allocated
  change ((t.newTimer value).timers t.allocated).freed = false
  rw [newTimer_timers_self]
  exact alive

theorem adjustTimer (wellFormed : t.WellFormed) (now : Int) (timer : TimerId) :
    (t.adjustTimer now timer).WellFormed :=
  (wellFormed.delTimer timer).addStored rfl _ _

theorem acceptTimer (wellFormed : t.WellFormed) (now : Int) (connfd : Fd) :
    (t.acceptTimer now connfd).WellFormed :=
  (wellFormed.setUser connfd _).addStored rfl _ _

/-- The root of a heap that is not empty. -/
theorem exists_root (wellFormed : t.WellFormed) (many : t.curSize ≠ 0) :
    ∃ root, t.array 0 = some root :=
  Option.ne_none_iff_exists'.mp (wellFormed.filled 0 (Nat.pos_of_ne_zero many))

/-- The root expires first. -/
theorem root_le (wellFormed : t.WellFormed) {root timer : TimerId} (atRoot : t.array 0 = some root)
    (member : some timer ∈ t.entries) : t.expire root ≤ t.expire timer := by
  rcases mem_contents_iff.mp member with ⟨index, inside, found⟩
  have least := wellFormed.order.root_le inside
  rw [atRoot, found] at least
  exact least

/-- The root leaves the heap, and the rest stays. -/
theorem mem_popTimer_iff (wellFormed : t.WellFormed) {root timer : TimerId}
    (many : t.curSize ≠ 0) (atRoot : t.array 0 = some root) :
    some timer ∈ t.popTimer.entries ↔ some timer ∈ t.entries ∧ timer ≠ root := by
  have nodup := wellFormed.nodup
  rw [entries_popTimer many, atRoot] at nodup ⊢
  rw [Multiset.mem_cons]
  constructor
  · intro member
    refine ⟨.inr member, ?_⟩
    rintro rfl
    exact (Multiset.nodup_cons.mp nodup).1 member
  · rintro ⟨same | member, different⟩
    · exact absurd (Option.some.inj same) different
    · exact member

theorem popTimer (wellFormed : t.WellFormed) : t.popTimer.WellFormed := by
  by_cases empty : t.curSize = 0
  · unfold TimeHeap.popTimer
    rw [if_pos empty]
    exact wellFormed
  · rcases wellFormed.exists_root empty with ⟨root, atRoot⟩
    have kept : ∀ {timer}, some timer ∈ t.popTimer.entries →
        t.popTimer.timers timer = t.timers timer := by
      intro timer member
      rw [popTimer_timers empty atRoot]
      exact Function.update_of_ne ((wellFormed.mem_popTimer_iff empty atRoot).mp member).2 _ _
    obtain ⟨size, sized⟩ := Nat.exists_eq_succ_of_ne_zero empty
    have popped : Filled t.popTimer.array t.popTimer.curSize ∧
        InOrder t.expire t.popTimer.array t.popTimer.curSize := by
      have filled := wellFormed.filled
      have order := wellFormed.order
      rw [sized] at filled order
      rw [popTimer_array empty, popTimer_curSize, sized, Nat.succ_sub_one]
      exact inOrder_popRoot filled order
    have nodup := wellFormed.nodup
    rw [entries_popTimer empty] at nodup
    have bound := wellFormed.sized
    constructor
    · rw [popTimer_capacity]
      exact wellFormed.capacity_pos
    · rw [popTimer_curSize, popTimer_capacity]
      omega
    · exact popped.1
    · apply popped.2.congr_expire
      intro timer member
      exact congrArg UtilTimer.expire (kept member)
    · exact (Multiset.nodup_cons.mp nodup).2
    · intro timer member
      rw [popTimer_allocated]
      exact wellFormed.allocated ((wellFormed.mem_popTimer_iff empty atRoot).mp member).1
    · intro timer member
      rw [kept member]
      exact wellFormed.alive ((wellFormed.mem_popTimer_iff empty atRoot).mp member).1

end WellFormed

end Mprpc.Net.TimeHeap
