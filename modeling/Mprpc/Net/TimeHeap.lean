import Mprpc.Data.ArrayHeap
import Mprpc.Net.Socket

/-!
# Connection timers: `time_heap`

Timers are heap objects that the array of the `time_heap` and the table
`users_timer` point to.  A pointer is the number of the object in the order of
allocation, so a freed object is never mistaken for a new one; `delete` only
marks the object.

Timers leave the heap at its root alone: `del_timer` and `adjust_timer` clear
the callback of the timer they retire, and `tick` drops it when it gets there.
-/

namespace Mprpc.Net

open Mprpc.ArrayHeap

universe u

/-- A pointer to a `util_timer`. -/
abbrev TimerId := Nat

/-- `class util_timer`.  `cbFunc` says whether the callback is set (there is one
callback function, `cb_func`), and `userData` is an index of `users_timer`. -/
structure UtilTimer where
  expire : Int
  cbFunc : Bool
  userData : Fd
  freed : Bool := false
  deriving DecidableEq, Repr

/-- `struct client_data`. -/
structure ClientData where
  sockfd : Fd := 0
  timer : Option TimerId := none
  deriving DecidableEq, Repr

/-- `TIMESLOT`. -/
def timeslot : Int := 5

/-- `MAX_FD`, the number of elements of `users_timer`. -/
def maxFd : Nat := 65536

/-- `class time_heap`, with the timers it points to and the array `users_timer`.
`behind` is the memory after the array, by the index that leads there. -/
structure TimeHeap where
  array : Nat → Option TimerId
  capacity : Nat
  curSize : Nat
  timers : TimerId → UtilTimer
  allocated : Nat
  usersTimer : Fin maxFd → ClientData
  behind : Fd → ClientData

namespace TimeHeap

/-- `time_heap(capacity)` before any timer is made. -/
def new (capacity : Nat) : TimeHeap where
  array := fun _ => none
  capacity := capacity
  curSize := 0
  timers := fun _ => ⟨0, false, 0, false⟩
  allocated := 0
  usersTimer := fun _ => {}
  behind := fun _ => {}

def expire (t : TimeHeap) (timer : TimerId) : Int :=
  (t.timers timer).expire

def setTimer (t : TimeHeap) (timer : TimerId) (value : UtilTimer) : TimeHeap :=
  { t with timers := Function.update t.timers timer value }

/-- `users_timer[fd]`.  The source checks no index, so a descriptor that is not below
`MAX_FD` leads behind the array.  C++ does not define what happens then; here the memory
is there and belongs to nothing else. -/
def user (t : TimeHeap) (fd : Fd) : ClientData :=
  if inside : fd < maxFd then t.usersTimer ⟨fd, inside⟩ else t.behind fd

/-- An assignment to `users_timer[fd]`. -/
def setUser (t : TimeHeap) (fd : Fd) (data : ClientData) : TimeHeap :=
  { t with
    usersTimer := fun index => if index.val = fd then data else t.usersTimer index
    behind := if fd < maxFd then t.behind else Function.update t.behind fd data }

/-- `new util_timer`, with its fields assigned.  The pointer is `t.allocated`. -/
def newTimer (t : TimeHeap) (value : UtilTimer) : TimeHeap :=
  { t.setTimer t.allocated value with allocated := t.allocated + 1 }

/-- `resize`. -/
def resize (t : TimeHeap) : TimeHeap :=
  { t with
    array := fun i => if i < t.curSize then t.array i else none
    capacity := 2 * t.capacity }

/-- `add_timer`. -/
def addTimer (t : TimeHeap) (timer : TimerId) : TimeHeap :=
  let t := if t.capacity ≤ t.curSize then t.resize else t
  { t with
    array := percolateUp t.expire timer t.array t.curSize
    curSize := t.curSize + 1 }

/-- `del_timer`: the callback is cleared, and the timer stays in the heap. -/
def delTimer (t : TimeHeap) (timer : TimerId) : TimeHeap :=
  t.setTimer timer { t.timers timer with cbFunc := false }

/-- `adjust_timer` when `time(NULL)` is `now`: the timer is retired and a new one
with its callback and user data is added. -/
def adjustTimer (t : TimeHeap) (now : Int) (timer : TimerId) : TimeHeap :=
  let cbFunc := (t.timers timer).cbFunc
  let userData := (t.timers timer).userData
  let t := t.delTimer timer
  let newTimer := t.allocated
  let t := t.newTimer { expire := now + 3 * 5, cbFunc := cbFunc, userData := userData }
  let t := t.setUser userData { t.user userData with timer := some newTimer }
  t.addTimer newTimer

/-- `top`. -/
def top (t : TimeHeap) : Option TimerId :=
  if t.curSize = 0 then none else t.array 0

/-- `delete` on a pointer of the array. -/
def delete (t : TimeHeap) : Option TimerId → TimeHeap
  | none => t
  | some timer => t.setTimer timer { t.timers timer with freed := true }

/-- `pop_timer`. -/
def popTimer (t : TimeHeap) : TimeHeap :=
  if t.curSize = 0 then t
  else
    let t := t.delete (t.array 0)
    { t with
      array := popRoot t.expire t.curSize t.array
      curSize := t.curSize - 1 }

/-- The loop of `tick` at time `cur`, for at most `fuel` timers.  The callback
gets the heap and the timer, whose user data it reads. -/
def tickLoop {σ : Type u} (callback : TimeHeap → TimerId → σ → σ) (cur : Int) :
    Nat → TimeHeap → σ → TimeHeap × σ
  | 0, t, s => (t, s)
  | fuel + 1, t, s =>
      if t.curSize = 0 then (t, s)
      else
        match t.array 0 with
        | none => (t, s)
        | some tmp =>
            if cur < (t.timers tmp).expire then (t, s)
            else
              let s := if (t.timers tmp).cbFunc then callback t tmp s else s
              tickLoop callback cur fuel t.popTimer s

/-- `tick`.  Every round pops a timer, so there are at most `cur_size` rounds. -/
def tick {σ : Type u} (callback : TimeHeap → TimerId → σ → σ) (cur : Int) (t : TimeHeap) (s : σ) :
    TimeHeap × σ :=
  tickLoop callback cur t.curSize t s

/-- The timer of a new connection, as the accept branch of the server makes it
when `time(NULL)` is `now`. -/
def acceptTimer (t : TimeHeap) (now : Int) (connfd : Fd) : TimeHeap :=
  let t := t.setUser connfd { t.user connfd with sockfd := connfd }
  let timer := t.allocated
  let t := t.newTimer { expire := now + 3 * timeslot, cbFunc := true, userData := connfd }
  let t := t.setUser connfd { t.user connfd with timer := some timer }
  t.addTimer timer

/-! ## The timers in the heap -/

/-- Inside of the array and behind it, an assignment changes what it is made to. -/
@[simp]
theorem setUser_user (t : TimeHeap) (fd : Fd) (data : ClientData) :
    (t.setUser fd data).user = Function.update t.user fd data := by
  funext other
  by_cases same : other = fd
  · subst same
    by_cases inside : other < maxFd
    · simp [setUser, user, inside]
    · simp [setUser, user, inside]
  · by_cases inside : other < maxFd
    · simp [setUser, user, inside, same]
    · by_cases assigned : fd < maxFd
      · simp [setUser, user, inside, same, assigned]
      · simp [setUser, user, inside, same, assigned]

@[simp]
theorem newTimer_timers_self (t : TimeHeap) (value : UtilTimer) :
    (t.newTimer value).timers t.allocated = value :=
  Function.update_self ..

@[simp]
theorem newTimer_user (t : TimeHeap) (value : UtilTimer) : (t.newTimer value).user = t.user :=
  rfl

/-- The entries of the array that are in use. -/
def entries (t : TimeHeap) : Multiset (Option TimerId) :=
  contents t.array t.curSize

theorem entries_resize (t : TimeHeap) : t.resize.entries = t.entries := by
  unfold entries contents
  apply Multiset.map_congr rfl
  intro index member
  exact if_pos (Multiset.mem_range.mp member)

/-- `add_timer` adds one timer and leaves all else alone. -/
theorem entries_addTimer (t : TimeHeap) (timer : TimerId) :
    (t.addTimer timer).entries = some timer ::ₘ t.entries := by
  unfold addTimer
  by_cases full : t.capacity ≤ t.curSize
  · rw [if_pos full, ← entries_resize t]
    exact contents_push timer
  · rw [if_neg full]
    exact contents_push timer

@[simp]
theorem addTimer_timers (t : TimeHeap) (timer : TimerId) :
    (t.addTimer timer).timers = t.timers := by
  unfold addTimer
  split
  · rfl
  · rfl

@[simp]
theorem addTimer_allocated (t : TimeHeap) (timer : TimerId) :
    (t.addTimer timer).allocated = t.allocated := by
  unfold addTimer
  split
  · rfl
  · rfl

@[simp]
theorem addTimer_user (t : TimeHeap) (timer : TimerId) : (t.addTimer timer).user = t.user := by
  unfold addTimer
  split
  · rfl
  · rfl

@[simp]
theorem addTimer_curSize (t : TimeHeap) (timer : TimerId) :
    (t.addTimer timer).curSize = t.curSize + 1 := by
  unfold addTimer
  split
  · rfl
  · rfl

/-- `del_timer` changes nothing of a timer but its callback. -/
theorem delTimer_timers (t : TimeHeap) (timer other : TimerId) :
    (t.delTimer timer).timers other =
      { t.timers other with cbFunc := (t.timers other).cbFunc && other ≠ timer } := by
  unfold delTimer setTimer
  by_cases same : other = timer
  · subst same
    simp
  · simp [same]

/-- The retired timer stays in the heap beside the new one. -/
theorem entries_adjustTimer (t : TimeHeap) (now : Int) (timer : TimerId) :
    (t.adjustTimer now timer).entries = some t.allocated ::ₘ t.entries := by
  unfold adjustTimer
  dsimp only
  rw [entries_addTimer]
  rfl

@[simp]
theorem adjustTimer_allocated (t : TimeHeap) (now : Int) (timer : TimerId) :
    (t.adjustTimer now timer).allocated = t.allocated + 1 := by
  unfold adjustTimer
  rw [addTimer_allocated]
  rfl

theorem adjustTimer_timers (t : TimeHeap) (now : Int) (timer : TimerId) :
    (t.adjustTimer now timer).timers =
      Function.update
        (Function.update t.timers timer { t.timers timer with cbFunc := false }) t.allocated
        { expire := now + 3 * 5
          cbFunc := (t.timers timer).cbFunc
          userData := (t.timers timer).userData } := by
  unfold adjustTimer
  rw [addTimer_timers]
  rfl

theorem adjustTimer_user (t : TimeHeap) (now : Int) (timer : TimerId) :
    (t.adjustTimer now timer).user =
      Function.update t.user (t.timers timer).userData
        { t.user (t.timers timer).userData with timer := some t.allocated } := by
  unfold adjustTimer
  rw [addTimer_user, setUser_user]
  rfl

@[simp]
theorem delete_array (t : TimeHeap) (entry : Option TimerId) :
    (t.delete entry).array = t.array := by
  cases entry with
  | none => rfl
  | some timer => rfl

@[simp]
theorem delete_curSize (t : TimeHeap) (entry : Option TimerId) :
    (t.delete entry).curSize = t.curSize := by
  cases entry with
  | none => rfl
  | some timer => rfl

@[simp]
theorem delete_expire (t : TimeHeap) (entry : Option TimerId) :
    (t.delete entry).expire = t.expire := by
  cases entry with
  | none => rfl
  | some timer =>
      funext other
      by_cases same : other = timer
      · simp [delete, expire, setTimer, same]
      · simp [delete, expire, setTimer, same]

/-- `pop_timer` takes out the root. -/
theorem entries_popTimer {t : TimeHeap} (many : t.curSize ≠ 0) :
    t.entries = t.array 0 ::ₘ t.popTimer.entries := by
  obtain ⟨size, sized⟩ := Nat.exists_eq_succ_of_ne_zero many
  unfold popTimer entries
  rw [if_neg many]
  dsimp only
  rw [delete_array, delete_curSize, sized]
  exact contents_popRoot t.array size

theorem root_mem_entries {t : TimeHeap} {root : TimerId} (many : t.curSize ≠ 0)
    (atRoot : t.array 0 = some root) : some root ∈ t.entries := by
  rw [entries_popTimer many, atRoot]
  exact Multiset.mem_cons_self _ _

theorem popTimer_timers {t : TimeHeap} {root : TimerId} (many : t.curSize ≠ 0)
    (atRoot : t.array 0 = some root) :
    t.popTimer.timers = Function.update t.timers root { t.timers root with freed := true } := by
  unfold popTimer
  rw [if_neg many, atRoot]
  rfl

/-- What `pop_timer` does to the array. -/
theorem popTimer_array {t : TimeHeap} (many : t.curSize ≠ 0) :
    t.popTimer.array = popRoot t.expire t.curSize t.array := by
  unfold popTimer
  rw [if_neg many]
  dsimp only
  rw [delete_expire, delete_curSize, delete_array]

/-- `pop_timer` changes the array, its size and the timers only. -/
theorem popTimer_eq (t : TimeHeap) :
    t.popTimer =
      { t with
        array := t.popTimer.array
        curSize := t.curSize - 1
        timers := t.popTimer.timers } := by
  unfold popTimer
  by_cases empty : t.curSize = 0
  · rw [if_pos empty, Nat.sub_eq_zero_of_le (empty ▸ Nat.zero_le 1), ← empty]
  · rw [if_neg empty]
    cases t.array 0 with
    | none => rfl
    | some root => rfl

theorem popTimer_capacity (t : TimeHeap) : t.popTimer.capacity = t.capacity := by
  rw [popTimer_eq]

theorem popTimer_allocated (t : TimeHeap) : t.popTimer.allocated = t.allocated := by
  rw [popTimer_eq]

theorem popTimer_curSize (t : TimeHeap) : t.popTimer.curSize = t.curSize - 1 := by
  rw [popTimer_eq]

theorem popTimer_user (t : TimeHeap) : t.popTimer.user = t.user := by
  rw [popTimer_eq]
  rfl

/-- Popping the last timer clears the root. -/
theorem popTimer_cleared {t : TimeHeap} (last : t.curSize = 1) : t.popTimer.array 0 = none := by
  rw [popTimer_array (last ▸ Nat.one_ne_zero), last]
  exact popRoot_one t.array

/-- The rule for `tick`: what holds before and is kept when an expired timer is
popped, after its callback if it has one, holds afterwards. -/
theorem tick_invariant {σ : Type u} {callback : TimeHeap → TimerId → σ → σ} {cur : Int}
    (holds : TimeHeap → σ → Prop)
    (fires : ∀ t s root, holds t s → t.curSize ≠ 0 → t.array 0 = some root →
      t.expire root ≤ cur → (t.timers root).cbFunc = true →
        holds t.popTimer (callback t root s))
    (drops : ∀ t s root, holds t s → t.curSize ≠ 0 → t.array 0 = some root →
      (t.timers root).cbFunc = false → holds t.popTimer s)
    {t : TimeHeap} {s : σ} (initial : holds t s) :
    holds (tick callback cur t s).1 (tick callback cur t s).2 := by
  unfold tick
  generalize t.curSize = fuel
  induction fuel generalizing t s with
  | zero => exact initial
  | succ fuel inductionHypothesis =>
      unfold tickLoop
      by_cases empty : t.curSize = 0
      · rw [if_pos empty]
        exact initial
      · rw [if_neg empty]
        cases atRoot : t.array 0 with
        | none => exact initial
        | some root =>
            dsimp only
            by_cases early : cur < (t.timers root).expire
            · rw [if_pos early]
              exact initial
            · rw [if_neg early]
              apply inductionHypothesis
              cases active : (t.timers root).cbFunc with
              | false => exact drops t s root initial empty atRoot active
              | true => exact fires t s root initial empty atRoot (Int.not_lt.mp early) active

end TimeHeap

end Mprpc.Net
