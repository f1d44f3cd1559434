import Mathlib.Data.Multiset.Filter
import Mprpc.Net.TimerOrder
import Mprpc.Transition.Observed

/-!
# What the timer heap is for

Seen from outside, `time_heap` is a set of deadlines: `del_timer` removes one,
`adjust_timer` postpones one, and `tick` takes out all that have passed and runs
their callbacks in order.  The heap itself retires timers where they are and
drops them when they reach the root; retired timers do not count.

Every run of the heap is a run of the set with the same callbacks.
-/

namespace Mprpc.Net

open Mprpc.ArrayHeap
open Mprpc.Transition

/-- An active timer: its deadline and the client data that its callback gets. -/
structure Deadline where
  timer : TimerId
  expire : Int
  userData : Fd
  deriving DecidableEq, Repr

/-- Calls of a `time_heap`.  `fresh` is the pointer to the timer that
`adjust_timer` makes. -/
inductive TimerCall
  | add (timer : TimerId) (expire : Int) (userData : Fd)
  | adjust (now : Int) (timer fresh : TimerId)
  | del (timer : TimerId)
  | tick (cur : Int)
  deriving DecidableEq, Repr

/-! ## The set of deadlines -/

/-- Active timers. -/
abbrev TimerSet := Multiset Deadline

namespace TimerSet

/-- Postpone a deadline. -/
def adjust (now : Int) (timer fresh : TimerId) (entry : Deadline) : Deadline :=
  if entry.timer = timer then { entry with timer := fresh, expire := now + 15 } else entry

/-- What each call does to the set, and which callbacks it runs. -/
inductive Step : TimerSet → TimerCall → List Deadline → TimerSet → Prop
  | add {set : TimerSet} (timer : TimerId) (expire : Int) (userData : Fd) :
      Step set (.add timer expire userData) [] (⟨timer, expire, userData⟩ ::ₘ set)
  | adjust {set : TimerSet} (now : Int) (timer fresh : TimerId) :
      Step set (.adjust now timer fresh) [] (set.map (adjust now timer fresh))
  | del {set : TimerSet} (timer : TimerId) :
      Step set (.del timer) [] (set.filter fun entry => entry.timer ≠ timer)
  | tick {set : TimerSet} {fired : List Deadline} (cur : Int)
      (due : (fired : Multiset Deadline) = set.filter fun entry => entry.expire ≤ cur)
      (ordered : fired.Pairwise fun first second => first.expire ≤ second.expire) :
      Step set (.tick cur) fired (set.filter fun entry => cur < entry.expire)

end TimerSet

namespace TimeHeap

/-! ## Calls of the heap -/

/-- The deadline of a timer. -/
def deadline (t : TimeHeap) (timer : TimerId) : Deadline :=
  ⟨timer, (t.timers timer).expire, (t.timers timer).userData⟩

/-- A callback that records the timer it was run for. -/
def record (t : TimeHeap) (timer : TimerId) (fired : List Deadline) : List Deadline :=
  fired ++ [t.deadline timer]

/-- One call, with the callbacks it runs.  `add_timer` gets a new timer with a
callback, `adjust_timer` and `del_timer` get one that is still in the heap. -/
def call (t : TimeHeap) : TimerCall → Option (List Deadline × TimeHeap)
  | .add timer expire userData =>
      if timer = t.allocated then
        some ([], (t.newTimer ⟨expire, true, userData, false⟩).addTimer timer)
      else none
  | .adjust now timer fresh =>
      if some timer ∈ t.entries ∧ fresh = t.allocated then some ([], t.adjustTimer now timer)
      else none
  | .del timer => if some timer ∈ t.entries then some ([], t.delTimer timer) else none
  | .tick cur =>
      let (t', fired) := t.tick record cur []
      some (fired, t')

/-! ## Active timers -/

/-- The deadline of an entry that is not retired. -/
def activeEntry (timers : TimerId → UtilTimer) (entry : Option TimerId) : Option Deadline :=
  entry.bind fun timer =>
    if (timers timer).cbFunc then some ⟨timer, (timers timer).expire, (timers timer).userData⟩
    else none

/-- The timers in the heap that are not retired. -/
def active (t : TimeHeap) : TimerSet :=
  t.entries.filterMap (activeEntry t.timers)

theorem mem_filterMap_activeEntry {timers : TimerId → UtilTimer}
    {entries : Multiset (Option TimerId)} {entry : Deadline} :
    entry ∈ entries.filterMap (activeEntry timers) ↔
      some entry.timer ∈ entries ∧ (timers entry.timer).cbFunc = true ∧
        entry.expire = (timers entry.timer).expire ∧
          entry.userData = (timers entry.timer).userData := by
  rw [Multiset.mem_filterMap]
  constructor
  · rintro ⟨found, member, isEntry⟩
    rcases Option.bind_eq_some_iff.mp isEntry with ⟨timer, rfl, value⟩
    split at value
    · rename_i isActive
      cases value
      exact ⟨member, isActive, rfl, rfl⟩
    · cases value
  · rintro ⟨member, isActive, expire, userData⟩
    refine ⟨_, member, ?_⟩
    unfold activeEntry
    rw [Option.bind_some, if_pos isActive, ← expire, ← userData]

theorem mem_active_iff {t : TimeHeap} {entry : Deadline} :
    entry ∈ t.active ↔
      some entry.timer ∈ t.entries ∧ (t.timers entry.timer).cbFunc = true ∧
        entry.expire = (t.timers entry.timer).expire ∧
          entry.userData = (t.timers entry.timer).userData :=
  mem_filterMap_activeEntry

/-- Only the timers of the entries matter. -/
theorem filterMap_congr {timers timers' : TimerId → UtilTimer}
    {entries : Multiset (Option TimerId)}
    (same : ∀ {timer}, some timer ∈ entries → timers' timer = timers timer) :
    entries.filterMap (activeEntry timers') = entries.filterMap (activeEntry timers) := by
  induction entries using Multiset.induction with
  | empty => rfl
  | cons entry entries inductionHypothesis =>
      have rest := inductionHypothesis fun member => same (Multiset.mem_cons_of_mem member)
      have first : activeEntry timers' entry = activeEntry timers entry := by
        cases entry with
        | none => rfl
        | some timer =>
            unfold activeEntry
            rw [Option.bind_some, Option.bind_some, same (Multiset.mem_cons_self _ _)]
      rw [Multiset.filterMap_cons, Multiset.filterMap_cons, first, rest]

/-- A timer in front that is active. -/
theorem filterMap_cons_active {timers : TimerId → UtilTimer} {timer : TimerId}
    {entries : Multiset (Option TimerId)} (isActive : (timers timer).cbFunc = true) :
    (some timer ::ₘ entries).filterMap (activeEntry timers) =
      ⟨timer, (timers timer).expire, (timers timer).userData⟩ ::ₘ
        entries.filterMap (activeEntry timers) := by
  apply Multiset.filterMap_cons_some
  unfold activeEntry
  rw [Option.bind_some, if_pos isActive]

/-- A timer in front that is retired. -/
theorem filterMap_cons_retired {timers : TimerId → UtilTimer} {timer : TimerId}
    {entries : Multiset (Option TimerId)} (retired : (timers timer).cbFunc = false) :
    (some timer ::ₘ entries).filterMap (activeEntry timers) =
      entries.filterMap (activeEntry timers) := by
  apply Multiset.filterMap_cons_none
  unfold activeEntry
  rw [Option.bind_some, retired, if_neg Bool.false_ne_true]

/-! ## Each call on the active timers -/

namespace WellFormed

variable {t : TimeHeap}

/-- A timer in the heap and the others. -/
theorem exists_others (wellFormed : t.WellFormed) {timer : TimerId}
    (member : some timer ∈ t.entries) :
    ∃ others, t.entries = some timer ::ₘ others ∧ some timer ∉ others ∧
      ∀ {other}, some other ∈ others → other < t.allocated := by
  rcases Multiset.exists_cons_of_mem member with ⟨others, split⟩
  have nodup := wellFormed.nodup
  rw [split] at nodup
  refine ⟨others, split, (Multiset.nodup_cons.mp nodup).1, ?_⟩
  intro other inside
  apply wellFormed.allocated
  rw [split]
  exact Multiset.mem_cons_of_mem inside

theorem active_add (wellFormed : t.WellFormed) (expire : Int) (userData : Fd) :
    ((t.newTimer ⟨expire, true, userData, false⟩).addTimer t.allocated).active =
      ⟨t.allocated, expire, userData⟩ ::ₘ t.active := by
  have atNew := t.newTimer_timers_self ⟨expire, true, userData, false⟩
  have kept : t.entries.filterMap
      (activeEntry (t.newTimer ⟨expire, true, userData, false⟩).timers) = t.active := by
    apply filterMap_congr
    intro timer member
    exact Function.update_of_ne (wellFormed.allocated member).ne _ _
  have isActive : ((t.newTimer ⟨expire, true, userData, false⟩).timers t.allocated).cbFunc = true :=
    congrArg UtilTimer.cbFunc atNew
  rw [← kept, active, entries_addTimer, addTimer_timers, filterMap_cons_active isActive, atNew]
  rfl

theorem active_delTimer (wellFormed : t.WellFormed) {timer : TimerId}
    (member : some timer ∈ t.entries) :
    (t.delTimer timer).active = t.active.filter fun entry => entry.timer ≠ timer := by
  rcases wellFormed.exists_others member with ⟨others, split, absent, -⟩
  have different : ∀ {other}, some other ∈ others → other ≠ timer := by
    rintro other inside rfl
    exact absent inside
  have sameOthers : others.filterMap (activeEntry (t.delTimer timer).timers) =
      others.filterMap (activeEntry t.timers) :=
    filterMap_congr fun inside => Function.update_of_ne (different inside) _ _
  have kept : (others.filterMap (activeEntry t.timers)).filter (fun entry => entry.timer ≠ timer) =
      others.filterMap (activeEntry t.timers) := by
    apply Multiset.filter_eq_self.mpr
    intro entry inside
    exact different (mem_filterMap_activeEntry.mp inside).1
  have retired : ((t.delTimer timer).timers timer).cbFunc = false := by
    simp [TimeHeap.delTimer, setTimer]
  unfold active
  change t.entries.filterMap (activeEntry (t.delTimer timer).timers) = _
  rw [split, filterMap_cons_retired retired, sameOthers]
  cases isActive : (t.timers timer).cbFunc with
  | true =>
      rw [filterMap_cons_active isActive,
        Multiset.filter_cons_of_neg (p := fun entry : Deadline => entry.timer ≠ timer) _
          (not_not_intro rfl), kept]
  | false => rw [filterMap_cons_retired isActive, kept]

theorem active_adjustTimer (wellFormed : t.WellFormed) (now : Int) {timer : TimerId}
    (member : some timer ∈ t.entries) :
    (t.adjustTimer now timer).active = t.active.map (TimerSet.adjust now timer t.allocated) := by
  rcases wellFormed.exists_others member with ⟨others, split, absent, older⟩
  have different : ∀ {other}, some other ∈ others → other ≠ timer := by
    rintro other inside rfl
    exact absent inside
  have fresh : timer ≠ t.allocated := (wellFormed.allocated member).ne
  have atFresh : (t.adjustTimer now timer).timers t.allocated =
      ⟨now + 3 * 5, (t.timers timer).cbFunc, (t.timers timer).userData, false⟩ := by
    rw [adjustTimer_timers, Function.update_self]
  have atTimer : ((t.adjustTimer now timer).timers timer).cbFunc = false := by
    rw [adjustTimer_timers, Function.update_of_ne fresh, Function.update_self]
  have sameOthers : others.filterMap (activeEntry (t.adjustTimer now timer).timers) =
      others.filterMap (activeEntry t.timers) := by
    apply filterMap_congr
    intro other inside
    rw [adjustTimer_timers, Function.update_of_ne (older inside).ne,
      Function.update_of_ne (different inside)]
  have kept : (others.filterMap (activeEntry t.timers)).map
      (TimerSet.adjust now timer t.allocated) = others.filterMap (activeEntry t.timers) := by
    conv_rhs => rw [← Multiset.map_id' (others.filterMap (activeEntry t.timers))]
    apply Multiset.map_congr rfl
    intro entry inside
    exact if_neg (different (mem_filterMap_activeEntry.mp inside).1)
  unfold active
  rw [entries_adjustTimer, split]
  cases isActive : (t.timers timer).cbFunc with
  | true =>
      have active : ((t.adjustTimer now timer).timers t.allocated).cbFunc = true := by
        rw [atFresh]
        exact isActive
      rw [filterMap_cons_active active, filterMap_cons_retired atTimer, sameOthers,
        filterMap_cons_active isActive, Multiset.map_cons, kept, atFresh]
      simp [TimerSet.adjust]
  | false =>
      have retired : ((t.adjustTimer now timer).timers t.allocated).cbFunc = false := by
        rw [atFresh]
        exact isActive
      rw [filterMap_cons_retired retired, filterMap_cons_retired atTimer, sameOthers,
        filterMap_cons_retired isActive, kept]

/-- The active timers that stay when the root is popped. -/
theorem active_popTimer (wellFormed : t.WellFormed) {root : TimerId} (many : t.curSize ≠ 0)
    (atRoot : t.array 0 = some root) :
    t.popTimer.active = t.popTimer.entries.filterMap (activeEntry t.timers) := by
  apply filterMap_congr
  intro timer member
  rw [popTimer_timers many atRoot]
  exact Function.update_of_ne ((wellFormed.mem_popTimer_iff many atRoot).mp member).2 _ _

theorem active_of_fire (wellFormed : t.WellFormed) {root : TimerId} (many : t.curSize ≠ 0)
    (atRoot : t.array 0 = some root) (isActive : (t.timers root).cbFunc = true) :
    t.active = t.deadline root ::ₘ t.popTimer.active := by
  rw [wellFormed.active_popTimer many atRoot]
  unfold active
  rw [entries_popTimer many, atRoot, filterMap_cons_active isActive]
  rfl

theorem active_of_drop (wellFormed : t.WellFormed) {root : TimerId} (many : t.curSize ≠ 0)
    (atRoot : t.array 0 = some root) (retired : (t.timers root).cbFunc = false) :
    t.active = t.popTimer.active := by
  rw [wellFormed.active_popTimer many atRoot]
  unfold active
  rw [entries_popTimer many, atRoot, filterMap_cons_retired retired]

/-- The root is no later than any active timer. -/
theorem root_le_active (wellFormed : t.WellFormed) {root : TimerId} (atRoot : t.array 0 = some root)
    {entry : Deadline} (member : entry ∈ t.active) : t.expire root ≤ entry.expire := by
  rcases mem_active_iff.mp member with ⟨inHeap, -, expire, -⟩
  rw [expire]
  exact wellFormed.root_le atRoot inHeap

end WellFormed

/-! ## Ticks -/

/-- What a tick has done: the deadlines that passed went off in order, and the
others are still there. -/
structure Ticked (cur : Int) (t t' : TimeHeap) (fired : List Deadline) : Prop where
  wellFormed : t'.WellFormed
  due : (fired : Multiset Deadline) = t.active.filter fun entry => entry.expire ≤ cur
  ordered : fired.Pairwise fun first second => first.expire ≤ second.expire
  rest : t'.active = t.active.filter fun entry => cur < entry.expire

namespace Ticked

variable {t t' : TimeHeap} {cur : Int} {fired : List Deadline}

/-- Nothing is due any more. -/
theorem stop (wellFormed : t.WellFormed) (later : ∀ entry ∈ t.active, cur < entry.expire) :
    Ticked cur t t [] where
  wellFormed := wellFormed
  due := (Multiset.filter_eq_nil.mpr fun entry member => Int.not_le.mpr (later entry member)).symm
  ordered := .nil
  rest := (Multiset.filter_eq_self.mpr later).symm

/-- The root goes off first. -/
theorem fire (wellFormed : t.WellFormed) {root : TimerId} (many : t.curSize ≠ 0)
    (atRoot : t.array 0 = some root) (isActive : (t.timers root).cbFunc = true)
    (expired : t.expire root ≤ cur) (ticked : Ticked cur t.popTimer t' fired) :
    Ticked cur t t' (t.deadline root :: fired) := by
  have split := wellFormed.active_of_fire many atRoot isActive
  have passed : (t.deadline root).expire ≤ cur := expired
  constructor
  · exact ticked.wellFormed
  · rw [split,
      Multiset.filter_cons_of_pos (p := fun entry : Deadline => entry.expire ≤ cur) _ passed,
      ← ticked.due]
    rfl
  · apply List.pairwise_cons.mpr
    constructor
    · intro entry member
      have isDue : entry ∈ (fired : Multiset Deadline) := member
      rw [ticked.due] at isDue
      apply wellFormed.root_le_active atRoot
      rw [split]
      exact Multiset.mem_cons_of_mem (Multiset.mem_of_mem_filter isDue)
    · exact ticked.ordered
  · rw [split, Multiset.filter_cons_of_neg (p := fun entry : Deadline => cur < entry.expire) _
      (Int.not_lt.mpr passed)]
    exact ticked.rest

/-- A retired root is dropped. -/
theorem drop (wellFormed : t.WellFormed) {root : TimerId} (many : t.curSize ≠ 0)
    (atRoot : t.array 0 = some root) (retired : (t.timers root).cbFunc = false)
    (ticked : Ticked cur t.popTimer t' fired) : Ticked cur t t' fired := by
  have split := wellFormed.active_of_drop many atRoot retired
  exact ⟨ticked.wellFormed, split ▸ ticked.due, ticked.ordered, split ▸ ticked.rest⟩

end Ticked

theorem active_of_empty {t : TimeHeap} (empty : t.curSize = 0) : t.active = 0 := by
  unfold active entries
  rw [empty]
  rfl

/-- The loop of `tick`, with rounds enough for all timers. -/
theorem ticked_tickLoop {t : TimeHeap} (wellFormed : t.WellFormed) (cur : Int) {fuel : Nat}
    (enough : t.curSize ≤ fuel) (before : List Deadline) :
    ∃ fired, (tickLoop record cur fuel t before).2 = before ++ fired ∧
      Ticked cur t (tickLoop record cur fuel t before).1 fired := by
  have stops : ∀ {t : TimeHeap} (before : List Deadline), t.WellFormed →
      (∀ entry ∈ t.active, cur < entry.expire) →
        ∃ fired, before = before ++ fired ∧ Ticked cur t t fired :=
    fun before wellFormed later => ⟨[], (List.append_nil before).symm, .stop wellFormed later⟩
  have nothing : ∀ {t : TimeHeap}, t.curSize = 0 → ∀ entry ∈ t.active, cur < entry.expire := by
    intro t empty entry member
    rw [active_of_empty empty] at member
    exact absurd member (Multiset.notMem_zero entry)
  induction fuel generalizing t before with
  | zero => exact stops before wellFormed (nothing (Nat.le_zero.mp enough))
  | succ fuel inductionHypothesis =>
      unfold tickLoop
      by_cases empty : t.curSize = 0
      · rw [if_pos empty]
        exact stops before wellFormed (nothing empty)
      · rw [if_neg empty]
        rcases wellFormed.exists_root empty with ⟨root, atRoot⟩
        rw [atRoot]
        dsimp only
        by_cases early : cur < (t.timers root).expire
        · rw [if_pos early]
          apply stops before wellFormed
          intro entry member
          exact Int.lt_of_lt_of_le early (wellFormed.root_le_active atRoot member)
        · rw [if_neg early]
          have fewer : t.popTimer.curSize ≤ fuel := by
            rw [popTimer_curSize]
            omega
          have rest := inductionHypothesis wellFormed.popTimer fewer
          cases isActive : (t.timers root).cbFunc with
          | true =>
              rcases rest (record t root before) with ⟨fired, recorded, ticked⟩
              refine ⟨t.deadline root :: fired, ?_, ?_⟩
              · rw [if_pos rfl, recorded, record, List.append_assoc]
                rfl
              · exact ticked.fire wellFormed empty atRoot isActive (Int.not_lt.mp early)
          | false =>
              rw [if_neg Bool.false_ne_true]
              rcases rest before with ⟨fired, recorded, ticked⟩
              exact ⟨fired, recorded, ticked.drop wellFormed empty atRoot isActive⟩

/-- A tick fires what is due. -/
theorem ticked_tick {t : TimeHeap} (wellFormed : t.WellFormed) (cur : Int) :
    Ticked cur t (t.tick record cur []).1 (t.tick record cur []).2 := by
  rcases ticked_tickLoop wellFormed cur (Nat.le_refl t.curSize) [] with ⟨fired, recorded, ticked⟩
  rw [List.nil_append] at recorded
  unfold tick
  rw [recorded]
  exact ticked

/-! ## The heap and the set -/

/-- Every call keeps the heap well formed and does to the active timers what it does
to the set. -/
theorem simulated_of_call {t t' : TimeHeap} (wellFormed : t.WellFormed) {timerCall : TimerCall}
    {fired : List Deadline} (answers : Answers call t timerCall fired t') :
    t'.WellFormed ∧ TimerSet.Step t.active timerCall fired t'.active := by
  unfold Answers at answers
  cases timerCall with
  | add timer expire userData =>
      simp only [call] at answers
      split at answers
      · rename_i fresh
        cases answers
        rw [fresh, wellFormed.active_add]
        exact ⟨wellFormed.addNew rfl, .add t.allocated expire userData⟩
      · cases answers
  | adjust now timer fresh =>
      simp only [call] at answers
      split at answers
      · rename_i known
        cases answers
        rw [wellFormed.active_adjustTimer now known.1, ← known.2]
        exact ⟨wellFormed.adjustTimer now timer, .adjust now timer fresh⟩
      · cases answers
  | del timer =>
      simp only [call] at answers
      split at answers
      · rename_i known
        cases answers
        rw [wellFormed.active_delTimer known]
        exact ⟨wellFormed.delTimer timer, .del timer⟩
      · cases answers
  | tick cur =>
      cases answers
      have ticked := ticked_tick wellFormed cur
      refine ⟨ticked.wellFormed, ?_⟩
      have left := ticked.rest
      unfold tick at left
      rw [left]
      exact .tick cur ticked.due ticked.ordered

/-- No timer is active twice. -/
theorem WellFormed.nodup_active {t : TimeHeap} (wellFormed : t.WellFormed) :
    (t.active.map Deadline.timer).Nodup := by
  unfold active
  rw [Multiset.map_filterMap]
  apply wellFormed.nodup.filterMap
  -- an entry is known by its timer
  have entry_eq : ∀ {entry : Option TimerId} {timer : TimerId},
      timer ∈ (activeEntry t.timers entry).map Deadline.timer → entry = some timer := by
    intro entry timer member
    rcases Option.map_eq_some_iff.mp member with ⟨found, isEntry, rfl⟩
    rcases Option.bind_eq_some_iff.mp isEntry with ⟨other, rfl, value⟩
    split at value
    · cases value
      rfl
    · cases value
  intro first second timer inFirst inSecond
  exact (entry_eq inFirst).trans (entry_eq inSecond).symm

/-- In every run the heap fires what the set fires. -/
theorem refines_timerSet {capacity : Nat} (positive : 0 < capacity)
    {history : List (TimerCall × List Deadline)} {t : TimeHeap}
    (runs : Runs (Answers call) (new capacity) history t) :
    Runs TimerSet.Step 0 history t.active ∧ (t.active.map Deadline.timer).Nodup ∧
      t.curSize ≤ t.capacity := by
  have wellFormed : t.WellFormed := by
    apply runs.invariant (WellFormed.new positive)
    intro state action answer successor wellFormed step
    exact (simulated_of_call wellFormed step).1
  refine ⟨?_, wellFormed.nodup_active, wellFormed.sized⟩
  rw [← active_of_empty (t := new capacity) rfl]
  apply runs.refines active (WellFormed.new positive)
  · intro state action answer successor wellFormed step
    exact (simulated_of_call wellFormed step).1
  · intro state action answer successor wellFormed step
    exact (simulated_of_call wellFormed step).2

/-- Timer 0 is superseded by timer 2 before its deadline. -/
def twoTimers : List (TimerCall × List Deadline) :=
  [(.add 0 15 7, []), (.add 1 5 8, []), (.adjust 6 0 2, []), (.tick 10, [⟨1, 5, 8⟩]),
    (.tick 16, []), (.tick 30, [⟨2, 21, 7⟩])]

theorem refines_timerSet_two_timers :
    ∃ t : TimeHeap, Runs (Answers call) (new 1) twoTimers t ∧
      Runs TimerSet.Step 0 twoTimers t.active ∧ (t.active.map Deadline.timer).Nodup ∧
        t.curSize ≤ t.capacity := by
  have run : ∃ t : TimeHeap, Runs (Answers call) (new 1) twoTimers t := by
    apply exists_runs (twoTimers.map Prod.fst)
    decide +kernel
  rcases run with ⟨t, runs⟩
  exact ⟨t, runs, refines_timerSet (by decide) runs⟩

end TimeHeap

end Mprpc.Net
