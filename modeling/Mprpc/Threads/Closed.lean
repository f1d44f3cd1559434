import Mprpc.Threads.Fifo

/-!
# A queue that has been closed

Once `close` has returned nobody waits, and whoever calls `pop` gets `false`, as
long as the queue stays empty.  Nothing but `push` could fill it, and `push` is
the one function that never looks at `m_is_close`: an item that is pushed too
late is queued, and the next untimed `pop` returns it.
-/

namespace Mprpc.Threads

open Mprpc.Transition

universe u

namespace QueueCall

variable {α : Type u}

def isPush (call : QueueCall α) : Bool :=
  match call.op with
  | .push _ => true
  | _ => false

/-- How far a `close` has got: `some false` once `m_is_close` is set, `some true`
when it has returned. -/
def closeStage (call : QueueCall α) : Option Bool :=
  match call.op, call.pc with
  | .close, .closing => some false
  | .close, .returned _ => some true
  | _, _ => none

theorem closeStage_of_op {call : QueueCall α} (other : call.op ≠ .close) :
    call.closeStage = none := by
  rcases call with ⟨op, pc⟩
  cases op with
  | close => exact absurd rfl other
  | _ => rfl

theorem closeStage_entering (op : QueueOp α) :
    ({ op := op } : QueueCall α).closeStage = none := by
  cases op <;> rfl

theorem closeStage_of_isAsleep {call : QueueCall α} (sleeps : call.isAsleep = true) :
    call.closeStage = none := by
  rcases call with ⟨op, pc⟩
  cases QueueCall.isAsleep_iff.mp sleeps
  cases op <;> rfl

/-- A call that is woken gets no further by it. -/
theorem closeStage_wake (call : QueueCall α) (sleeps : waiting.asleep call = true) :
    (waiting.wake call).closeStage = call.closeStage := by
  rw [closeStage_of_isAsleep sleeps]
  rcases call with ⟨op, pc⟩
  cases op <;> rfl

end QueueCall

/-- The call that takes the lock for the first time. -/
def QueueAction.entrant {α : Type u} : QueueAction α → Option Nat
  | .enter i _ => some i
  | _ => none

namespace QueueState

variable {α : Type u} {s t : QueueState α}

/-- How far the calls of `close` have got. -/
def stages (s : QueueState α) : List (Option Bool) :=
  s.calls.map QueueCall.closeStage

/-- Some `close` has returned. -/
def CloseReturned (s : QueueState α) : Prop :=
  some true ∈ s.stages

instance (s : QueueState α) : Decidable s.CloseReturned :=
  inferInstanceAs (Decidable (some true ∈ s.stages))

/-- No `push` takes the lock once `m_is_close` is set. -/
def NoLatePush (s : QueueState α) (action : QueueAction α) : Prop :=
  s.bq.isClose = true → ∀ i ∈ action.entrant, ∀ call ∈ s.calls[i]?, call.isPush = false

instance (s : QueueState α) (action : QueueAction α) : Decidable (s.NoLatePush action) :=
  inferInstanceAs (Decidable (_ → ∀ i ∈ action.entrant, ∀ call ∈ s.calls[i]?, _))

theorem NoLatePush.isClose_eq_false {i : Nat} {call : QueueCall α} {item : α}
    {woken : Option Nat} (allowed : s.NoLatePush (.enter i woken))
    (enters : s.Entering i call (.push item)) : s.bq.isClose = false := by
  by_contra closed
  have isPush := allowed (Bool.eq_true_of_not_eq_false closed) i rfl call enters.found
  rw [QueueCall.isPush, enters.isOp] at isPush
  cases isPush

/-! ## What a closed queue is like -/

theorem stages_set {i : Nat} {call : QueueCall α} (found : s.calls[i]? = some call)
    (other : call.op ≠ .close) (pc : QueuePc α) :
    (s.calls.set i { call with pc := pc }).map QueueCall.closeStage = s.stages := by
  refine map_set_of_eq found ?_
  rw [QueueCall.closeStage_of_op other]
  exact QueueCall.closeStage_of_op other

theorem Popping.op_ne_close {i : Nat} {call : QueueCall α} (pops : s.Popping i call) :
    call.op ≠ .close := by
  rcases pops.isPop with isPop | isTimed
  · rw [isPop]
    exact nofun
  · rw [isTimed]
    exact nofun

theorem Popping.not_waiting {i : Nat} {call : QueueCall α} (pops : s.Popping i call) :
    call.pc ≠ .asleep ∧ call.pc ≠ .closing := by
  rcases pops.awake with entering | woken | roused
  · rw [entering]
    exact ⟨nofun, nofun⟩
  · rw [woken]
    exact ⟨nofun, nofun⟩
  · rw [roused]
    exact ⟨nofun, nofun⟩

theorem Entering.op_ne_close {i : Nat} {call : QueueCall α} {op : QueueOp α}
    (enters : s.Entering i call op) (other : op ≠ .close) : call.op ≠ .close := by
  rw [enters.isOp]
  exact other

theorem asleep_wakeAll (calls : List (QueueCall α)) :
    (QueueCall.waiting.notifyAll calls).countP QueueCall.isAsleep = 0 :=
  Waiting.asleep_notifyAll QueueCall.waiting calls

/-- A `close` gets further by setting the flag or by waking all sleepers. -/
theorem stages_of_stepped {action : QueueAction α} (stepped : Stepped s action t) :
    (∀ stage, some stage ∈ t.stages → some stage ∈ s.stages) ∨
      (t.bq.isClose = true ∧ (some true ∈ t.stages → some true ∈ s.stages)) ∨
      (t.asleep = 0 ∧ ∀ stage, some stage ∈ t.stages → ∃ earlier, some earlier ∈ s.stages) := by
  have unchanged : t.stages = s.stages →
      ∀ stage, some stage ∈ t.stages → some stage ∈ s.stages := by
    intro same stage member
    rwa [same] at member
  cases stepped with
  | called op =>
      left
      intro stage member
      rw [stages, List.map_append] at member
      rcases List.mem_append.mp member with before | new
      · exact before
      · rw [List.map_singleton, QueueCall.closeStage_entering] at new
        cases List.mem_singleton.mp new
  | pushed enters room wakes =>
      refine .inl (unchanged ?_)
      exact (Waiting.map_notifyOne QueueCall.closeStage_wake wakes).trans
        (stages_set enters.found (enters.op_ne_close nofun) _)
  | refused enters full =>
      refine .inl (unchanged ?_)
      exact (Waiting.map_notifyAll QueueCall.closeStage_wake _).trans
        (stages_set enters.found (enters.op_ne_close nofun) _)
  | delivered pops popped =>
      exact .inl (unchanged (stages_set pops.found pops.op_ne_close _))
  | slept pops drained isOpen =>
      exact .inl (unchanged (stages_set pops.found pops.op_ne_close _))
  | failed pops nothing =>
      exact .inl (unchanged (stages_set pops.found pops.op_ne_close _))
  | @wokeSpuriously i call found asleep =>
      refine .inl (unchanged (map_set_of_eq found ?_))
      rw [QueueCall.closeStage_of_isAsleep (QueueCall.isAsleep_iff.mpr asleep)]
      rcases call with ⟨op, pc⟩
      cases op <;> rfl
  | timedOut found isTimed waits =>
      refine .inl (unchanged (stages_set found ?_ _))
      rw [isTimed]
      exact nofun
  | lapsed found isTimed woken =>
      refine .inl (unchanged (stages_set found ?_ _))
      rw [isTimed]
      exact nofun
  | cleared enters =>
      refine .inl (unchanged (stages_set enters.found ?_ _))
      exact enters.op_ne_close nofun
  | looked enters looks =>
      refine .inl (unchanged (stages_set enters.found (enters.op_ne_close ?_) _))
      rintro rfl
      simp at looks
  | @closed i call woken enters =>
      refine .inr (.inl ⟨rfl, fun member => ?_⟩)
      rcases call with ⟨op, pc⟩
      cases enters.isOp
      rcases List.mem_map.mp member with ⟨other, inside, stage⟩
      rcases List.mem_or_eq_of_mem_set inside with before | rfl
      · exact List.mem_map.mpr ⟨other, before, stage⟩
      · cases stage
  | @notifiedAll i call found closing =>
      refine .inr (.inr ⟨asleep_wakeAll _, fun stage member => ?_⟩)
      rw [stages, Waiting.map_notifyAll QueueCall.closeStage_wake] at member
      rcases List.mem_map.mp member with ⟨other, inside, reached⟩
      rcases List.mem_or_eq_of_mem_set inside with before | rfl
      · exact ⟨stage, List.mem_map.mpr ⟨other, before, reached⟩⟩
      · refine ⟨false, List.mem_map.mpr ⟨call, List.mem_of_getElem? found, ?_⟩⟩
        rcases call with ⟨op, pc⟩
        cases closing
        cases op with
        | close => rfl
        | _ => cases reached

/-- The flag is never taken back. -/
theorem isClose_of_stepped {action : QueueAction α} (stepped : Stepped s action t)
    (closed : s.bq.isClose = true) : t.bq.isClose = true := by
  cases stepped with
  | pushed enters room wakes => exact (BlockQueue.push_eq_some_iff.mp room).2.2.2.trans closed
  | delivered pops popped => exact (BlockQueue.pop_eq_some popped).2.2.trans closed
  | closed enters => rfl
  | _ => exact closed

/-- Nobody falls asleep on a closed queue. -/
theorem asleep_of_stepped {action : QueueAction α} (stepped : Stepped s action t)
    (allowed : s.NoLatePush action) (closed : s.bq.isClose = true) (nobody : s.asleep = 0) :
    t.asleep = 0 := by
  have moved : ∀ {i : Nat} {call new : QueueCall α}, s.calls[i]? = some call →
      new.isAsleep = false → (s.calls.set i new).countP QueueCall.isAsleep = 0 := by
    intro i call new found awake
    have fewer := Waiting.asleep_set_le QueueCall.waiting found awake
    exact Nat.eq_zero_of_le_zero (nobody ▸ fewer)
  cases stepped with
  | called op => exact List.countP_append.trans (Nat.add_eq_zero_iff.mpr ⟨nobody, rfl⟩)
  | pushed enters room wakes =>
      rw [allowed.isClose_eq_false enters] at closed
      cases closed
  | refused enters full => exact asleep_wakeAll _
  | delivered pops popped => exact moved pops.found rfl
  | slept pops drained isOpen =>
      rw [isOpen] at closed
      cases closed
  | failed pops nothing => exact moved pops.found rfl
  | wokeSpuriously found asleep => exact moved found rfl
  | timedOut found isTimed waits => exact moved found rfl
  | lapsed found isTimed woken => exact moved found rfl
  | cleared enters => exact moved enters.found rfl
  | looked enters looks => exact moved enters.found rfl
  | closed enters => exact moved enters.found rfl
  | notifiedAll found closing => exact asleep_wakeAll _

/-- What holds of every queue without late pushes: it is empty once the flag is
set, only a `close` sets the flag, and nobody sleeps when one has returned. -/
structure Shut (s : QueueState α) : Prop where
  drained : s.bq.isClose = true → s.bq.queue = []
  flag : ∀ stage, some stage ∈ s.stages → s.bq.isClose = true
  nobody : s.CloseReturned → s.asleep = 0

/-- A new queue, without calls. -/
theorem shut_start {bq : BlockQueue α} (isOpen : bq.isClose = false) : (start bq).Shut where
  drained closed := by
    rw [start, isOpen] at closed
    cases closed
  flag stage member := absurd member List.not_mem_nil
  nobody returned := absurd returned List.not_mem_nil

theorem Shut.of_stepped {action : QueueAction α} (shut : s.Shut) (allowed : s.NoLatePush action)
    (stepped : Stepped s action t) : t.Shut where
  drained := by
    intro closed
    cases stepped with
    | pushed enters room wakes =>
        have before := (BlockQueue.push_eq_some_iff.mp room).2.2.2.symm.trans closed
        rw [allowed.isClose_eq_false enters] at before
        cases before
    | delivered pops popped =>
        have before := (BlockQueue.pop_eq_some popped).2.2.symm.trans closed
        have queue := (BlockQueue.pop_eq_some popped).1
        rw [shut.drained before] at queue
        cases queue
    | cleared enters => rfl
    | closed enters => rfl
    | _ => exact shut.drained closed
  flag stage member := by
    rcases stages_of_stepped stepped with same | ⟨closed, -⟩ | ⟨-, before⟩
    · exact isClose_of_stepped stepped (shut.flag stage (same stage member))
    · exact closed
    · rcases before stage member with ⟨earlier, member⟩
      exact isClose_of_stepped stepped (shut.flag earlier member)
  nobody returned := by
    have kept : s.CloseReturned → t.asleep = 0 := fun before =>
      asleep_of_stepped stepped allowed (shut.flag true before) (shut.nobody before)
    rcases stages_of_stepped stepped with same | ⟨-, same⟩ | ⟨nobody, -⟩
    · exact kept (same true returned)
    · exact kept (same returned)
    · exact nobody

/-! ## What a closed queue answers -/

section Closed

variable {i : Nat} {call : QueueCall α}

theorem pop_of_isClose (drained : s.bq.queue = []) (closed : s.bq.isClose = true) (i : Nat)
    (call : QueueCall α) : s.pop i call = s.answer i call (.item none) := by
  unfold pop
  rw [BlockQueue.pop_eq_none_iff.mpr drained, closed]
  rfl

theorem popRest_of_isClose (closed : s.bq.isClose = true) (i : Nat) (call : QueueCall α) :
    s.popRest i call = s.answer i call (.item none) := by
  unfold popRest
  rw [closed]
  rfl

theorem popTimed_of_isClose (closed : s.bq.isClose = true) (i : Nat) (call : QueueCall α) :
    s.popTimed i call = s.answer i call (.item none) := by
  unfold popTimed
  rw [popRest_of_isClose closed, closed]
  split
  · rfl
  · rfl

/-- Every `pop` that is awake can return `false`. -/
theorem exists_next_of_popping (drained : s.bq.queue = []) (closed : s.bq.isClose = true)
    (pops : s.Popping i call) :
    ∃ action, s.next action = some (s.answer i call (.item none)) := by
  rcases pops with ⟨found, isPop, awake⟩
  have first := pop_of_isClose drained closed i call
  have timed := popTimed_of_isClose closed i call
  have rest := popRest_of_isClose closed i call
  rcases call with ⟨op, pc⟩
  rcases isPop with isPop | isTimed
  · cases isPop
    rcases awake with entering | woken | roused
    · cases entering
      exact ⟨.enter i none, by rw [next, found, ← first]; rfl⟩
    · cases woken
      exact ⟨.resume i, by rw [next, found, ← first]; rfl⟩
    · cases roused
      exact ⟨.resume i, by rw [next, found, ← first]; rfl⟩
  · cases isTimed
    rcases awake with entering | woken | roused
    · cases entering
      exact ⟨.enter i none, by rw [next, found, ← timed]; rfl⟩
    · cases woken
      exact ⟨.resume i, by rw [next, found, ← rest]; rfl⟩
    · cases roused
      exact ⟨.resume i, by rw [next, found, ← rest]; rfl⟩

/-- When a call moves, another one stays where it is. -/
theorem getElem?_set_or {j : Nat} {moving new : QueueCall α} (found : s.calls[i]? = some call)
    (moves : s.calls[j]? = some moving) :
    (s.calls.set j new)[i]? = some call ∨
      (moving = call ∧ (s.calls.set j new)[i]? = some new) := by
  rw [getElem?_set_eq_ite moves]
  by_cases same : i = j
  · subst same
    rw [found] at moves
    exact .inr ⟨(Option.some.inj moves).symm, if_pos rfl⟩
  · rw [if_neg same]
    exact .inl found

theorem notifyAll_of_nobody {calls : List (QueueCall α)}
    (nobody : calls.countP QueueCall.isAsleep = 0) : QueueCall.waiting.notifyAll calls = calls := by
  refine (List.map_congr_left fun other member => ?_).trans (List.map_id calls)
  exact if_neg (List.countP_eq_zero.mp nobody other member)

/-- A `pop` of a closed queue stays where it is until it returns `false`. -/
theorem popping_of_stepped {action : QueueAction α} (stepped : Stepped s action t)
    (allowed : s.NoLatePush action) (drained : s.bq.queue = []) (closed : s.bq.isClose = true)
    (nobody : s.asleep = 0) (pops : s.Popping i call) :
    t.calls[i]? = some call ∨ t.calls[i]? = some (call.answered (.item none)) := by
  have elsewhere : ∀ {j : Nat} {moving new : QueueCall α}, s.calls[j]? = some moving →
      moving ≠ call → (s.calls.set j new)[i]? = some call := by
    intro j moving new moves other
    exact (getElem?_set_or pops.found moves).resolve_right fun same => other same.1
  have answered : ∀ {j : Nat} {moving : QueueCall α}, s.calls[j]? = some moving →
      (s.calls.set j (moving.answered (.item none)))[i]? = some call ∨
        (s.calls.set j (moving.answered (.item none)))[i]? =
          some (call.answered (.item none)) := by
    intro j moving moves
    refine (getElem?_set_or pops.found moves).imp_right ?_
    rintro ⟨same, moved⟩
    rw [← same]
    exact moved
  have entrant : ∀ {j : Nat} {moving : QueueCall α} {op : QueueOp α}, s.Entering j moving op →
      ¬ (op = .pop ∨ op = .popTimed) → moving ≠ call := by
    rintro j moving op enters other rfl
    exact other (enters.isOp ▸ pops.isPop)
  have fewer : ∀ {j : Nat} {moving new : QueueCall α}, s.calls[j]? = some moving →
      new.isAsleep = false → (s.calls.set j new).countP QueueCall.isAsleep = 0 := by
    intro j moving new moves awake
    exact Nat.eq_zero_of_le_zero (nobody ▸ Waiting.asleep_set_le QueueCall.waiting moves awake)
  cases stepped with
  | called op =>
      left
      exact (List.getElem?_append_left (List.getElem?_eq_some_iff.mp pops.found).1).trans
        pops.found
  | pushed enters room wakes =>
      rw [allowed.isClose_eq_false enters] at closed
      cases closed
  | refused enters full =>
      left
      refine (congrArg (fun calls => calls[i]?) (notifyAll_of_nobody ?_)).trans ?_
      · exact fewer enters.found rfl
      · exact elsewhere enters.found (entrant enters (by simp))
  | delivered others popped =>
      rw [BlockQueue.pop_eq_none_iff.mpr drained] at popped
      cases popped
  | slept others drained isOpen =>
      rw [isOpen] at closed
      cases closed
  | failed others nothing => exact answered others.found
  | wokeSpuriously found asleep =>
      refine .inl (elsewhere found ?_)
      rintro rfl
      exact pops.not_waiting.1 asleep
  | timedOut found isTimed waits => exact answered found
  | lapsed found isTimed woken => exact answered found
  | cleared enters => exact .inl (elsewhere enters.found (entrant enters (by simp)))
  | looked enters looks =>
      refine .inl (elsewhere enters.found (entrant enters ?_))
      rcases looks with rfl | rfl | rfl | rfl <;> simp
  | closed enters => exact .inl (elsewhere enters.found (entrant enters (by simp)))
  | notifiedAll found closing =>
      left
      refine (congrArg (fun calls => calls[i]?) (notifyAll_of_nobody ?_)).trans ?_
      · exact fewer found rfl
      · refine elsewhere found ?_
        rintro rfl
        exact pops.not_waiting.2 closing

/-- Nothing goes into a closed queue or comes out of it. -/
theorem records_of_stepped {action : QueueAction α} (stepped : Stepped s action t)
    (allowed : s.NoLatePush action) (drained : s.bq.queue = []) (closed : s.bq.isClose = true) :
    t.pushed = s.pushed ∧ t.removed = s.removed := by
  have dropped : ∀ bq, (s.drop bq).removed = s.removed := by
    intro bq
    rw [drop, drained]
    exact List.append_nil _
  cases stepped with
  | pushed enters room wakes =>
      rw [allowed.isClose_eq_false enters] at closed
      cases closed
  | delivered others popped =>
      rw [BlockQueue.pop_eq_none_iff.mpr drained] at popped
      cases popped
  | cleared enters => exact ⟨rfl, dropped s.bq.clear⟩
  | closed enters => exact ⟨rfl, dropped s.bq.close⟩
  | _ => exact ⟨rfl, rfl⟩

end Closed

/-- A queue after `close` has returned: it is empty and nobody waits, every `pop`
that is under way can return `false` at once and does nothing else, and no allowed
step puts anything in or takes anything out. -/
def DeliversNothing (allowed : QueueState α → QueueAction α → Prop) (s : QueueState α) : Prop :=
  s.bq.queue = [] ∧ s.asleep = 0 ∧
    (∀ i call, s.Popping i call → ∃ action, s.next action = some (s.answer i call (.item none))) ∧
    ∀ action t, allowed s action → s.next action = some t →
      t.pushed = s.pushed ∧ t.removed = s.removed ∧
        ∀ i call, s.Popping i call →
          t.calls[i]? = some call ∨ t.calls[i]? = some (call.answered (.item none))

/-- The `notify_all` of `close` wakes whoever waits. -/
theorem woken_of_notifyAll {i j : Nat} {call : QueueCall α}
    (step : s.next (.notifyAll i) = some t) (found : s.calls[j]? = some call)
    (asleep : call.pc = .asleep) : t.calls[j]? = some { call with pc := .woken } := by
  rcases Option.bind_eq_some_iff.mp step with ⟨closer, atI, step⟩
  split at step
  · rename_i closing
    cases step
    have other : j ≠ i := by
      rintro rfl
      rw [found] at atI
      cases atI
      rw [asleep] at closing
      cases closing
    have stays : (s.calls.set i (closer.answered .done))[j]? = some call := by
      rw [getElem?_set_eq_ite atI, if_neg other, found]
    refine (List.getElem?_map ..).trans ?_
    rw [answer, setCall, stays]
    exact congrArg some (if_pos (QueueCall.isAsleep_iff.mpr asleep))
  · cases step

/-- A late `push` succeeds. -/
theorem exists_next_of_late_push {i : Nat} {call : QueueCall α} {item : α}
    (drained : s.bq.queue = []) (size : 0 < s.bq.maxSize)
    (enters : s.Entering i call (.push item)) :
    ∃ woken t, s.next (.enter i woken) = some t ∧ t.bq.queue = [item] := by
  have room : ∃ bq, s.bq.push item = some bq ∧ bq.queue = [item] := by
    refine ⟨_, dif_pos (by rw [drained]; exact size), ?_⟩
    dsimp only
    rw [drained]
    rfl
  rcases room with ⟨bq, room, queue⟩
  rcases Waiting.exists_notifyOne QueueCall.waiting
    (s.calls.set i (call.answered (.flag true))) with ⟨woken, later, wakes⟩
  rcases enters with ⟨found, isOp, entering⟩
  rcases call with ⟨op, pc⟩
  cases isOp
  cases entering
  refine ⟨woken, { s with bq := bq, pushed := s.pushed ++ [(item, i)], calls := later }, ?_, queue⟩
  rw [next, found, Option.bind_some]
  dsimp only [enter]
  rw [push, room]
  dsimp only [answer, setCall]
  rw [wakes]
  rfl

/-- Without late pushes a queue delivers nothing once `close` has returned, and
whoever waits when `close` notifies is woken; but the first late `push` is
queued. -/
theorem closed_queue_delivers_nothing {maxSize : Int} {bq : BlockQueue α}
    (made : BlockQueue.new maxSize = some bq)
    (reached : Reachable next NoLatePush (start bq) s) :
    (s.CloseReturned → s.DeliversNothing NoLatePush ∧
      ∀ i call item, s.Entering i call (.push item) →
        ∃ woken t, s.next (.enter i woken) = some t ∧ t.bq.queue = [item]) ∧
      ∀ i t, s.next (.notifyAll i) = some t → ∀ (j : Nat) call, s.calls[j]? = some call →
        call.pc = .asleep → t.calls[j]? = some { call with pc := .woken } := by
  have invariant : s.Shut ∧ 0 < s.bq.maxSize := by
    apply reached.invariant
    · unfold BlockQueue.new at made
      split at made
      · cases made
      · rename_i positive
        cases made
        refine ⟨shut_start rfl, ?_⟩
        change 0 < maxSize.toNat
        omega
    · intro state action successor invariant allowed step
      have stepped := stepped_of_next step
      refine ⟨invariant.1.of_stepped allowed stepped, ?_⟩
      rw [maxSize_of_stepped stepped]
      exact invariant.2
  rcases invariant with ⟨shut, size⟩
  refine ⟨?_, fun i t step j call found asleep => woken_of_notifyAll step found asleep⟩
  intro returned
  have closed := shut.flag true returned
  have drained := shut.drained closed
  have nobody := shut.nobody returned
  refine ⟨⟨drained, nobody, fun i call pops => exists_next_of_popping drained closed pops, ?_⟩,
    fun i call item enters => exists_next_of_late_push drained size enters⟩
  intro action t allowed step
  have stepped := stepped_of_next step
  rcases records_of_stepped stepped allowed drained closed with ⟨pushed, removed⟩
  exact ⟨pushed, removed, fun i call pops =>
    popping_of_stepped stepped allowed drained closed nobody pops⟩

/-- A queue for one item. -/
def exampleQueue : BlockQueue Nat :=
  ⟨[], 1, false, Nat.zero_le 1⟩

/-- After `close` has returned, a `push` succeeds and a `pop` returns its item. -/
theorem late_push_delivered :
    ∃ s t, Reachable next Unrestricted (start exampleQueue) s ∧ s.CloseReturned ∧
      ¬ s.DeliversNothing Unrestricted ∧ s.pushed = [] ∧
      Reachable next Unrestricted s t ∧ t.pushedBy 1 = some 5 ∧ t.poppedBy 2 = some 5 := by
  have run : ∃ s, Reachable next Unrestricted (start exampleQueue) s ∧
      s.CloseReturned ∧ s.pushed = [] ∧
      (∃ t ∈ s.next (.enter 1 none), t.pushed = [(5, 1)]) ∧
      ∃ t ∈ run next s [.enter 1 none, .call .pop, .enter 2 none],
        t.pushedBy 1 = some 5 ∧ t.poppedBy 2 = some 5 := by
    apply exists_reachable [.call .close, .enter 0 none, .notifyAll 0, .call (.push 5)]
    · exact Meets.unrestricted ..
    · decide +kernel
  rcases run with ⟨s, reached, returned, nothing, ⟨pushed, step, item⟩, t, steps, late⟩
  refine ⟨s, t, reached, returned, ?_, nothing, ?_, late⟩
  · rintro ⟨-, -, -, still⟩
    have same := (still _ pushed trivial step).1
    rw [item, nothing] at same
    cases same
  · exact reachable_of_meets (Meets.unrestricted ..) steps

/-- Of two consumers one waits and one comes after the queue was closed, and the
item that is queued at that time is gone. -/
theorem closed_queue_two_consumers :
    ∃ s, Reachable next NoLatePush (start exampleQueue) s ∧ s.CloseReturned ∧
      (∃ call, s.Popping 0 call) ∧ (∃ call, s.Popping 3 call) ∧
      s.DeliversNothing NoLatePush := by
  have run : ∃ s, Reachable next NoLatePush (start exampleQueue) s ∧ s.CloseReturned ∧
      s.calls[0]? = some ⟨.pop, .woken⟩ ∧ s.calls[3]? = some ⟨.popTimed, .entering⟩ := by
    apply exists_reachable [.call .pop, .enter 0 none, .call (.push 5), .call .close,
      .enter 1 (some 0), .enter 2 none, .notifyAll 2, .call .popTimed]
    · decide +kernel
    · decide +kernel
  rcases run with ⟨s, reached, returned, first, second⟩
  have made : BlockQueue.new 1 = some exampleQueue := rfl
  exact ⟨s, reached, returned, ⟨_, first, .inl rfl, .inr (.inl rfl)⟩,
    ⟨_, second, .inr rfl, .inl rfl⟩, ((closed_queue_delivers_nothing made reached).1 returned).1⟩

end QueueState

end Mprpc.Threads
