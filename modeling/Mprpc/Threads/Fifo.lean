import Mprpc.Threads.BlockQueue
import Mprpc.Transition.Ledger

/-!
# A bounded queue without lost wake-ups

What successful calls put in comes out in the same order, to successful calls or
into a `clear`.  As long as the queue is open, and no timed wait reports a
timeout after it was notified, the queued items are matched by woken calls
whenever some call sleeps.
-/

namespace Mprpc.Threads

open Mprpc.Transition

universe u v

namespace QueueCall

variable {α : Type u}

/-- The item that a call has put into the queue. -/
def pushedItem (call : QueueCall α) : Option α :=
  match call.op, call.pc with
  | .push item, .returned (.flag true) => some item
  | _, _ => none

/-- The item that a call has taken out of the queue. -/
def poppedItem (call : QueueCall α) : Option α :=
  match call.op, call.pc with
  | .pop, .returned (.item value) => value
  | .popTimed, .returned (.item value) => value
  | _, _ => none

/-- A `push` or `pop` that has returned `false`. -/
def failed (call : QueueCall α) : Bool :=
  match call.op, call.pc with
  | .push _, .returned (.flag false) => true
  | .pop, .returned (.item none) => true
  | .popTimed, .returned (.item none) => true
  | _, _ => false

/-- A call that has not returned. -/
def isPending (call : QueueCall α) : Bool :=
  match call.pc with
  | .returned _ => false
  | _ => true

/-- A pending call has done nothing yet. -/
theorem nothing_of_pending {call : QueueCall α} (pending : call.isPending = true) :
    call.pushedItem = none ∧ call.poppedItem = none ∧ call.failed = false := by
  rcases call with ⟨op, pc⟩
  cases pc with
  | returned answer => cases pending
  | _ => cases op <;> exact ⟨rfl, rfl, rfl⟩

theorem pushedItem_of_pending {call : QueueCall α} (pending : call.isPending = true) :
    call.pushedItem = none :=
  (nothing_of_pending pending).1

theorem poppedItem_of_pending {call : QueueCall α} (pending : call.isPending = true) :
    call.poppedItem = none :=
  (nothing_of_pending pending).2.1

theorem failed_of_pending {call : QueueCall α} (pending : call.isPending = true) :
    call.failed = false :=
  (nothing_of_pending pending).2.2

/-- The answer of a `pop` puts nothing in, and takes out its item. -/
theorem items_of_isPop {call : QueueCall α} (isPop : call.op = .pop ∨ call.op = .popTimed)
    (value : Option α) :
    (call.answered (.item value)).pushedItem = none ∧
      (call.answered (.item value)).poppedItem = value := by
  rcases isPop with isPop | isTimed
  · simp only [pushedItem, poppedItem, answered, isPop, and_self]
  · simp only [pushedItem, poppedItem, answered, isTimed, and_self]

/-- Neither does a call that returns nothing. -/
theorem items_done (call : QueueCall α) :
    (call.answered .done).pushedItem = none ∧ (call.answered .done).poppedItem = none := by
  rcases call with ⟨op, pc⟩
  cases op <;> exact ⟨rfl, rfl⟩

/-- Nor one that only looks at the queue. -/
theorem items_of_looks {call : QueueCall α}
    (looks : call.op = .full ∨ call.op = .empty ∨ call.op = .front ∨ call.op = .back)
    (answer : QueueAnswer α) :
    (call.answered answer).pushedItem = none ∧ (call.answered answer).poppedItem = none := by
  rcases call with ⟨op, pc⟩
  dsimp only at looks
  rcases looks with rfl | rfl | rfl | rfl <;> exact ⟨rfl, rfl⟩

theorem not_woken_of_pc {call : QueueCall α} {pc : QueuePc α} (here : call.pc = pc)
    (notWoken : waiting.woken ⟨call.op, pc⟩ = false) : waiting.woken call = false := by
  rcases call with ⟨op, _⟩
  cases here
  exact notWoken

theorem isPending_of_pc {call : QueueCall α} {pc : QueuePc α} (here : call.pc = pc)
    (notReturned : (⟨call.op, pc⟩ : QueueCall α).isPending = true) : call.isPending = true := by
  rcases call with ⟨op, _⟩
  cases here
  exact notReturned

end QueueCall

/-- The call that an item went to. -/
def Removal.to : Removal → Option Nat
  | .delivered i => some i
  | .cleared => none

namespace QueueState

variable {α : Type u}

/-- What a call has put into the queue. -/
def pushedBy (s : QueueState α) (i : Nat) : Option α :=
  (s.calls[i]?).bind QueueCall.pushedItem

/-- What a call has taken out of the queue. -/
def poppedBy (s : QueueState α) (i : Nat) : Option α :=
  (s.calls[i]?).bind QueueCall.poppedItem

/-- The items that were popped, in order, with the calls that got them. -/
def delivered (s : QueueState α) : List (α × Nat) :=
  s.removed.filterMap fun (item, removal) => removal.to.map fun i => (item, i)

/-- The number of calls that sleep. -/
def asleep (s : QueueState α) : Nat :=
  s.calls.countP QueueCall.isAsleep

/-- The number of calls that were woken and have not resumed. -/
def woken (s : QueueState α) : Nat :=
  s.calls.countP QueueCall.isWoken

/-- Nobody calls `close`. -/
def BeforeClose (_ : QueueState α) (action : QueueAction α) : Prop :=
  action ≠ .call .close

instance [DecidableEq α] (s : QueueState α) (action : QueueAction α) :
    Decidable (BeforeClose s action) :=
  inferInstanceAs (Decidable (action ≠ .call .close))

/-! ## What went in and what came out -/

/-- The items that entered are those that left and those that are queued, in this
order; and the two records say what the calls say. -/
structure Recorded (s : QueueState α) : Prop where
  order : s.pushed.map Prod.fst = s.removed.map Prod.fst ++ s.bq.queue
  pushes : Ledger s.pushed s.pushedBy
  pops : Ledger s.delivered s.poppedBy

/-- The records stay true while no call takes or gives anything. -/
theorem Recorded.setCalls {s : QueueState α} (recorded : s.Recorded)
    {calls : List (QueueCall α)}
    (pushes : ∀ j, (calls[j]?).bind QueueCall.pushedItem = s.pushedBy j)
    (pops : ∀ j, (calls[j]?).bind QueueCall.poppedItem = s.poppedBy j) :
    { s with calls := calls }.Recorded :=
  ⟨recorded.order, recorded.pushes.congr pushes, recorded.pops.congr pops⟩

/-- Waking a call changes nothing that is the same for all pending calls. -/
theorem wake_of_pending {β : Type v} {f : QueueCall α → β} {nothing : β}
    (ofPending : ∀ {call : QueueCall α}, call.isPending = true → f call = nothing)
    (call : QueueCall α) (sleeps : QueueCall.waiting.asleep call = true) :
    f (QueueCall.waiting.wake call) = f call := by
  have asleep := QueueCall.isAsleep_iff.mp sleeps
  rw [ofPending (QueueCall.isPending_of_pc asleep rfl)]
  exact ofPending rfl

theorem pushedBy_set {s : QueueState α} {i : Nat} {call new : QueueCall α}
    (found : s.calls[i]? = some call) (pending : call.isPending = true)
    (nothing : new.pushedItem = none) (j : Nat) :
    ((s.calls.set i new)[j]?).bind QueueCall.pushedItem = s.pushedBy j :=
  bind_set_of_eq found (nothing.trans (QueueCall.pushedItem_of_pending pending).symm) j

theorem poppedBy_set {s : QueueState α} {i : Nat} {call new : QueueCall α}
    (found : s.calls[i]? = some call) (pending : call.isPending = true)
    (nothing : new.poppedItem = none) (j : Nat) :
    ((s.calls.set i new)[j]?).bind QueueCall.poppedItem = s.poppedBy j :=
  bind_set_of_eq found (nothing.trans (QueueCall.poppedItem_of_pending pending).symm) j

/-- A pending call moves on without having put in or taken out anything. -/
theorem Recorded.setCall {s : QueueState α} (recorded : s.Recorded) {i : Nat}
    {call new : QueueCall α} (found : s.calls[i]? = some call) (pending : call.isPending = true)
    (nothingPushed : new.pushedItem = none) (nothingPopped : new.poppedItem = none) :
    (s.setCall i new).Recorded :=
  recorded.setCalls (pushedBy_set found pending nothingPushed)
    (poppedBy_set found pending nothingPopped)

theorem Recorded.notifyAll {s : QueueState α} (recorded : s.Recorded) :
    { s with calls := QueueCall.waiting.notifyAll s.calls }.Recorded :=
  recorded.setCalls
    (bind_of_map_eq
      (Waiting.map_notifyAll (wake_of_pending QueueCall.pushedItem_of_pending) s.calls))
    (bind_of_map_eq
      (Waiting.map_notifyAll (wake_of_pending QueueCall.poppedItem_of_pending) s.calls))

theorem Recorded.notifyOne {s : QueueState α} (recorded : s.Recorded) {woken : Option Nat}
    {calls : List (QueueCall α)}
    (wakes : QueueCall.waiting.notifyOne s.calls woken = some calls) :
    { s with calls := calls }.Recorded :=
  recorded.setCalls
    (bind_of_map_eq (Waiting.map_notifyOne (wake_of_pending QueueCall.pushedItem_of_pending) wakes))
    (bind_of_map_eq (Waiting.map_notifyOne (wake_of_pending QueueCall.poppedItem_of_pending) wakes))

/-- A `push` succeeds. -/
theorem Recorded.push {s : QueueState α} (recorded : s.Recorded) {i : Nat}
    {call : QueueCall α} {item : α} {bq : BlockQueue α} (enters : s.Entering i call (.push item))
    (room : s.bq.push item = some bq) :
    { s with
      bq := bq
      pushed := s.pushed ++ [(item, i)]
      calls := s.calls.set i (call.answered (.flag true)) }.Recorded := by
  have pending := QueueCall.isPending_of_pc enters.entering rfl
  constructor
  · change (s.pushed ++ [(item, i)]).map Prod.fst = s.removed.map Prod.fst ++ bq.queue
    rw [(BlockQueue.push_eq_some_iff.mp room).2.1, List.map_append, recorded.order,
      List.append_assoc]
    rfl
  · have gives : (call.answered (.flag true)).pushedItem = some item := by
      simp only [QueueCall.pushedItem, QueueCall.answered, enters.isOp]
    refine recorded.pushes.record ?_ fun j => ?_
    · rw [pushedBy, enters.found]
      exact QueueCall.pushedItem_of_pending pending
    · rw [← gives]
      exact bind_set QueueCall.pushedItem enters.found _ j
  · have takes : (call.answered (.flag true)).poppedItem = none := by
      simp only [QueueCall.poppedItem, QueueCall.answered, enters.isOp]
    exact recorded.pops.congr (poppedBy_set enters.found pending takes)

theorem Popping.isPending {s : QueueState α} {i : Nat} {call : QueueCall α}
    (pops : s.Popping i call) : call.isPending = true := by
  rcases pops.awake with entering | woken | roused
  · exact QueueCall.isPending_of_pc entering rfl
  · exact QueueCall.isPending_of_pc woken rfl
  · exact QueueCall.isPending_of_pc roused rfl

/-- A `pop` succeeds. -/
theorem Recorded.deliver {s : QueueState α} (recorded : s.Recorded) {i : Nat}
    {call : QueueCall α} {item : α} {bq : BlockQueue α} (pops : s.Popping i call)
    (popped : s.bq.pop = some (item, bq)) : (s.deliver i call item bq).Recorded := by
  rcases QueueCall.items_of_isPop pops.isPop (some item) with ⟨gives, takes⟩
  constructor
  · change s.pushed.map Prod.fst =
      (s.removed ++ [(item, Removal.delivered i)]).map Prod.fst ++ bq.queue
    rw [recorded.order, (BlockQueue.pop_eq_some popped).1, List.map_append, List.append_assoc]
    rfl
  · exact recorded.pushes.congr (pushedBy_set pops.found pops.isPending gives)
  · have last : (s.deliver i call item bq).delivered = s.delivered ++ [(item, i)] :=
      List.filterMap_append
    rw [last]
    refine recorded.pops.record ?_ fun j => ?_
    · rw [poppedBy, pops.found]
      exact QueueCall.poppedItem_of_pending pops.isPending
    · rw [← takes]
      exact bind_set QueueCall.poppedItem pops.found _ j

/-- The queue is emptied. -/
theorem Recorded.drop {s : QueueState α} (recorded : s.Recorded) {bq : BlockQueue α}
    (drained : bq.queue = []) : (s.drop bq).Recorded := by
  constructor
  · change s.pushed.map Prod.fst =
      (s.removed ++ s.bq.queue.map fun item => (item, Removal.cleared)).map Prod.fst ++ bq.queue
    rw [recorded.order, drained, List.append_nil, List.map_append, List.map_map]
    congr 1
    exact (List.map_id _).symm
  · exact recorded.pushes
  · have same : (s.drop bq).delivered = s.delivered := by
      simp [delivered, QueueState.drop, List.filterMap_append, List.filterMap_map, Removal.to]
    rw [same]
    exact recorded.pops

theorem Recorded.of_stepped {s t : QueueState α} {action : QueueAction α}
    (recorded : s.Recorded) (stepped : Stepped s action t) : t.Recorded := by
  cases stepped with
  | called op =>
      apply recorded.setCalls
      · exact bind_concat (QueueCall.pushedItem_of_pending rfl) s.calls
      · exact bind_concat (QueueCall.poppedItem_of_pending rfl) s.calls
  | pushed enters room wakes => exact (recorded.push enters room).notifyOne wakes
  | @refused i call item woken enters full =>
      have gives : (call.answered (.flag false)).pushedItem = none := by
        simp only [QueueCall.pushedItem, QueueCall.answered, enters.isOp]
      have takes : (call.answered (.flag false)).poppedItem = none := by
        simp only [QueueCall.poppedItem, QueueCall.answered, enters.isOp]
      exact (recorded.setCall enters.found (QueueCall.isPending_of_pc enters.entering rfl)
        gives takes).notifyAll
  | delivered pops popped => exact recorded.deliver pops popped
  | slept pops drained isOpen =>
      exact recorded.setCall pops.found pops.isPending (QueueCall.pushedItem_of_pending rfl)
        (QueueCall.poppedItem_of_pending rfl)
  | failed pops nothing =>
      rcases QueueCall.items_of_isPop pops.isPop none with ⟨gives, takes⟩
      exact recorded.setCall pops.found pops.isPending gives takes
  | wokeSpuriously found asleep =>
      exact recorded.setCall found (QueueCall.isPending_of_pc asleep rfl)
        (QueueCall.pushedItem_of_pending rfl) (QueueCall.poppedItem_of_pending rfl)
  | timedOut found isTimed waits =>
      rcases QueueCall.items_of_isPop (.inr isTimed) none with ⟨gives, takes⟩
      rcases waits with asleep | roused
      · exact recorded.setCall found (QueueCall.isPending_of_pc asleep rfl) gives takes
      · exact recorded.setCall found (QueueCall.isPending_of_pc roused rfl) gives takes
  | lapsed found isTimed woken =>
      rcases QueueCall.items_of_isPop (.inr isTimed) none with ⟨gives, takes⟩
      have moved := recorded.setCall found (QueueCall.isPending_of_pc woken rfl) gives takes
      exact ⟨moved.order, moved.pushes, moved.pops⟩
  | @cleared i call woken enters =>
      rcases QueueCall.items_done call with ⟨gives, takes⟩
      exact (recorded.drop rfl).setCall enters.found
        (QueueCall.isPending_of_pc enters.entering rfl) gives takes
  | @looked i call woken op answer enters looks =>
      rcases QueueCall.items_of_looks (enters.isOp ▸ looks) answer with ⟨gives, takes⟩
      exact recorded.setCall enters.found (QueueCall.isPending_of_pc enters.entering rfl) gives
        takes
  | closed enters =>
      exact (recorded.drop rfl).setCall enters.found
        (QueueCall.isPending_of_pc enters.entering rfl)
        (QueueCall.pushedItem_of_pending rfl) (QueueCall.poppedItem_of_pending rfl)
  | @notifiedAll i call found closing =>
      rcases QueueCall.items_done call with ⟨gives, takes⟩
      exact (recorded.setCall found (QueueCall.isPending_of_pc closing rfl) gives takes).notifyAll

/-! ## The functions that were called -/

/-- What the calls are calls of. -/
def ops (s : QueueState α) : List (QueueOp α) :=
  s.calls.map QueueCall.op

theorem ops_set {s : QueueState α} {i : Nat} {call : QueueCall α}
    (found : s.calls[i]? = some call) (pc : QueuePc α) :
    (s.calls.set i { call with pc := pc }).map QueueCall.op = s.ops :=
  map_set_of_eq found rfl

/-- A call stays what it is, and only a new one is added. -/
theorem ops_of_stepped {s t : QueueState α} {action : QueueAction α}
    (stepped : Stepped s action t) :
    t.ops = s.ops ∨ ∃ op, action = .call op ∧ t.ops = s.ops ++ [op] := by
  have wake : ∀ call : QueueCall α, QueueCall.waiting.asleep call = true →
      (QueueCall.waiting.wake call).op = call.op := fun _ _ => rfl
  cases stepped with
  | called op => exact .inr ⟨op, rfl, List.map_append⟩
  | pushed enters room wakes =>
      exact .inl ((Waiting.map_notifyOne wake wakes).trans (ops_set enters.found _))
  | refused enters full =>
      exact .inl ((Waiting.map_notifyAll wake _).trans (ops_set enters.found _))
  | delivered pops popped => exact .inl (ops_set pops.found _)
  | slept pops drained isOpen => exact .inl (ops_set pops.found _)
  | failed pops nothing => exact .inl (ops_set pops.found _)
  | wokeSpuriously found asleep => exact .inl (ops_set found _)
  | timedOut found isTimed waits => exact .inl (ops_set found _)
  | lapsed found isTimed woken => exact .inl (ops_set found _)
  | cleared enters => exact .inl (ops_set enters.found _)
  | looked enters looks => exact .inl (ops_set enters.found _)
  | closed enters => exact .inl (ops_set enters.found _)
  | notifiedAll found closing =>
      exact .inl ((Waiting.map_notifyAll wake _).trans (ops_set found _))

/-! ## Failed calls -/

/-- The call has returned `false`, without a change. -/
def Failed (s : QueueState α) (i : Nat) : Prop :=
  (s.calls[i]?).map QueueCall.failed = some true

theorem Failed.congr {s t : QueueState α} {i : Nat} (failed : t.Failed i)
    (same : t.calls.map QueueCall.failed = s.calls.map QueueCall.failed) : s.Failed i := by
  rw [Failed, ← List.getElem?_map] at *
  rw [← same]
  exact failed

theorem failed_set {s : QueueState α} {i : Nat} {call new : QueueCall α}
    (found : s.calls[i]? = some call) (pending : call.isPending = true)
    (returns : new.failed = false) :
    (s.calls.set i new).map QueueCall.failed = s.calls.map QueueCall.failed :=
  map_set_of_eq found (returns.trans (QueueCall.failed_of_pending pending).symm)

/-- While a call fails, the queue stays as it is. -/
theorem queue_eq_of_failed {s t : QueueState α} {action : QueueAction α} {j : Nat}
    (stepped : Stepped s action t) (before : ¬ s.Failed j) (after : t.Failed j) :
    t.bq.queue = s.bq.queue := by
  cases stepped with
  | @pushed i call item woken bq calls enters room wakes =>
      have returns : (call.answered (.flag true)).failed = false := by
        simp only [QueueCall.failed, QueueCall.answered, enters.isOp]
      have pending := QueueCall.isPending_of_pc enters.entering rfl
      refine absurd (after.congr ?_) before
      exact (Waiting.map_notifyOne (wake_of_pending QueueCall.failed_of_pending) wakes).trans
        (failed_set enters.found pending returns)
  | @delivered action i call item bq pops popped =>
      have returns : (call.answered (.item (some item))).failed = false := by
        rcases pops.isPop with isPop | isTimed
        · simp only [QueueCall.failed, QueueCall.answered, isPop]
        · simp only [QueueCall.failed, QueueCall.answered, isTimed]
      exact absurd (after.congr (failed_set pops.found pops.isPending returns)) before
  | @cleared i call woken enters =>
      have returns : (call.answered .done).failed = false := by
        simp only [QueueCall.failed, QueueCall.answered, enters.isOp]
      refine absurd (after.congr (failed_set enters.found ?_ returns)) before
      exact QueueCall.isPending_of_pc enters.entering rfl
  | closed enters =>
      refine absurd (after.congr (failed_set enters.found ?_ ?_)) before
      · exact QueueCall.isPending_of_pc enters.entering rfl
      · exact QueueCall.failed_of_pending rfl
  | _ => rfl

/-! ## Wake-ups -/

/-- The queue before it is closed: whenever somebody sleeps, every item is matched
by a woken call or by a lapse. -/
structure Open (s : QueueState α) : Prop where
  noClose : .close ∉ s.ops
  isOpen : s.bq.isClose = false
  covered : QueueCall.waiting.Covered s.bq.queue.length s.lapses s.calls
  lapses : 0 < s.lapses → .popTimed ∈ s.ops

theorem Open.covered_of_stepped {s t : QueueState α} {action : QueueAction α}
    (opened : s.Open) (stepped : Stepped s action t) :
    QueueCall.waiting.Covered t.bq.queue.length t.lapses t.calls := by
  cases stepped with
  | called op => exact opened.covered.spawn rfl
  | pushed enters room wakes =>
      rename_i i call item woken bq calls
      have grows : bq.queue.length = s.bq.queue.length + 1 := by
        rw [(BlockQueue.push_eq_some_iff.mp room).2.1]
        exact List.length_append
      have moved : QueueCall.waiting.Covered (s.bq.queue.length + 1) (s.lapses + 1)
          (s.calls.set i (call.answered (.flag true))) :=
        opened.covered.add.move enters.found (QueueCall.not_woken_of_pc enters.entering rfl) rfl
      change QueueCall.waiting.Covered bq.queue.length s.lapses calls
      rw [grows]
      exact moved.notifyOne wakes
  | refused enters full => exact .of_nobody (Waiting.asleep_notifyAll _ _)
  | @delivered action i call item bq pops popped =>
      have shrinks : s.bq.queue.length = bq.queue.length + 1 := by
        rw [(BlockQueue.pop_eq_some popped).1]
        exact List.length_cons
      have covered := opened.covered
      rw [shrinks] at covered
      exact covered.take pops.found rfl
  | slept pops drained isOpen => exact .of_nothing (List.length_eq_zero_iff.mpr drained)
  | failed pops nothing =>
      refine .of_nothing (List.length_eq_zero_iff.mpr (nothing.resolve_right ?_))
      rw [opened.isOpen]
      exact Bool.false_ne_true
  | wokeSpuriously found asleep =>
      exact opened.covered.move found (QueueCall.not_woken_of_pc asleep rfl) rfl
  | timedOut found isTimed waits =>
      rcases waits with asleep | roused
      · exact opened.covered.move found (QueueCall.not_woken_of_pc asleep rfl) rfl
      · exact opened.covered.move found (QueueCall.not_woken_of_pc roused rfl) rfl
  | lapsed found isTimed woken => exact opened.covered.add.take found rfl
  | cleared enters => exact .of_nothing rfl
  | looked enters looks =>
      exact opened.covered.move enters.found
        (QueueCall.not_woken_of_pc enters.entering rfl) rfl
  | closed enters => exact .of_nothing rfl
  | notifiedAll found closing => exact .of_nobody (Waiting.asleep_notifyAll _ _)

theorem maxSize_of_stepped {s t : QueueState α} {action : QueueAction α}
    (stepped : Stepped s action t) : t.bq.maxSize = s.bq.maxSize := by
  cases stepped with
  | pushed enters room wakes => exact (BlockQueue.push_eq_some_iff.mp room).2.2.1
  | delivered pops popped => exact (BlockQueue.pop_eq_some popped).2.1
  | _ => rfl

theorem Open.of_stepped {s t : QueueState α} {action : QueueAction α} (opened : s.Open)
    (allowed : BeforeClose s action) (stepped : Stepped s action t) : t.Open where
  noClose := by
    rcases ops_of_stepped stepped with same | ⟨op, rfl, grows⟩
    · rw [same]
      exact opened.noClose
    · rw [grows, List.mem_append, List.mem_singleton]
      rintro (before | closes)
      · exact opened.noClose before
      · exact allowed (congrArg QueueAction.call closes.symm)
  isOpen := by
    cases stepped with
    | pushed enters room wakes =>
        exact (BlockQueue.push_eq_some_iff.mp room).2.2.2.trans opened.isOpen
    | delivered pops popped => exact (BlockQueue.pop_eq_some popped).2.2.trans opened.isOpen
    | closed enters =>
        refine absurd ?_ opened.noClose
        exact List.mem_map.mpr ⟨_, List.mem_of_getElem? enters.found, enters.isOp⟩
    | _ => exact opened.isOpen
  covered := opened.covered_of_stepped stepped
  lapses := by
    intro lapsed
    have kept : .popTimed ∈ s.ops → .popTimed ∈ t.ops := by
      intro member
      rcases ops_of_stepped stepped with same | ⟨op, -, grows⟩
      · rw [same]
        exact member
      · rw [grows]
        exact List.mem_append_left _ member
    apply kept
    cases stepped with
    | lapsed found isTimed woken =>
        exact List.mem_map.mpr ⟨_, List.mem_of_getElem? found, isTimed⟩
    | _ => exact opened.lapses lapsed

/-! ## The whole run -/

theorem invariant_of_reachable {maxSize : Int} {bq : BlockQueue α}
    (made : BlockQueue.new maxSize = some bq) {s : QueueState α}
    (reached : Reachable next BeforeClose (start bq) s) :
    s.Recorded ∧ s.Open ∧ (s.bq.maxSize : Int) = maxSize := by
  apply reached.invariant
  · unfold BlockQueue.new at made
    split at made
    · cases made
    · cases made
      refine ⟨⟨rfl, .nil fun _ => rfl, .nil fun _ => rfl⟩, ⟨?_, rfl, .of_nothing rfl, ?_⟩, ?_⟩
      · exact List.not_mem_nil
      · exact fun lapsed => absurd lapsed (Nat.lt_irrefl 0)
      · change ((maxSize.toNat : Nat) : Int) = maxSize
        omega
  · intro state action successor invariant allowed step
    rcases invariant with ⟨recorded, opened, size⟩
    have stepped := stepped_of_next step
    refine ⟨recorded.of_stepped stepped, opened.of_stepped allowed stepped, ?_⟩
    rw [maxSize_of_stepped stepped]
    exact size

/-- Whatever the calls do before `close`: what enters leaves in the same order,
to one successful `pop` or into a `clear`; the size stays within its bound; a
call that fails changes nothing; and with the untimed `pop` nobody sleeps on
while there is an item and no woken call. -/
theorem bounded_fifo {maxSize : Int} {bq : BlockQueue α}
    (made : BlockQueue.new maxSize = some bq) {s : QueueState α}
    (reached : Reachable next BeforeClose (start bq) s) :
    s.pushed.map Prod.fst = s.removed.map Prod.fst ++ s.bq.queue ∧
      Ledger s.pushed s.pushedBy ∧
      Ledger s.delivered s.poppedBy ∧
      (s.bq.queue.length : Int) ≤ maxSize ∧
      (∀ action t i, s.next action = some t → ¬ s.Failed i → t.Failed i →
        t.bq.queue = s.bq.queue) ∧
      (0 < s.asleep → s.bq.queue.length ≤ s.woken + s.lapses) ∧
      (.popTimed ∉ s.ops → 0 < s.asleep → s.bq.queue ≠ [] → 0 < s.woken) := by
  rcases invariant_of_reachable made reached with ⟨recorded, opened, size⟩
  refine ⟨recorded.order, recorded.pushes, recorded.pops, ?_, ?_, opened.covered, ?_⟩
  · have bounded := s.bq.bounded
    omega
  · intro action t i step before after
    exact queue_eq_of_failed (stepped_of_next step) before after
  · intro untimed sleeps queued
    have bound : s.bq.queue.length ≤ s.woken + s.lapses := opened.covered sleeps
    have positive := List.length_pos_iff.mpr queued
    have noLapse : ¬ 0 < s.lapses := fun lapsed => untimed (opened.lapses lapsed)
    omega

/-- Two producers and two consumers on a queue for one item: the second item is
refused, the first goes to the consumer that came later. -/
theorem barging_consumer_served :
    ∃ bq : BlockQueue Nat, ∃ s : QueueState Nat, BlockQueue.new 1 = some bq ∧
      Reachable next BeforeClose (start bq) s ∧
      (s.delivered = [(7, 3)] ∧ 0 < s.asleep) ∧
      (s.pushed.map Prod.fst = s.removed.map Prod.fst ++ s.bq.queue ∧
        Ledger s.pushed s.pushedBy ∧
        Ledger s.delivered s.poppedBy ∧
        (s.bq.queue.length : Int) ≤ 1 ∧
        (∀ action t i, s.next action = some t → ¬ s.Failed i → t.Failed i →
          t.bq.queue = s.bq.queue) ∧
        (0 < s.asleep → s.bq.queue.length ≤ s.woken + s.lapses) ∧
        (.popTimed ∉ s.ops → 0 < s.asleep → s.bq.queue ≠ [] → 0 < s.woken)) := by
  have run : ∃ s : QueueState Nat,
      Reachable next BeforeClose (start ⟨[], 1, false, Nat.zero_le _⟩) s ∧
        (s.delivered = [(7, 3)] ∧ 0 < s.asleep) := by
    apply exists_reachable [.call .pop, .call (.push 7), .call (.push 8), .call .pop,
      .enter 0 none, .enter 1 (some 0), .enter 2 none, .enter 3 none, .resume 0]
    · decide +kernel
    · decide +kernel
  rcases run with ⟨s, reached, served⟩
  exact ⟨_, s, rfl, reached, served, bounded_fifo rfl reached⟩

end QueueState

end Mprpc.Threads
