import Mprpc.Net.TimeHeap

/-!
# Timers of live connections

`Linked` is what the timers owe to the live descriptors: each has a timer in the
heap that is not retired, is stored for it and expires three time slots after
its last event.  Descriptors that are no clients have no timers at all.
`Exclusive` is the converse: a timer in the heap that is not
retired is the one stored for a live descriptor.  The first holds in every run
of the server, the second only as long as no connection ends without its timer
being retired.
-/

namespace Mprpc.Net.TimeHeap

open Mprpc.ArrayHeap

universe u

/-- Every live descriptor has its timer. -/
structure Linked (t : TimeHeap) (client : Fd → Prop) (live : Fd → Bool) (lastEvent : Fd → Int) :
    Prop where
  nodup : t.entries.Nodup
  allocated : ∀ {timer}, some timer ∈ t.entries → timer < t.allocated
  user : ∀ {timer}, some timer ∈ t.entries → client (t.timers timer).userData ∧
    (t.user (t.timers timer).userData).sockfd = (t.timers timer).userData
  stored : ∀ {fd}, live fd = true → ∃ timer, (t.user fd).timer = some timer ∧
    some timer ∈ t.entries ∧ t.timers timer = ⟨lastEvent fd + 3 * timeslot, true, fd, false⟩

/-- Every timer that is not retired is the one of a live descriptor. -/
def Exclusive (t : TimeHeap) (live : Fd → Bool) : Prop :=
  ∀ timer, some timer ∈ t.entries → (t.timers timer).cbFunc = true →
    live (t.timers timer).userData = true ∧
      (t.user (t.timers timer).userData).timer = some timer

variable {t : TimeHeap} {client : Fd → Prop} {live : Fd → Bool} {lastEvent : Fd → Int}

theorem linked_new (capacity : Nat) (client : Fd → Prop) (lastEvent : Fd → Int) :
    (new capacity).Linked client (fun _ => false) lastEvent where
  nodup := Multiset.nodup_zero
  allocated member := absurd member (Multiset.notMem_zero _)
  user member := absurd member (Multiset.notMem_zero _)
  stored isLive := absurd isLive Bool.false_ne_true

theorem exclusive_new (capacity : Nat) : (new capacity).Exclusive fun _ => false :=
  fun _ member => absurd member (Multiset.notMem_zero _)

/-- Users with different timers stored are different. -/
theorem user_ne_of_stored {user fd : Fd} {other timer : TimerId}
    (stored : (t.user user).timer = some other) (found : (t.user fd).timer = some timer)
    (different : other ≠ timer) : user ≠ fd := by
  rintro rfl
  rw [found] at stored
  exact different (Option.some.inj stored).symm

/-- What is known of the timer stored for a live descriptor. -/
theorem Linked.of_stored (linked : t.Linked client live lastEvent) {fd : Fd}
    (isLive : live fd = true) {timer : TimerId}
    (found : (t.user fd).timer = some timer) :
    some timer ∈ t.entries ∧ t.timers timer = ⟨lastEvent fd + 3 * timeslot, true, fd, false⟩ := by
  rcases linked.stored isLive with ⟨other, stored, member, value⟩
  rw [found] at stored
  cases stored
  exact ⟨member, value⟩

/-- The only active timer of a live descriptor is the stored one. -/
theorem Exclusive.expire_eq (exclusive : t.Exclusive live) (linked : t.Linked client live lastEvent)
    {timer : TimerId} (member : some timer ∈ t.entries)
    (active : (t.timers timer).cbFunc = true) :
    t.expire timer = lastEvent (t.timers timer).userData + 3 * timeslot := by
  rcases exclusive timer member active with ⟨isLive, stored⟩
  have value := (linked.of_stored isLive stored).2
  have expire := congrArg UtilTimer.expire value
  exact expire

/-! ## Accepting a connection -/

theorem entries_acceptTimer (t : TimeHeap) (now : Int) (fd : Fd) :
    (t.acceptTimer now fd).entries = some t.allocated ::ₘ t.entries := by
  unfold acceptTimer
  dsimp only
  rw [entries_addTimer]
  rfl

theorem acceptTimer_timers (t : TimeHeap) (now : Int) (fd : Fd) :
    (t.acceptTimer now fd).timers =
      Function.update t.timers t.allocated ⟨now + 3 * timeslot, true, fd, false⟩ := by
  unfold acceptTimer
  rw [addTimer_timers]
  rfl

theorem acceptTimer_allocated (t : TimeHeap) (now : Int) (fd : Fd) :
    (t.acceptTimer now fd).allocated = t.allocated + 1 := by
  unfold acceptTimer
  rw [addTimer_allocated]
  rfl

theorem acceptTimer_user (t : TimeHeap) (now : Int) (fd : Fd) :
    (t.acceptTimer now fd).user = Function.update t.user fd ⟨fd, some t.allocated⟩ := by
  unfold acceptTimer
  simp only [addTimer_user, setUser_user, newTimer_user, Function.update_self,
    Function.update_idem]
  rfl

/-- A fresh timer differs from all timers in the heap. -/
theorem Linked.ne_allocated (linked : t.Linked client live lastEvent) {timer : TimerId}
    (member : some timer ∈ t.entries) : timer ≠ t.allocated :=
  (linked.allocated member).ne

theorem Linked.accept (linked : t.Linked client live lastEvent) (now : Int) {fd : Fd}
    (isClient : client fd) :
    (t.acceptTimer now fd).Linked client (Function.update live fd true)
      (Function.update lastEvent fd now) := by
  have fresh : some t.allocated ∉ t.entries := fun member => linked.ne_allocated member rfl
  constructor
  · rw [entries_acceptTimer]
    exact Multiset.nodup_cons.mpr ⟨fresh, linked.nodup⟩
  · intro timer member
    rw [acceptTimer_allocated]
    rw [entries_acceptTimer] at member
    rcases Multiset.mem_cons.mp member with same | old
    · cases same
      exact Nat.lt_succ_self _
    · exact Nat.lt_succ_of_lt (linked.allocated old)
  · intro timer member
    rw [entries_acceptTimer] at member
    rw [acceptTimer_timers, acceptTimer_user]
    rcases Multiset.mem_cons.mp member with same | old
    · cases same
      simp [isClient]
    · rw [Function.update_of_ne (linked.ne_allocated old)]
      by_cases same : (t.timers timer).userData = fd
      · rw [same, Function.update_self]
        exact ⟨isClient, rfl⟩
      · rw [Function.update_of_ne same]
        exact linked.user old
  · intro other isLive
    rw [acceptTimer_timers, acceptTimer_user, entries_acceptTimer]
    by_cases same : other = fd
    · subst same
      refine ⟨t.allocated, ?_, Multiset.mem_cons_self _ _, ?_⟩
      · rw [Function.update_self]
      · rw [Function.update_self, Function.update_self]
    · rw [Function.update_of_ne same] at isLive
      rcases linked.stored isLive with ⟨timer, stored, member, value⟩
      refine ⟨timer, ?_, Multiset.mem_cons_of_mem member, ?_⟩
      · rw [Function.update_of_ne same]
        exact stored
      · rw [Function.update_of_ne (linked.ne_allocated member), Function.update_of_ne same]
        exact value

theorem Exclusive.accept (exclusive : t.Exclusive live) (linked : t.Linked client live lastEvent)
    (now : Int) {fd : Fd} (unused : live fd = false) :
    (t.acceptTimer now fd).Exclusive (Function.update live fd true) := by
  intro timer member active
  rw [entries_acceptTimer] at member
  rw [acceptTimer_timers] at active ⊢
  rw [acceptTimer_user]
  rcases Multiset.mem_cons.mp member with same | old
  · cases same
    simp
  · rw [Function.update_of_ne (linked.ne_allocated old)] at active ⊢
    rcases exclusive timer old active with ⟨isLive, stored⟩
    have different : (t.timers timer).userData ≠ fd := by
      intro same
      rw [same, unused] at isLive
      cases isLive
    rw [Function.update_of_ne different, Function.update_of_ne different]
    exact ⟨isLive, stored⟩

/-! ## Activity -/

theorem Linked.adjust (linked : t.Linked client live lastEvent) (now : Int) {fd : Fd}
    (isLive : live fd = true) {timer : TimerId} (found : (t.user fd).timer = some timer) :
    (t.adjustTimer now timer).Linked client live (Function.update lastEvent fd now) := by
  rcases linked.of_stored isLive found with ⟨inHeap, value⟩
  have fresh : some t.allocated ∉ t.entries := fun member => linked.ne_allocated member rfl
  constructor
  · rw [entries_adjustTimer]
    exact Multiset.nodup_cons.mpr ⟨fresh, linked.nodup⟩
  · intro other member
    rw [adjustTimer_allocated]
    rw [entries_adjustTimer] at member
    rcases Multiset.mem_cons.mp member with same | old
    · cases same
      exact Nat.lt_succ_self _
    · exact Nat.lt_succ_of_lt (linked.allocated old)
  · intro other member
    rw [entries_adjustTimer] at member
    -- neither the retired timer nor the new one changes whose timer it is
    have keeps : ∀ user, ((t.adjustTimer now timer).user user).sockfd =
        (t.user user).sockfd := by
      intro user
      rw [adjustTimer_user, value]
      by_cases same : user = fd
      · subst same
        rw [Function.update_self]
      · rw [Function.update_of_ne same]
    rw [keeps, adjustTimer_timers]
    rcases Multiset.mem_cons.mp member with same | old
    · cases same
      rw [Function.update_self]
      exact linked.user inHeap
    · have same := congrArg UtilTimer.userData (t.delTimer_timers timer other)
      rw [delTimer, setTimer] at same
      rw [Function.update_of_ne (linked.ne_allocated old), same]
      exact linked.user old
  · intro other otherLive
    rw [adjustTimer_timers, adjustTimer_user, entries_adjustTimer, value]
    by_cases same : other = fd
    · subst same
      refine ⟨t.allocated, ?_, Multiset.mem_cons_self _ _, ?_⟩
      · rw [Function.update_self]
      · rw [Function.update_self, Function.update_self]
        rfl
    · rcases linked.stored otherLive with ⟨stored, atOther, member, otherValue⟩
      have different : stored ≠ timer := by
        rintro rfl
        rw [value] at otherValue
        exact same (congrArg UtilTimer.userData otherValue).symm
      refine ⟨stored, ?_, Multiset.mem_cons_of_mem member, ?_⟩
      · rw [Function.update_of_ne same]
        exact atOther
      · rw [Function.update_of_ne (linked.ne_allocated member), Function.update_of_ne different,
          Function.update_of_ne same]
        exact otherValue

theorem Exclusive.adjust (exclusive : t.Exclusive live) (linked : t.Linked client live lastEvent)
    (now : Int) {fd : Fd} (isLive : live fd = true) {timer : TimerId}
    (found : (t.user fd).timer = some timer) :
    (t.adjustTimer now timer).Exclusive live := by
  have value := (linked.of_stored isLive found).2
  intro other member active
  rw [entries_adjustTimer] at member
  rw [adjustTimer_timers, value] at active ⊢
  rw [adjustTimer_user, value]
  rcases Multiset.mem_cons.mp member with same | old
  · cases same
    simp [isLive]
  · rw [Function.update_of_ne (linked.ne_allocated old)] at active ⊢
    have different : other ≠ timer := by
      rintro rfl
      rw [Function.update_self] at active
      cases active
    rw [Function.update_of_ne different] at active ⊢
    rcases exclusive other old active with ⟨otherLive, stored⟩
    rw [Function.update_of_ne (user_ne_of_stored stored found different)]
    exact ⟨otherLive, stored⟩

/-! ## Ending a connection -/

/-- A descriptor that is not live any more needs no timer. -/
theorem Linked.forget (linked : t.Linked client live lastEvent) (fd : Fd) :
    t.Linked client (Function.update live fd false) lastEvent := by
  refine ⟨linked.nodup, linked.allocated, linked.user, ?_⟩
  intro other isLive
  have different : other ≠ fd := by
    rintro rfl
    rw [Function.update_self] at isLive
    cases isLive
  rw [Function.update_of_ne different] at isLive
  exact linked.stored isLive

theorem Linked.del (linked : t.Linked client live lastEvent) {fd : Fd} (isLive : live fd = true)
    {timer : TimerId} (found : (t.user fd).timer = some timer) :
    (t.delTimer timer).Linked client (Function.update live fd false) lastEvent := by
  have value := (linked.of_stored isLive found).2
  refine ⟨linked.nodup, linked.allocated, ?_, ?_⟩
  · intro other member
    rw [delTimer_timers]
    exact linked.user member
  · intro other otherLive
    rcases (linked.forget fd).stored otherLive with ⟨stored, atOther, member, otherValue⟩
    have different : stored ≠ timer := by
      rintro rfl
      rw [value] at otherValue
      have same : fd = other := congrArg UtilTimer.userData otherValue
      rw [same, Function.update_self] at otherLive
      cases otherLive
    refine ⟨stored, atOther, member, ?_⟩
    exact (Function.update_of_ne different _ _).trans otherValue

theorem Exclusive.del (exclusive : t.Exclusive live) {fd : Fd} {timer : TimerId}
    (found : (t.user fd).timer = some timer) :
    (t.delTimer timer).Exclusive (Function.update live fd false) := by
  intro other member active
  change (Function.update t.timers timer _ other).cbFunc = true at active
  have different : other ≠ timer := by
    rintro rfl
    rw [Function.update_self] at active
    cases active
  rw [Function.update_of_ne different] at active
  have same : (t.delTimer timer).timers other = t.timers other := Function.update_of_ne different ..
  rcases exclusive other member active with ⟨isLive, stored⟩
  rw [same]
  rw [Function.update_of_ne (user_ne_of_stored stored found different)]
  exact ⟨isLive, stored⟩

/-! ## Popping the root -/

/-- The root leaves the heap, as it is there only once. -/
theorem Linked.mem_popTimer (linked : t.Linked client live lastEvent) {root timer : TimerId}
    (many : t.curSize ≠ 0) (atRoot : t.array 0 = some root)
    (member : some timer ∈ t.popTimer.entries) : some timer ∈ t.entries ∧ timer ≠ root := by
  have nodup := linked.nodup
  rw [entries_popTimer many, atRoot] at nodup ⊢
  refine ⟨Multiset.mem_cons_of_mem member, ?_⟩
  rintro rfl
  exact (Multiset.nodup_cons.mp nodup).1 member

/-- Popping a timer that no live descriptor has stored. -/
theorem Linked.pop (linked : t.Linked client live lastEvent) {root : TimerId} (many : t.curSize ≠ 0)
    (atRoot : t.array 0 = some root)
    (retired : ∀ fd, live fd = true → (t.user fd).timer ≠ some root) :
    t.popTimer.Linked client live lastEvent := by
  have nodup := linked.nodup
  rw [entries_popTimer many, atRoot] at nodup
  have kept : ∀ {timer}, timer ≠ root → t.popTimer.timers timer = t.timers timer := by
    intro timer different
    rw [popTimer_timers many atRoot, Function.update_of_ne different]
  constructor
  · exact (Multiset.nodup_cons.mp nodup).2
  · intro timer member
    rw [popTimer_allocated]
    exact linked.allocated (linked.mem_popTimer many atRoot member).1
  · intro timer member
    rcases linked.mem_popTimer many atRoot member with ⟨old, different⟩
    rw [popTimer_user, kept different]
    exact linked.user old
  · intro fd isLive
    rcases linked.stored isLive with ⟨timer, stored, member, value⟩
    have different : timer ≠ root := by
      rintro rfl
      exact retired fd isLive stored
    rw [entries_popTimer many, atRoot] at member
    have remains : some timer ∈ t.popTimer.entries :=
      (Multiset.mem_cons.mp member).resolve_left fun same => different (Option.some.inj same)
    refine ⟨timer, ?_, remains, ?_⟩
    · rw [popTimer_user]
      exact stored
    · rw [kept different]
      exact value

/-- A timer fires, and its descriptor is not live any more. -/
theorem Linked.fire (linked : t.Linked client live lastEvent) {root : TimerId}
    (many : t.curSize ≠ 0) (atRoot : t.array 0 = some root) :
    t.popTimer.Linked client (Function.update live (t.timers root).userData false) lastEvent := by
  apply (linked.forget (t.timers root).userData).pop many atRoot
  intro fd isLive stored
  have value := ((linked.forget _).of_stored isLive stored).2
  rw [value, Function.update_self] at isLive
  cases isLive

/-- A retired timer is dropped. -/
theorem Linked.drop (linked : t.Linked client live lastEvent) {root : TimerId}
    (many : t.curSize ≠ 0) (atRoot : t.array 0 = some root)
    (retired : (t.timers root).cbFunc = false) :
    t.popTimer.Linked client live lastEvent := by
  apply linked.pop many atRoot
  intro fd isLive stored
  have value := (linked.of_stored isLive stored).2
  rw [value] at retired
  cases retired

theorem Exclusive.fire (exclusive : t.Exclusive live) (linked : t.Linked client live lastEvent)
    {root : TimerId} (many : t.curSize ≠ 0) (atRoot : t.array 0 = some root)
    (active : (t.timers root).cbFunc = true) :
    t.popTimer.Exclusive (Function.update live (t.timers root).userData false) := by
  intro timer member otherActive
  rcases linked.mem_popTimer many atRoot member with ⟨old, different⟩
  rw [popTimer_timers many atRoot, Function.update_of_ne different] at otherActive ⊢
  rw [popTimer_user]
  rcases exclusive timer old otherActive with ⟨isLive, stored⟩
  have atRootUser := (exclusive root (root_mem_entries many atRoot) active).2
  rw [Function.update_of_ne (user_ne_of_stored stored atRootUser different)]
  exact ⟨isLive, stored⟩

theorem Exclusive.drop (exclusive : t.Exclusive live) (linked : t.Linked client live lastEvent)
    {root : TimerId} (many : t.curSize ≠ 0) (atRoot : t.array 0 = some root) :
    t.popTimer.Exclusive live := by
  intro timer member active
  rcases linked.mem_popTimer many atRoot member with ⟨old, different⟩
  rw [popTimer_timers many atRoot, Function.update_of_ne different] at active ⊢
  rw [popTimer_user]
  exact exclusive timer old active

end Mprpc.Net.TimeHeap
