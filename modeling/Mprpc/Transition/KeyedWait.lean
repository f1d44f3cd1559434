import Mathlib.Algebra.BigOperators.Group.Finset.Basic
import Mathlib.Algebra.Order.BigOperators.Group.Finset
import Mathlib.Algebra.Order.Ring.Nat

/-!
# Waiting for an item of one's own or for a slot

Threads wait on one condition variable.  Each has a key and can go on with an
item of that key or with a slot, which serves any key.  A woken thread has
taken nothing yet; what it will take is no longer there for the sleepers.  The
backlog is what remains for them: slots that no woken thread needs, and items
of their own keys that no woken thread takes.  If every unit of the backlog is
matched by a notification still to come, no sleeper is forgotten.
-/

namespace Mprpc.Transition

universe u

/-- What is there to take, and who wants it, key by key. -/
structure KeyedWait (κ : Type u) where
  slots : Nat
  items : κ → Nat
  woken : κ → Nat
  asleep : κ → Nat

namespace KeyedWait

variable {κ : Type u}

/-- The slots that the woken threads of one key need. -/
def needs (wait : KeyedWait κ) (key : κ) : Nat :=
  wait.woken key - wait.items key

/-- The items of one key that are left for its sleepers. -/
def spareItems (wait : KeyedWait κ) (key : κ) : Nat :=
  if wait.asleep key = 0 then 0 else wait.items key - wait.woken key

/-- The slots that are left for the sleepers. -/
def spareSlots (wait : KeyedWait κ) (keys : Finset κ) : Nat :=
  wait.slots - ∑ key ∈ keys, wait.needs key

/-- What is left for the sleepers. -/
def backlog (wait : KeyedWait κ) (keys : Finset κ) : Nat :=
  wait.spareSlots keys + ∑ key ∈ keys, wait.spareItems key

/-- A sleeper of this key could go on after the woken threads. -/
def Proceeds (wait : KeyedWait κ) (keys : Finset κ) (key : κ) : Prop :=
  0 < wait.spareSlots keys ∨ wait.woken key < wait.items key

instance (wait : KeyedWait κ) (keys : Finset κ) (key : κ) :
    Decidable (wait.Proceeds keys key) :=
  inferInstanceAs (Decidable (_ ∨ _))

/-- While somebody sleeps, the backlog is covered by the notifications still to
come. -/
def Covered (wait : KeyedWait κ) (keys : Finset κ) (notifications : Nat) : Prop :=
  (∃ key ∈ keys, 0 < wait.asleep key) → wait.backlog keys ≤ notifications

/-- Two situations that differ at one key only, apart from the slots. -/
def AgreeOff (key : κ) (before after : KeyedWait κ) : Prop :=
  ∀ other, other ≠ key → after.items other = before.items other ∧
    after.woken other = before.woken other ∧ after.asleep other = before.asleep other

theorem sum_change {keys : Finset κ} {key : κ} (member : key ∈ keys) {before after : κ → Nat}
    (same : ∀ other, other ≠ key → after other = before other) :
    ∑ other ∈ keys, after other + before key = ∑ other ∈ keys, before other + after key := by
  classical
  have others : ∑ other ∈ keys.erase key, after other = ∑ other ∈ keys.erase key, before other :=
    Finset.sum_congr rfl fun other inside => same other (Finset.ne_of_mem_erase inside)
  have splitAfter := Finset.add_sum_erase keys after member
  have splitBefore := Finset.add_sum_erase keys before member
  omega

theorem needs_sum_change {keys : Finset κ} {key : κ} (member : key ∈ keys)
    {before after : KeyedWait κ} (agree : AgreeOff key before after) :
    ∑ other ∈ keys, after.needs other + before.needs key =
      ∑ other ∈ keys, before.needs other + after.needs key := by
  apply sum_change member
  intro other different
  rcases agree other different with ⟨items, woken, -⟩
  rw [needs, needs, items, woken]

theorem spareItems_sum_change {keys : Finset κ} {key : κ} (member : key ∈ keys)
    {before after : KeyedWait κ} (agree : AgreeOff key before after) :
    ∑ other ∈ keys, after.spareItems other + before.spareItems key =
      ∑ other ∈ keys, before.spareItems other + after.spareItems key := by
  apply sum_change member
  intro other different
  rcases agree other different with ⟨items, woken, asleep⟩
  rw [spareItems, spareItems, items, woken, asleep]

theorem le_sum_needs {keys : Finset κ} {key : κ} (member : key ∈ keys) (wait : KeyedWait κ) :
    wait.needs key ≤ ∑ other ∈ keys, wait.needs other :=
  Finset.single_le_sum (fun _ _ => Nat.zero_le _) member

theorem le_sum_spareItems {keys : Finset κ} {key : κ} (member : key ∈ keys)
    (wait : KeyedWait κ) : wait.spareItems key ≤ ∑ other ∈ keys, wait.spareItems other :=
  Finset.single_le_sum (fun _ _ => Nat.zero_le _) member

/-- The rule for a step at one key that puts nobody to sleep: it is enough that
the backlog cannot grow by more than the notifications do, whatever the other
keys contribute. -/
theorem Covered.change {keys : Finset κ} {key : κ} {before after : KeyedWait κ}
    {notifications later : Nat} (covered : before.Covered keys notifications)
    (member : key ∈ keys) (agree : AgreeOff key before after)
    (noSleeper : after.asleep key ≤ before.asleep key)
    (bounded : ∀ needed spare, before.needs key ≤ needed → before.spareItems key ≤ spare →
      before.slots - needed + spare ≤ notifications →
        after.slots - (needed - before.needs key + after.needs key) +
          (spare - before.spareItems key + after.spareItems key) ≤ later) :
    after.Covered keys later := by
  rintro ⟨other, inside, sleeps⟩
  have slept : ∃ other ∈ keys, 0 < before.asleep other := by
    by_cases same : other = key
    · subst same
      exact ⟨other, inside, Nat.lt_of_lt_of_le sleeps noSleeper⟩
    · rw [(agree other same).2.2] at sleeps
      exact ⟨other, inside, sleeps⟩
  have needsChange := needs_sum_change member agree
  have spareChange := spareItems_sum_change member agree
  have needsBound := le_sum_needs member before
  have spareBound := le_sum_spareItems member before
  have rule := bounded _ _ needsBound spareBound (covered slept)
  unfold backlog spareSlots
  have needsAfter : ∑ other ∈ keys, after.needs other =
      ∑ other ∈ keys, before.needs other - before.needs key + after.needs key := by
    omega
  have spareAfter : ∑ other ∈ keys, after.spareItems other =
      ∑ other ∈ keys, before.spareItems other - before.spareItems key + after.spareItems key := by
    omega
  rw [needsAfter, spareAfter]
  exact rule

/-- Keys that nobody uses may be added. -/
theorem Covered.of_subset {keys more : Finset κ} {wait : KeyedWait κ} {notifications : Nat}
    (covered : wait.Covered keys notifications) (subset : keys ⊆ more)
    (unused : ∀ key ∈ more, key ∉ keys → wait.woken key = 0 ∧ wait.asleep key = 0) :
    wait.Covered more notifications := by
  rintro ⟨key, inside, sleeps⟩
  have known : key ∈ keys := by
    by_contra unknown
    exact absurd (unused key inside unknown).2 (Nat.pos_iff_ne_zero.mp sleeps)
  have sameNeeds : ∑ other ∈ keys, wait.needs other = ∑ other ∈ more, wait.needs other := by
    apply Finset.sum_subset subset
    intro other isMore isNew
    simp [needs, (unused other isMore isNew).1]
  have sameSpare : ∑ other ∈ keys, wait.spareItems other =
      ∑ other ∈ more, wait.spareItems other := by
    apply Finset.sum_subset subset
    intro other isMore isNew
    simp [spareItems, (unused other isMore isNew).2]
  have bound := covered ⟨key, known, sleeps⟩
  unfold backlog spareSlots at bound ⊢
  rw [← sameNeeds, ← sameSpare]
  exact bound

/-- A thread goes to sleep when there is neither an item of its key nor a slot. -/
theorem Covered.sleep {keys : Finset κ} {key : κ} {before after : KeyedWait κ}
    {notifications : Nat} (covered : before.Covered keys notifications) (member : key ∈ keys)
    (agree : AgreeOff key before after)
    (noSlot : after.slots = 0) (noItem : before.items key = 0)
    (stillNoItem : after.items key = 0) : after.Covered keys notifications := by
  intro _
  have nothingBefore : before.spareItems key = 0 := by simp [spareItems, noItem]
  have nothingAfter : after.spareItems key = 0 := by simp [spareItems, stillNoItem]
  have spareChange := spareItems_sum_change member agree
  have left : after.backlog keys = ∑ other ∈ keys, before.spareItems other := by
    unfold backlog spareSlots
    omega
  rw [left]
  by_cases slept : ∃ other ∈ keys, 0 < before.asleep other
  · exact (Nat.le_add_left ..).trans (covered slept)
  · have nothing : ∑ other ∈ keys, before.spareItems other = 0 := by
      apply Finset.sum_eq_zero
      intro other inside
      have awake : before.asleep other = 0 := by
        by_contra sleeps
        exact slept ⟨other, inside, Nat.pos_of_ne_zero sleeps⟩
      simp [spareItems, awake]
    omega

/-- If no sleeper could go on, nothing is left for them. -/
theorem backlog_eq_zero {keys : Finset κ} {wait : KeyedWait κ} {key : κ} (member : key ∈ keys)
    (sleeps : 0 < wait.asleep key)
    (stuck : ∀ other ∈ keys, 0 < wait.asleep other → ¬ wait.Proceeds keys other) :
    wait.backlog keys = 0 := by
  have noSlots : wait.spareSlots keys = 0 := by
    have here := stuck key member sleeps
    unfold Proceeds at here
    omega
  have noItems : ∑ other ∈ keys, wait.spareItems other = 0 := by
    apply Finset.sum_eq_zero
    intro other inside
    by_cases awake : wait.asleep other = 0
    · simp [spareItems, awake]
    · have there := stuck other inside (Nat.pos_of_ne_zero awake)
      unfold Proceeds at there
      simp only [spareItems, awake, if_false]
      omega
  unfold backlog
  omega

/-! ### Units taken, added and matched -/

section Units

variable {keys : Finset κ} {key : κ} {before after : KeyedWait κ} {notifications : Nat}

/-- A thread takes an item of its key; it was woken or has just come. -/
theorem Covered.takeItem (covered : before.Covered keys notifications) (member : key ∈ keys)
    (agree : AgreeOff key before after) (slots : after.slots = before.slots)
    (items : after.items key + 1 = before.items key)
    (taker : after.woken key = before.woken key ∨ after.woken key + 1 = before.woken key)
    (asleep : after.asleep key = before.asleep key) : after.Covered keys notifications := by
  apply covered.change member agree (Nat.le_of_eq asleep)
  intro needed spare needsBound spareBound bound
  simp only [needs, spareItems, asleep] at *
  split at spareBound <;> simp_all only [if_true, if_false] <;> omega

/-- A thread takes a slot, when its key has no item. -/
theorem Covered.takeSlot (covered : before.Covered keys notifications) (member : key ∈ keys)
    (agree : AgreeOff key before after) (slots : after.slots + 1 = before.slots)
    (noItem : before.items key = 0) (stillNoItem : after.items key = 0)
    (taker : after.woken key = before.woken key ∨ after.woken key + 1 = before.woken key)
    (asleep : after.asleep key = before.asleep key) : after.Covered keys notifications := by
  apply covered.change member agree (Nat.le_of_eq asleep)
  intro needed spare needsBound spareBound bound
  simp only [needs, spareItems, asleep, noItem, stillNoItem] at *
  split at spareBound <;> simp_all only [if_true, if_false] <;> omega

/-- A sleeper wakes up by itself. -/
theorem Covered.wakeUnasked (covered : before.Covered keys notifications) (member : key ∈ keys)
    (agree : AgreeOff key before after) (slots : after.slots = before.slots)
    (items : after.items key = before.items key)
    (wakes : after.woken key = before.woken key + 1)
    (slept : after.asleep key + 1 = before.asleep key) : after.Covered keys notifications := by
  apply covered.change member agree (Nat.le.intro slept)
  intro needed spare needsBound spareBound bound
  have sleeps : before.asleep key ≠ 0 := by omega
  simp only [needs, spareItems, sleeps, if_false, items, wakes] at *
  split <;> omega

/-- An item is added, with a notification to follow. -/
theorem Covered.addItem (covered : before.Covered keys notifications) (member : key ∈ keys)
    (agree : AgreeOff key before after) (slots : after.slots = before.slots)
    (items : after.items key = before.items key + 1) (woken : after.woken key = before.woken key)
    (asleep : after.asleep key = before.asleep key) :
    after.Covered keys (notifications + 1) := by
  apply covered.change member agree (Nat.le_of_eq asleep)
  intro needed spare needsBound spareBound bound
  simp only [needs, spareItems, asleep, items, woken] at *
  split at spareBound <;> simp_all only [if_true, if_false] <;> omega

/-- A slot is added, with a notification to follow. -/
theorem Covered.addSlot (covered : before.Covered keys notifications)
    (slots : after.slots ≤ before.slots + 1) (items : after.items = before.items)
    (woken : after.woken = before.woken) (asleep : after.asleep = before.asleep) :
    after.Covered keys (notifications + 1) := by
  have sameNeeds : after.needs = before.needs := by
    funext other
    rw [needs, needs, items, woken]
  have sameSpare : after.spareItems = before.spareItems := by
    funext other
    rw [spareItems, spareItems, items, woken, asleep]
  unfold Covered backlog spareSlots at *
  rw [sameNeeds, sameSpare, asleep]
  intro slept
  have bound := covered slept
  omega

/-- A notification that wakes a thread which can go on, or any thread when none
can, covers one unit. -/
theorem Covered.wake (covered : before.Covered keys (notifications + 1)) (member : key ∈ keys)
    (agree : AgreeOff key before after) (sameSlots : after.slots = before.slots)
    (sameItems : after.items key = before.items key)
    (wakes : after.woken key = before.woken key + 1)
    (slept : after.asleep key + 1 = before.asleep key)
    (ready : before.Proceeds keys key ∨
      ∀ other ∈ keys, 0 < before.asleep other → ¬ before.Proceeds keys other) :
    after.Covered keys notifications := by
  intro _
  have sleeps : 0 < before.asleep key := by omega
  have needsChange := needs_sum_change member agree
  have spareChange := spareItems_sum_change member agree
  have needsBound := le_sum_needs member before
  have spareBound := le_sum_spareItems member before
  have bound := covered ⟨key, member, sleeps⟩
  have needsHere : after.needs key = before.woken key + 1 - before.items key := by
    rw [needs, wakes, sameItems]
  have spareBefore : before.spareItems key = before.items key - before.woken key := by
    rw [spareItems, if_neg (Nat.pos_iff_ne_zero.mp sleeps)]
  have spareHere : after.spareItems key ≤ before.items key - (before.woken key + 1) := by
    unfold spareItems
    split
    · exact Nat.zero_le _
    · rw [sameItems, wakes]
  rcases ready with proceeds | stuck
  · unfold Proceeds at proceeds
    unfold backlog spareSlots needs at *
    omega
  · have nothing := backlog_eq_zero member sleeps stuck
    unfold backlog spareSlots needs at *
    omega

end Units

/-- When no notification is to come and no woken thread is left, a sleeper has
nothing to go on with. -/
theorem Covered.nothing_left {keys : Finset κ} {wait : KeyedWait κ} {key : κ}
    (covered : wait.Covered keys 0) (member : key ∈ keys) (sleeps : 0 < wait.asleep key)
    (settled : ∀ other ∈ keys, wait.woken other = 0) :
    wait.slots = 0 ∧ wait.items key = 0 := by
  have bound := covered ⟨key, member, sleeps⟩
  have noNeeds : ∑ other ∈ keys, wait.needs other = 0 := by
    apply Finset.sum_eq_zero
    intro other inside
    simp [needs, settled other inside]
  have spareBound := le_sum_spareItems member wait
  have spareHere : wait.spareItems key = wait.items key := by
    simp [spareItems, settled key member, Nat.pos_iff_ne_zero.mp sleeps]
  unfold backlog spareSlots at bound
  omega

end KeyedWait

end Mprpc.Transition
