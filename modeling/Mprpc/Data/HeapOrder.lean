import Mprpc.Data.ArrayHeap

/-!
# The order of array heaps

An array heap is in order when no entry expires before the one above it, and
then the root expires first of all.  A hole on its way up or down may break the
order only where its entry will be written; `RisingHole` and `SinkingHole` say
what holds meanwhile.
-/

namespace Mprpc.ArrayHeap

universe u

variable {α : Type u}

/-- The time of an entry.  Null entries have none that matters. -/
def time (expire : α → Int) (entry : Option α) : Int :=
  (entry.map expire).getD 0

/-- `below` is one of the two children of `above`. -/
def IsChild (above below : Nat) : Prop :=
  below = above * 2 + 1 ∨ below = above * 2 + 2

theorem IsChild.lt {above below : Nat} (child : IsChild above below) : above < below := by
  unfold IsChild at child
  omega

theorem IsChild.parent_unique {first second below : Nat} (one : IsChild first below)
    (other : IsChild second below) : first = second := by
  unfold IsChild at one other
  omega

theorem isChild_parent {hole : Nat} (notRoot : hole ≠ 0) : IsChild ((hole - 1) / 2) hole := by
  unfold IsChild
  omega

/-- No entry in use is null. -/
def Filled (array : Nat → Option α) (size : Nat) : Prop :=
  ∀ index < size, array index ≠ none

/-- No entry in use expires before its parent. -/
def InOrder (expire : α → Int) (array : Nat → Option α) (size : Nat) : Prop :=
  ∀ above below, IsChild above below → below < size →
    time expire (array above) ≤ time expire (array below)

variable {expire : α → Int} {array : Nat → Option α} {size hole : Nat}

theorem mem_contents_iff {entry : Option α} :
    entry ∈ contents array size ↔ ∃ index < size, array index = entry := by
  simp [contents]

theorem Filled.congr (filled : Filled array size) {array' : Nat → Option α}
    (same : ∀ index < size, array' index = array index) : Filled array' size := by
  intro index inside
  rw [same index inside]
  exact filled index inside

theorem InOrder.congr (order : InOrder expire array size) {array' : Nat → Option α}
    (same : ∀ index < size, array' index = array index) : InOrder expire array' size := by
  intro above below child inside
  rw [same above (Nat.lt_trans child.lt inside), same below inside]
  exact order above below child inside

/-- Only the times of the entries in use matter. -/
theorem InOrder.congr_expire (order : InOrder expire array size) {expire' : α → Int}
    (same : ∀ entry, some entry ∈ contents array size → expire' entry = expire entry) :
    InOrder expire' array size := by
  have sameTime : ∀ index < size, time expire' (array index) = time expire (array index) := by
    intro index inside
    cases found : array index with
    | none => rfl
    | some entry => exact same entry (mem_contents_iff.mpr ⟨index, inside, found⟩)
  intro above below child inside
  rw [sameTime above (Nat.lt_trans child.lt inside), sameTime below inside]
  exact order above below child inside

/-- The root expires first. -/
theorem InOrder.root_le (order : InOrder expire array size) {index : Nat} (inside : index < size) :
    time expire (array 0) ≤ time expire (array index) := by
  induction index using Nat.strongRecOn with
  | ind index inductionHypothesis =>
      by_cases root : index = 0
      · rw [root]
      · have child := isChild_parent root
        have above := inductionHypothesis _ child.lt (Nat.lt_trans child.lt inside)
        exact above.trans (order _ _ child inside)

/-! ## Holes -/

/-- A hole on its way up, for `entry`: the order may be broken at the hole only,
and all below the hole may stand below `entry` and below the hole's parent. -/
structure RisingHole (expire : α → Int) (array : Nat → Option α) (size hole : Nat) (entry : α) :
    Prop where
  inside : hole < size
  filled : ∀ index < size, index ≠ hole → array index ≠ none
  order : ∀ above below, IsChild above below → below < size → above ≠ hole → below ≠ hole →
    time expire (array above) ≤ time expire (array below)
  across : ∀ above below, IsChild above hole → IsChild hole below → below < size →
    time expire (array above) ≤ time expire (array below)
  bounded : ∀ below, IsChild hole below → below < size →
    expire entry ≤ time expire (array below)

/-- A hole on its way down: `entry` may stand below the hole's parent. -/
structure SinkingHole (expire : α → Int) (array : Nat → Option α) (size hole : Nat)
    (entry : Option α) : Prop where
  inside : hole < size
  filled : ∀ index < size, index ≠ hole → array index ≠ none
  written : entry ≠ none
  order : ∀ above below, IsChild above below → below < size → above ≠ hole → below ≠ hole →
    time expire (array above) ≤ time expire (array below)
  across : ∀ above below, IsChild above hole → IsChild hole below → below < size →
    time expire (array above) ≤ time expire (array below)
  bounded : ∀ above, IsChild above hole → time expire (array above) ≤ time expire entry

/-- Writing into the hole. -/
theorem filled_update {value : Option α} (written : value ≠ none)
    (filled : ∀ index < size, index ≠ hole → array index ≠ none) :
    Filled (Function.update array hole value) size := by
  intro index inside
  by_cases same : index = hole
  · rw [same, Function.update_self]
    exact written
  · rw [Function.update_of_ne same]
    exact filled index inside same

/-- The entry may be written when it fits between the hole's neighbours. -/
theorem inOrder_update {value : Option α}
    (order : ∀ above below, IsChild above below → below < size → above ≠ hole → below ≠ hole →
      time expire (array above) ≤ time expire (array below))
    (above : ∀ above, IsChild above hole → time expire (array above) ≤ time expire value)
    (below : ∀ below, IsChild hole below → below < size →
      time expire value ≤ time expire (array below)) :
    InOrder expire (Function.update array hole value) size := by
  intro parent child isChild inside
  have different := isChild.lt.ne
  by_cases atParent : parent = hole
  · subst atParent
    rw [Function.update_self, Function.update_of_ne different.symm]
    exact below child isChild inside
  · rw [Function.update_of_ne atParent]
    by_cases atChild : child = hole
    · subst atChild
      rw [Function.update_self]
      exact above parent isChild
    · rw [Function.update_of_ne atChild]
      exact order parent child isChild inside atParent atChild

theorem RisingHole.finish {entry : α} (rising : RisingHole expire array size hole entry)
    (above : ∀ above, IsChild above hole → time expire (array above) ≤ expire entry) :
    Filled (Function.update array hole (some entry)) size ∧
      InOrder expire (Function.update array hole (some entry)) size :=
  ⟨filled_update (Option.some_ne_none entry) rising.filled,
    inOrder_update rising.order above rising.bounded⟩

/-- The hole moves to its parent, which is later than `entry`. -/
theorem RisingHole.move {entry above : α} {parent : Nat}
    (rising : RisingHole expire array size hole entry) (child : IsChild parent hole)
    (found : array parent = some above) (later : expire entry ≤ expire above) :
    RisingHole expire (Function.update array hole (some above)) size parent entry := by
  have different := child.lt.ne
  have atHole : time expire (some above) = time expire (array parent) := by rw [found]
  constructor
  · exact Nat.lt_trans child.lt rising.inside
  · intro index inside notParent
    by_cases same : index = hole
    · rw [same, Function.update_self]
      exact Option.some_ne_none above
    · rw [Function.update_of_ne same]
      exact rising.filled index inside same
  · intro first second isChild inside notFirst notSecond
    have notHole : second ≠ hole := by
      rintro rfl
      exact notFirst (isChild.parent_unique child)
    rw [Function.update_of_ne notHole]
    by_cases same : first = hole
    · subst same
      rw [Function.update_self, atHole]
      exact rising.across parent second child isChild inside
    · rw [Function.update_of_ne same]
      exact rising.order first second isChild inside same notHole
  · intro first second isAbove isBelow inside
    have notHole : first ≠ hole := (isAbove.lt.trans child.lt).ne
    have upper := rising.order first parent isAbove (child.lt.trans rising.inside) notHole different
    rw [Function.update_of_ne notHole]
    by_cases same : second = hole
    · rw [same, Function.update_self, atHole]
      exact upper
    · rw [Function.update_of_ne same]
      exact upper.trans (rising.order parent second isBelow inside different same)
  · intro second isBelow inside
    by_cases same : second = hole
    · rw [same, Function.update_self]
      exact later
    · rw [Function.update_of_ne same]
      have lower := rising.order parent second isBelow inside different same
      rw [found] at lower
      exact later.trans lower

theorem inOrder_percolateUp {entry : α} (rising : RisingHole expire array size hole entry) :
    Filled (percolateUp expire entry array hole) size ∧
      InOrder expire (percolateUp expire entry array hole) size := by
  fun_induction percolateUp expire entry array hole with
  | case1 array =>
      apply rising.finish
      intro above child
      exact absurd child.lt (Nat.not_lt_zero above)
  | case2 array hole notRoot parent null =>
      have child := isChild_parent notRoot
      exact absurd null (rising.filled parent (child.lt.trans rising.inside) child.lt.ne)
  | case3 array hole notRoot parent above found notLater =>
      apply rising.finish
      intro other child
      rw [child.parent_unique (isChild_parent notRoot),
        show (hole - 1) / 2 = parent from rfl, found]
      exact notLater
  | case4 array hole notRoot parent above found later inductionHypothesis =>
      exact inductionHypothesis
        (rising.move (isChild_parent notRoot) found (Int.le_of_lt (Int.not_le.mp later)))

/-- A new entry at the end. -/
theorem inOrder_push (filled : Filled array size) (order : InOrder expire array size) (entry : α) :
    Filled (percolateUp expire entry array size) (size + 1) ∧
      InOrder expire (percolateUp expire entry array size) (size + 1) := by
  apply inOrder_percolateUp
  have noChild : ∀ {below}, IsChild size below → ¬ below < size + 1 := by
    intro below child
    have := child.lt
    omega
  constructor
  · exact Nat.lt_succ_self size
  · intro index inside different
    exact filled index (by omega)
  · intro above below child inside _ different
    exact order above below child (by omega)
  · intro above below _ child inside
    exact absurd inside (noChild child)
  · intro below child inside
    exact absurd inside (noChild child)

/-! ## Sinking -/

theorem earlier_eq_false_iff {first second : Option α} (isFirst : first ≠ none)
    (isSecond : second ≠ none) :
    earlier expire first second = false ↔ time expire second ≤ time expire first := by
  cases first with
  | none => exact absurd rfl isFirst
  | some first =>
      cases second with
      | none => exact absurd rfl isSecond
      | some second => simp [earlier, time]

/-- `earlierChild` picks the earlier of two children. -/
theorem earlierChild_le (filled : ∀ index < size, index ≠ hole → array index ≠ none)
    {below : Nat} (child : IsChild hole below) (inside : below < size) :
    time expire (array (earlierChild expire array size hole)) ≤ time expire (array below) := by
  have left : hole * 2 + 1 < size := by
    unfold IsChild at child
    omega
  have leftFilled := filled (hole * 2 + 1) left (by omega)
  unfold earlierChild
  by_cases right : hole * 2 + 1 < size - 1
  · have rightFilled := filled (hole * 2 + 1 + 1) (by omega) (by omega)
    cases picked : earlier expire (array (hole * 2 + 1 + 1)) (array (hole * 2 + 1)) with
    | true =>
        rw [if_pos ⟨right, picked⟩]
        rcases child with rfl | rfl
        · have notLater : ¬ earlier expire (array (hole * 2 + 1 + 1)) (array (hole * 2 + 1)) =
              false := by simp [picked]
          rw [earlier_eq_false_iff rightFilled leftFilled] at notLater
          omega
        · exact Int.le_refl _
    | false =>
        rw [if_neg (by simp [picked])]
        rcases child with rfl | rfl
        · exact Int.le_refl _
        · exact (earlier_eq_false_iff rightFilled leftFilled).mp picked
  · rw [if_neg fun both => right both.1]
    rcases child with rfl | rfl
    · exact Int.le_refl _
    · omega

theorem SinkingHole.finish {entry : Option α} (sinking : SinkingHole expire array size hole entry)
    (below : ∀ below, IsChild hole below → below < size →
      time expire entry ≤ time expire (array below)) :
    Filled (Function.update array hole entry) size ∧
      InOrder expire (Function.update array hole entry) size :=
  ⟨filled_update sinking.written sinking.filled,
    inOrder_update sinking.order sinking.bounded below⟩

/-- The hole moves to its earlier child, which is earlier than `entry`. -/
theorem SinkingHole.move {entry : Option α} {child : Nat}
    (sinking : SinkingHole expire array size hole entry) (isChild : IsChild hole child)
    (inside : child < size) (isEarlier : time expire (array child) ≤ time expire entry)
    (least : ∀ below, IsChild hole below → below < size →
      time expire (array child) ≤ time expire (array below)) :
    SinkingHole expire (Function.update array hole (array child)) size child entry := by
  have different := isChild.lt.ne'
  constructor
  · exact inside
  · intro index indexInside notChild
    by_cases same : index = hole
    · rw [same, Function.update_self]
      exact sinking.filled child inside different
    · rw [Function.update_of_ne same]
      exact sinking.filled index indexInside same
  · exact sinking.written
  · intro first second pair secondInside notFirst notSecond
    by_cases atFirst : first = hole
    · subst atFirst
      rw [Function.update_self, Function.update_of_ne pair.lt.ne']
      exact least second pair secondInside
    · rw [Function.update_of_ne atFirst]
      by_cases atSecond : second = hole
      · subst atSecond
        rw [Function.update_self]
        exact sinking.across first child pair isChild inside
      · rw [Function.update_of_ne atSecond]
        exact sinking.order first second pair secondInside atFirst atSecond
  · intro first second isAbove isBelow secondInside
    rw [isAbove.parent_unique isChild, Function.update_self,
      Function.update_of_ne (isChild.lt.trans isBelow.lt).ne']
    exact sinking.order child second isBelow secondInside different
      (isChild.lt.trans isBelow.lt).ne'
  · intro first isAbove
    rw [isAbove.parent_unique isChild, Function.update_self]
    exact isEarlier

theorem inOrder_percolateDown {entry : Option α}
    (sinking : SinkingHole expire array size hole entry) :
    Filled (percolateDown expire entry size array hole) size ∧
      InOrder expire (percolateDown expire entry size array hole) size := by
  fun_induction percolateDown expire entry size array hole with
  | case1 array hole hasChild child isEarlier inductionHypothesis =>
      have picked := earlierChild_eq expire array size hole
      have isChild : IsChild hole child := by
        unfold IsChild
        omega
      have inside : child < size := by omega
      have childFilled := sinking.filled child inside isChild.lt.ne'
      apply inductionHypothesis
      apply sinking.move isChild inside
      · have notLater : ¬ earlier expire (array child) entry = false := by simp [isEarlier]
        rw [earlier_eq_false_iff childFilled sinking.written] at notLater
        omega
      · intro below isBelow belowInside
        exact earlierChild_le sinking.filled isBelow belowInside
  | case2 array hole hasChild child notEarlier =>
      have picked := earlierChild_eq expire array size hole
      have inside : child < size := by omega
      have childFilled := sinking.filled child inside (by omega)
      have bound : time expire entry ≤ time expire (array child) :=
        (earlier_eq_false_iff childFilled sinking.written).mp (Bool.eq_false_iff.mpr notEarlier)
      apply sinking.finish
      intro below isBelow belowInside
      exact bound.trans (earlierChild_le sinking.filled isBelow belowInside)
  | case3 array hole leaf =>
      apply sinking.finish
      intro below isBelow belowInside
      unfold IsChild at isBelow
      omega

/-- Popping the root. -/
theorem inOrder_popRoot (filled : Filled array (size + 1))
    (order : InOrder expire array (size + 1)) :
    Filled (popRoot expire (size + 1) array) size ∧
      InOrder expire (popRoot expire (size + 1) array) size := by
  cases size with
  | zero =>
      constructor
      · intro index inside
        exact absurd inside (Nat.not_lt_zero index)
      · intro above below _ inside
        exact absurd inside (Nat.not_lt_zero below)
  | succ n =>
      have kept : ∀ {index}, index ≠ 0 → Function.update (Function.update array 0 none) 0
          (Function.update array 0 none (n + 1)) index = array index := by
        intro index notRoot
        rw [Function.update_of_ne notRoot, Function.update_of_ne notRoot]
      unfold popRoot
      dsimp only
      rw [Nat.add_sub_cancel]
      apply inOrder_percolateDown
      constructor
      · exact Nat.succ_pos n
      · intro index inside notRoot
        rw [kept notRoot]
        exact filled index (Nat.lt_succ_of_lt inside)
      · rw [Function.update_self, Function.update_of_ne (Nat.succ_ne_zero n)]
        exact filled (n + 1) (Nat.lt_succ_self _)
      · intro above below child inside notRoot notBelow
        rw [kept notRoot, kept notBelow]
        exact order above below child (Nat.lt_succ_of_lt inside)
      · intro above below child
        exact absurd child.lt (Nat.not_lt_zero above)
      · intro above child
        exact absurd child.lt (Nat.not_lt_zero above)

end Mprpc.ArrayHeap
