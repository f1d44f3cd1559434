import Mathlib.Algebra.Order.Ring.Nat
import Mathlib.Data.Multiset.Range
import Mathlib.Logic.Function.Basic

/-!
# Heaps in an array

Percolation with a moving hole, as array heaps use it: entries are copied into
the hole until the place of the new entry is found, and the entry is written
once.  An array is a function on all indices, of which the first `size` are in
use; `none` is a null entry.

`contents` is the multiset of the entries in use, and `others` leaves out the
hole.  A copy into the hole moves the hole and keeps `others`.
-/

namespace Mprpc.ArrayHeap

universe u

variable {α : Type u}

/-- The entries in use. -/
def contents (array : Nat → Option α) (size : Nat) : Multiset (Option α) :=
  (Multiset.range size).map array

/-- The entries in use but for the hole. -/
def others (array : Nat → Option α) (size hole : Nat) : Multiset (Option α) :=
  ((Multiset.range size).erase hole).map array

/-- Move a hole towards the root until its parent is not later than `entry`, and
write the entry there. -/
def percolateUp (expire : α → Int) (entry : α) (array : Nat → Option α) (hole : Nat) :
    Nat → Option α :=
  if hole = 0 then Function.update array 0 (some entry)
  else
    let parent := (hole - 1) / 2
    match array parent with
    | none => Function.update array hole (some entry)
    | some above =>
        if expire above ≤ expire entry then Function.update array hole (some entry)
        else percolateUp expire entry (Function.update array hole (some above)) parent
termination_by hole
decreasing_by omega

/-- The comparison of two entries; entries in use are never null. -/
def earlier (expire : α → Int) : Option α → Option α → Bool
  | some first, some second => decide (expire first < expire second)
  | _, _ => false

/-- The earlier child of a position, the left one when both are level. -/
def earlierChild (expire : α → Int) (array : Nat → Option α) (size hole : Nat) : Nat :=
  let child := hole * 2 + 1
  if child < size - 1 ∧ earlier expire (array (child + 1)) (array child) = true then child + 1
  else child

theorem earlierChild_eq (expire : α → Int) (array : Nat → Option α) (size hole : Nat) :
    earlierChild expire array size hole = hole * 2 + 1 ∨
      earlierChild expire array size hole = hole * 2 + 2 ∧ hole * 2 + 2 < size := by
  unfold earlierChild
  by_cases right : hole * 2 + 1 < size - 1 ∧
      earlier expire (array (hole * 2 + 1 + 1)) (array (hole * 2 + 1)) = true
  · rw [if_pos right]
    omega
  · rw [if_neg right]
    exact .inl rfl

/-- Move a hole towards the leaves until no child is earlier than `entry`, and
write the entry there. -/
def percolateDown (expire : α → Int) (entry : Option α) (size : Nat) (array : Nat → Option α)
    (hole : Nat) : Nat → Option α :=
  if hole * 2 + 1 < size then
    let child := earlierChild expire array size hole
    if earlier expire (array child) entry then
      percolateDown expire entry size (Function.update array hole (array child)) child
    else Function.update array hole entry
  else Function.update array hole entry
termination_by size - hole
decreasing_by
  have below := earlierChild_eq expire array size hole
  omega

/-- Clear the root, put the last entry in its place and let it sink among the
`size - 1` entries that are left. -/
def popRoot (expire : α → Int) (size : Nat) (array : Nat → Option α) : Nat → Option α :=
  let array := Function.update array 0 none
  let array := Function.update array 0 (array (size - 1))
  percolateDown expire (array 0) (size - 1) array 0

/-! ## Percolation keeps the entries -/

variable {expire : α → Int} {array : Nat → Option α} {size hole : Nat}

theorem mem_others_index {index : Nat} :
    index ∈ (Multiset.range size).erase hole ↔ index ≠ hole ∧ index < size := by
  rw [(Multiset.nodup_range size).mem_erase_iff, Multiset.mem_range]

theorem others_update (value : Option α) :
    others (Function.update array hole value) size hole = others array size hole := by
  apply Multiset.map_congr rfl
  intro index member
  exact Function.update_of_ne (mem_others_index.mp member).1 _ _

/-- Writing into the hole completes the entries. -/
theorem contents_update (value : Option α) (inside : hole < size) :
    contents (Function.update array hole value) size = value ::ₘ others array size hole := by
  have split := Multiset.cons_erase (Multiset.mem_range.mpr inside)
  rw [← others_update value, contents, ← split, Multiset.map_cons, Function.update_self]
  rfl

theorem contents_eq_cons (inside : hole < size) :
    contents array size = array hole ::ₘ others array size hole := by
  rw [← contents_update (array hole) inside, Function.update_eq_self]

/-- A copy into the hole moves the hole to where it came from. -/
theorem others_copy {source : Nat} (different : source ≠ hole) (inside : hole < size)
    (sourceInside : source < size) :
    others (Function.update array hole (array source)) size source = others array size hole := by
  have fromHole : hole ∈ (Multiset.range size).erase source :=
    mem_others_index.mpr ⟨different.symm, inside⟩
  have fromSource : source ∈ (Multiset.range size).erase hole :=
    mem_others_index.mpr ⟨different, sourceInside⟩
  have rest : (((Multiset.range size).erase hole).erase source).map
      (Function.update array hole (array source)) =
        (((Multiset.range size).erase hole).erase source).map array := by
    apply Multiset.map_congr rfl
    intro index member
    have kept := mem_others_index.mp (Multiset.mem_of_mem_erase member)
    exact Function.update_of_ne kept.1 _ _
  unfold others
  rw [← Multiset.cons_erase fromHole, ← Multiset.cons_erase fromSource, Multiset.map_cons,
    Multiset.map_cons, Function.update_self, Multiset.erase_comm, rest]

theorem contents_percolateUp (entry : α) (inside : hole < size) :
    contents (percolateUp expire entry array hole) size =
      some entry ::ₘ others array size hole := by
  fun_induction percolateUp expire entry array hole with
  | case1 array => exact contents_update _ inside
  | case2 array hole notRoot parent null => exact contents_update _ inside
  | case3 array hole notRoot parent above found notLater => exact contents_update _ inside
  | case4 array hole notRoot parent above found later inductionHypothesis =>
      have parentBelow : parent < hole := by omega
      rw [inductionHypothesis (Nat.lt_trans parentBelow inside), ← found,
        others_copy parentBelow.ne inside (Nat.lt_trans parentBelow inside)]

theorem contents_percolateDown (entry : Option α) (inside : hole < size) :
    contents (percolateDown expire entry size array hole) size =
      entry ::ₘ others array size hole := by
  fun_induction percolateDown expire entry size array hole with
  | case1 array hole hasChild child isEarlier inductionHypothesis =>
      have below := earlierChild_eq expire array size hole
      have childInside : child < size := by omega
      have childBelow : hole < child := by omega
      rw [inductionHypothesis childInside, others_copy childBelow.ne' inside childInside]
  | case2 array hole hasChild child notEarlier => exact contents_update _ inside
  | case3 array hole leaf => exact contents_update _ inside

/-- A new entry at the end. -/
theorem contents_push (entry : α) :
    contents (percolateUp expire entry array size) (size + 1) =
      some entry ::ₘ contents array size := by
  rw [contents_percolateUp entry (Nat.lt_succ_self size)]
  congr 1
  rw [contents, others, Multiset.range_succ, Multiset.erase_cons_head]

theorem contents_succ (array : Nat → Option α) (size : Nat) :
    contents array (size + 1) = array size ::ₘ contents array size := by
  rw [contents, Multiset.range_succ, Multiset.map_cons]
  rfl

/-- When the only entry is popped, the root is cleared. -/
theorem popRoot_one (array : Nat → Option α) : popRoot expire 1 array 0 = none := by
  unfold popRoot percolateDown
  rw [if_neg (Nat.not_lt_zero _), Function.update_self, Function.update_self, Nat.sub_self,
    Function.update_self]

/-- Popping takes out the root. -/
theorem contents_popRoot (array : Nat → Option α) (size : Nat) :
    contents array (size + 1) =
      array 0 ::ₘ contents (popRoot expire (size + 1) array) size := by
  cases size with
  | zero => rfl
  | succ n =>
      have last : Function.update array 0 none (n + 1) = array (n + 1) :=
        Function.update_of_ne (Nat.succ_ne_zero n) _ _
      have sunk : contents (popRoot expire (n + 1 + 1) array) (n + 1) =
          array (n + 1) ::ₘ others array (n + 1) 0 := by
        unfold popRoot
        dsimp only
        rw [Nat.add_sub_cancel, contents_percolateDown _ (Nat.succ_pos n), others_update,
          others_update, Function.update_self, last]
      rw [contents_succ, contents_eq_cons (Nat.succ_pos n), sunk, Multiset.cons_swap]

end Mprpc.ArrayHeap
