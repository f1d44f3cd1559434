import Mathlib.Data.List.Perm.Subperm

/-!
# A place that things pass through

Things enter a place in some order and leave it in another one.  While there are never
more than so many inside, what leaves cannot be far ahead: the things that have left
first are among those that have entered first, give or take the ones inside.
-/

namespace Mprpc

universe u

variable {α : Type u} {bound : Nat} {entered left inside after : List α} {x : α}

/-- What has entered has left or is inside, and what leaves as number `k` is one of the
first `k + bound` that have entered. -/
structure Passage (bound : Nat) (entered left inside : List α) : Prop where
  perm : entered.Perm (left ++ inside)
  early : ∀ k, (left.take k).Subperm (entered.take (k + bound))

namespace Passage

theorem empty (bound : Nat) : Passage bound ([] : List α) [] [] where
  perm := .nil
  early k := by
    rw [List.take_nil]
    exact List.nil_subperm

/-- Things move inside. -/
theorem move (passage : Passage bound entered left inside) (same : inside.Perm after) :
    Passage bound entered left after :=
  ⟨passage.perm.trans (same.append_left left), passage.early⟩

theorem enter (passage : Passage bound entered left inside) (more : after.Perm (x :: inside)) :
    Passage bound (entered ++ [x]) left after where
  perm := by
    have last : (entered ++ [x]).Perm (x :: entered) := List.perm_append_singleton x entered
    have middle : (x :: (left ++ inside)).Perm (left ++ x :: inside) := List.perm_middle.symm
    exact (last.trans (passage.perm.cons x)).trans (middle.trans (more.symm.append_left left))
  early k := by
    rw [List.take_append]
    exact (passage.early k).trans (List.sublist_append_left _ _).subperm

theorem leave (passage : Passage bound entered left inside) (fewer : inside.Perm (x :: after))
    (few : after.length ≤ bound) : Passage bound entered (left ++ [x]) after := by
  have perm : entered.Perm ((left ++ [x]) ++ after) := by
    rw [List.append_assoc]
    exact passage.perm.trans (fewer.append_left left)
  refine ⟨perm, fun k => ?_⟩
  by_cases before : k ≤ left.length
  · rw [List.take_append_of_le_length before]
    exact passage.early k
  · have total := perm.length_eq
    rw [List.length_append, List.length_append, List.length_singleton] at total
    have allLeft : (left ++ [x]).take k = left ++ [x] := by
      apply List.take_of_length_le
      rw [List.length_append, List.length_singleton]
      omega
    have allEntered : entered.take (k + bound) = entered := by
      apply List.take_of_length_le
      omega
    rw [allLeft, allEntered]
    exact (List.sublist_append_left _ after).subperm.trans perm.symm.subperm

end Passage

end Mprpc
