import Mathlib.Data.Set.Basic

/-!
# Copies of a watched source

A source has a current value and can be watched: the next change then makes a
refresh due.  Readers take copies of the current value and set the watch with
the same read; a copy lives on wherever it is stored or carried.  `Tracked` is
what keeps the copies from going stale for good, and each rule says what one
kind of event does to it.
-/

namespace Mprpc.Transition

universe u

/-- A source and the copies of it. -/
structure WatchedSource (α : Type u) where
  current : α
  watched : Prop
  refreshing : Prop
  copies : Set α

namespace WatchedSource

variable {α : Type u} {before after : WatchedSource α}

/-- Once there are copies, a refresh is due, or the watch is set and one of the
copies is up to date. -/
def Tracked (source : WatchedSource α) : Prop :=
  source.copies.Nonempty →
    source.refreshing ∨ source.watched ∧ source.current ∈ source.copies

/-- A change of a watched source makes a refresh due. -/
theorem Tracked.change (tracked : before.Tracked) (kept : after.copies = before.copies)
    (refreshes : before.refreshing → after.refreshing)
    (fires : before.watched → after.refreshing) : after.Tracked := by
  intro copied
  rw [kept] at copied
  rcases tracked copied with due | ⟨watched, -⟩
  · exact .inl (refreshes due)
  · exact .inl (fires watched)

/-- A read that takes a copy sets the watch with it. -/
theorem tracked_read (watched : after.watched) (copied : after.current ∈ after.copies) :
    after.Tracked :=
  fun _ => .inr ⟨watched, copied⟩

/-- A copy may be dropped while a refresh is due or an up-to-date one is left. -/
theorem Tracked.drop (tracked : before.Tracked) (same : after.current = before.current)
    (fewer : after.copies ⊆ before.copies) (refreshes : before.refreshing → after.refreshing)
    (watches : before.watched → after.watched)
    (left : before.current ∈ before.copies → before.refreshing ∨ before.current ∈ after.copies) :
    after.Tracked := by
  intro copied
  rcases tracked (copied.mono fewer) with due | ⟨watched, fresh⟩
  · exact .inl (refreshes due)
  · rcases left fresh with due | remains
    · exact .inl (refreshes due)
    · rw [same]
      exact .inr ⟨watches watched, remains⟩

/-- A step that leaves the source and its copies alone may set the watch or make
a refresh due. -/
theorem Tracked.keep (tracked : before.Tracked) (same : after.current = before.current)
    (kept : after.copies = before.copies) (refreshes : before.refreshing → after.refreshing)
    (watches : before.watched → after.watched) : after.Tracked := by
  apply tracked.drop same kept.subset refreshes watches
  intro fresh
  rw [kept]
  exact .inr fresh

/-- When no refresh is due, the only copy is up to date. -/
theorem Tracked.current_eq {source : WatchedSource α} (tracked : source.Tracked)
    (settled : ¬ source.refreshing) {copy : α} (copied : copy ∈ source.copies)
    (only : ∀ other ∈ source.copies, other = copy) : copy = source.current := by
  rcases tracked ⟨copy, copied⟩ with due | ⟨-, fresh⟩
  · exact absurd due settled
  · exact (only source.current fresh).symm

end WatchedSource

end Mprpc.Transition
