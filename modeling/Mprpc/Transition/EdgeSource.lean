import Mathlib.Data.List.Basic

/-!
# Sources under edge-triggered notification

A source holds items that wait to be taken.  An arrival raises an edge, and the
edge is reported once, however many items there are by then.  So whoever gets the
report must take all items, or those that are left wait for the next arrival.

`Attended` is what a correct reader keeps: items are left only while an edge is
unreported or a report is still to be handled.  Each rule says what one kind of
event does to it.
-/

namespace Mprpc.Transition

universe u

/-- The items of a source, in order, and whether there is an unreported edge. -/
structure EdgeSource (β : Type u) where
  pending : List β
  edge : Bool
  deriving DecidableEq, Repr

namespace EdgeSource

variable {β : Type u}

/-- A source that is registered while it holds items reports them. -/
def register (pending : List β) : EdgeSource β where
  pending := pending
  edge := !pending.isEmpty

/-- One more item. -/
def arrive (source : EdgeSource β) (item : β) : EdgeSource β where
  pending := source.pending ++ [item]
  edge := true

/-- The edge is reported. -/
def report (source : EdgeSource β) : EdgeSource β :=
  { source with edge := false }

/-- At most `n` items are taken. -/
def take (source : EdgeSource β) (n : Nat) : EdgeSource β :=
  { source with pending := source.pending.drop n }

/-- Nothing is left, or an edge is unreported. -/
def Settled (source : EdgeSource β) : Prop :=
  source.pending = [] ∨ source.edge = true

/-- The source is settled, or a report of it is still to be handled. -/
def Attended (source : EdgeSource β) (due : Prop) : Prop :=
  source.Settled ∨ due

instance [DecidableEq β] (source : EdgeSource β) : Decidable source.Settled :=
  inferInstanceAs (Decidable (_ ∨ _))

variable {source : EdgeSource β} {due due' : Prop}

theorem settled_register (pending : List β) : (register pending).Settled := by
  cases pending with
  | nil => exact .inl rfl
  | cons item rest => exact .inr rfl

theorem attended_arrive (source : EdgeSource β) (item : β) (due : Prop) :
    (source.arrive item).Attended due :=
  .inl (.inr rfl)

theorem Attended.take (attended : source.Attended due) (n : Nat) :
    (source.take n).Attended due := by
  refine attended.imp_left fun settled => settled.imp_left fun empty => ?_
  rw [EdgeSource.take, empty]
  exact List.drop_nil

/-- Handling a report settles the source when all items are taken or another edge
has come up. -/
theorem settled_take {n : Nat} (all : source.edge = true ∨ source.pending.length ≤ n) :
    (source.take n).Settled := by
  rcases all with edge | few
  · exact .inr edge
  · exact .inl (List.drop_eq_nil_of_le few)

/-- A report may be handled once none is due. -/
theorem Attended.settled (attended : source.Attended due) (handled : ¬ due) : source.Settled :=
  attended.resolve_right handled

theorem Attended.mono (attended : source.Attended due) (later : due → due') :
    source.Attended due' :=
  attended.imp_right later

end EdgeSource

end Mprpc.Transition
