import Mathlib.Algebra.Order.Ring.Nat
import Mathlib.Data.List.Nodup

/-!
# A log of what parties did

A system records in one list what its parties did, each entry with the number of
its party.  The list is a ledger when it says of every party exactly what the
party itself says: an entry for each party that did something, and no second
one.
-/

namespace Mprpc.Transition

universe u

variable {α : Type u}

/-- The log has one entry for each party that claims an item, and no others. -/
structure Ledger (log : List (α × Nat)) (claimed : Nat → Option α) : Prop where
  mem_iff : ∀ item i, (item, i) ∈ log ↔ claimed i = some item
  once : (log.map Prod.snd).Nodup

namespace Ledger

variable {log : List (α × Nat)} {claimed later : Nat → Option α}

theorem nil (nothing : ∀ i, claimed i = none) : Ledger [] claimed where
  mem_iff item i := by simp [nothing i]
  once := .nil

theorem congr (ledger : Ledger log claimed) (same : ∀ i, later i = claimed i) :
    Ledger log later := by
  have equal : later = claimed := funext same
  rw [equal]
  exact ledger

/-- A party that has done nothing so far does something. -/
theorem record (ledger : Ledger log claimed) {item : α} {i : Nat} (unused : claimed i = none)
    (claims : ∀ j, later j = if j = i then some item else claimed j) :
    Ledger (log ++ [(item, i)]) later := by
  constructor
  · intro other j
    rw [List.mem_append, ledger.mem_iff, List.mem_singleton, claims j]
    by_cases same : j = i
    · subst j
      simp [unused, eq_comm]
    · simp [same]
  · rw [List.map_append]
    refine List.nodup_append.mpr ⟨ledger.once, List.nodup_singleton _, ?_⟩
    intro j earlier k isLast
    cases List.mem_singleton.mp isLast
    rintro rfl
    rcases List.mem_map.mp earlier with ⟨⟨other, j⟩, member, rfl⟩
    rw [ledger.mem_iff, unused] at member
    cases member

end Ledger

end Mprpc.Transition
