import Mathlib.Algebra.Order.Ring.Nat

/-!
# A list of parties of which one moves

The threads or processes of a system are often a list in its state, and a step
replaces one of them.  What all parties say together then changes by what the
one says before and after: a property of all, a count, a sum of measures.
-/

namespace Mprpc.Transition

universe u v

variable {α : Type u} {parties : List α} {i : Nat} {old : α}

theorem getElem?_set_eq_ite (found : parties[i]? = some old) (new : α) (j : Nat) :
    (parties.set i new)[j]? = if j = i then some new else parties[j]? := by
  by_cases same : j = i
  · subst j
    rw [if_pos rfl]
    exact List.getElem?_set_self (List.getElem?_eq_some_iff.mp found).1
  · rw [if_neg same]
    exact List.getElem?_set_ne (Ne.symm same)

/-- What the parties say of themselves, after one has moved. -/
theorem bind_set {β : Type v} (f : α → Option β) (found : parties[i]? = some old) (new : α)
    (j : Nat) :
    ((parties.set i new)[j]?).bind f = if j = i then f new else (parties[j]?).bind f := by
  rw [getElem?_set_eq_ite found]
  split
  · rfl
  · rfl

/-- When all parties together say what they said before, so does each of them. -/
theorem bind_of_map_eq {β : Type v} {f : α → Option β} {later : List α}
    (same : later.map f = parties.map f) (j : Nat) :
    (later[j]?).bind f = (parties[j]?).bind f := by
  have here : (later[j]?).map f = (parties[j]?).map f := by
    rw [← List.getElem?_map, ← List.getElem?_map, same]
  have joined : ∀ party : Option α, party.bind f = (party.map f).join := by
    intro party
    cases party with
    | none => rfl
    | some party => rfl
  rw [joined, joined, here]

theorem filterMap_of_map_eq {β : Type v} {f : α → Option β} {later : List α}
    (same : later.map f = parties.map f) : later.filterMap f = parties.filterMap f := by
  have said : ∀ parties : List α, parties.filterMap f = (parties.map f).filterMap id := by
    intro parties
    rw [List.filterMap_map]
    rfl
  rw [said, said, same]

theorem map_set_of_eq {β : Type v} {f : α → β} (found : parties[i]? = some old) {new : α}
    (same : f new = f old) : (parties.set i new).map f = parties.map f := by
  rcases List.getElem?_eq_some_iff.mp found with ⟨bound, rfl⟩
  have inside : i < (parties.map f).length := by rwa [List.length_map]
  rw [List.map_set, same, ← List.getElem_map f (h := inside)]
  exact List.set_getElem_self inside

theorem bind_set_of_eq {β : Type v} {f : α → Option β} (found : parties[i]? = some old) {new : α}
    (same : f new = f old) (j : Nat) :
    ((parties.set i new)[j]?).bind f = (parties[j]?).bind f :=
  bind_of_map_eq (map_set_of_eq found same) j

/-- A new party that says nothing changes nothing. -/
theorem bind_concat {β : Type v} {f : α → Option β} {new : α} (nothing : f new = none)
    (parties : List α) (j : Nat) : ((parties ++ [new])[j]?).bind f = (parties[j]?).bind f := by
  by_cases before : j < parties.length
  · rw [List.getElem?_append_left before]
  · have outside : parties[j]? = none := List.getElem?_eq_none (Nat.le_of_not_lt before)
    rw [List.getElem?_append_right (Nat.le_of_not_lt before), outside]
    cases j - parties.length with
    | zero => exact nothing
    | succ k => rfl

/-- What holds of all parties still holds when the one that moves keeps it. -/
theorem forall_mem_set {new : α} {holds : α → Prop} (others : ∀ party ∈ parties, holds party)
    (self : holds new) : ∀ party ∈ parties.set i new, holds party := by
  intro party member
  rcases List.mem_or_eq_of_mem_set member with before | rfl
  · exact others party before
  · exact self

/-- Parties that differ from the one that moves, before and after, stay. -/
theorem mem_set_iff_of_ne {new party : α} (found : parties[i]? = some old) (neOld : party ≠ old)
    (neNew : party ≠ new) : party ∈ parties.set i new ↔ party ∈ parties := by
  constructor
  · intro member
    rcases List.mem_or_eq_of_mem_set member with member | same
    · exact member
    · exact absurd same neNew
  · intro member
    rcases List.mem_iff_getElem?.mp member with ⟨j, atJ⟩
    have elsewhere : i ≠ j := by
      rintro rfl
      rw [found] at atJ
      exact neOld (Option.some.inj atJ).symm
    rw [← List.getElem?_set_ne elsewhere] at atJ
    exact List.mem_iff_getElem?.mpr ⟨j, atJ⟩

/-- The party that moves takes its share of a sum with it. -/
theorem sum_map_set (measure : α → Nat) (found : parties[i]? = some old) (new : α) :
    ((parties.set i new).map measure).sum + measure old =
      (parties.map measure).sum + measure new := by
  induction parties generalizing i with
  | nil => cases found
  | cons first rest inductionHypothesis =>
      cases i with
      | zero =>
          cases found
          simp only [List.set_cons_zero, List.map_cons, List.sum_cons]
          omega
      | succ i =>
          have later := inductionHypothesis (i := i) found
          simp only [List.set_cons_succ, List.map_cons, List.sum_cons]
          omega

/-- The party that moves leaves a count and enters it again. -/
theorem countP_set_add (test : α → Bool) (found : parties[i]? = some old) (new : α) :
    (parties.set i new).countP test + (if test old then 1 else 0) =
      parties.countP test + if test new then 1 else 0 := by
  rcases List.getElem?_eq_some_iff.mp found with ⟨bound, isOld⟩
  have counted : (if test old then 1 else 0) ≤ parties.countP test := by
    split
    · rename_i passes
      exact List.countP_pos_iff.mpr ⟨old, List.mem_of_getElem? found, passes⟩
    · exact Nat.zero_le _
  rw [List.countP_set bound, isOld]
  omega

/-- What one party holds leaves the list of all that is held, and what it holds
afterwards enters it. -/
theorem filterMap_set_perm {β : Type v} (held : α → Option β) (found : parties[i]? = some old)
    (new : α) :
    ((held old).toList ++ (parties.set i new).filterMap held).Perm
      ((held new).toList ++ parties.filterMap held) := by
  have cons : ∀ party rest, List.filterMap held (party :: rest) =
      (held party).toList ++ rest.filterMap held := by
    intro party rest
    rw [List.filterMap_cons]
    cases held party with
    | none => rfl
    | some item => rfl
  induction parties generalizing i with
  | nil => cases found
  | cons first rest inductionHypothesis =>
      cases i with
      | zero =>
          cases found
          rw [List.set_cons_zero, cons, cons]
          exact List.perm_append_comm_assoc _ _ _
      | succ i =>
          have later := inductionHypothesis (i := i) found
          rw [List.set_cons_succ, cons, cons]
          refine (List.perm_append_comm_assoc _ _ _).trans ?_
          exact (later.append_left _).trans (List.perm_append_comm_assoc _ _ _)

end Mprpc.Transition
