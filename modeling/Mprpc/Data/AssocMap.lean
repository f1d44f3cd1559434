import Mathlib.Algebra.Order.BigOperators.Group.List
import Mathlib.Algebra.Order.Ring.Nat
import Mathlib.Data.List.Basic

/-!
# Association maps

A map with finitely many keys as a list of entries.  `List.lookup` finds the
first entry of a key; `set` assigns in place or adds an entry at the end, and
`insertNew` leaves an existing entry alone, as `insert` of the standard
associative containers does.  `total` adds up a measure of all values, and
`total_set` is the accounting rule for one assignment.
-/

namespace Mprpc

universe u v w

/-- A finite map as a list of entries. -/
abbrev AssocMap (κ : Type u) (ν : Type v) := List (κ × ν)

namespace AssocMap

variable {κ : Type u} {ν : Type v} [BEq κ]

/-- Assign to a key, as `map[key] = value`. -/
def set (key : κ) (value : ν) : AssocMap κ ν → AssocMap κ ν
  | [] => [(key, value)]
  | (other, old) :: rest =>
      if other == key then (key, value) :: rest else (other, old) :: set key value rest

/-- Add an entry unless the key has one already, as `map.insert({key, value})`. -/
def insertNew (key : κ) (value : ν) (map : AssocMap κ ν) : AssocMap κ ν :=
  match map.lookup key with
  | some _ => map
  | none => set key value map

/-- The sum of a measure over all entries. -/
def total (measure : ν → Nat) (map : AssocMap κ ν) : Nat :=
  (map.map fun entry => measure entry.2).sum

variable [LawfulBEq κ]

theorem mem_of_lookup {map : AssocMap κ ν} {key : κ} {value : ν}
    (found : map.lookup key = some value) : (key, value) ∈ map := by
  rcases List.lookup_eq_some_iff.mp found with ⟨before, after, rfl, -⟩
  simp

@[simp]
theorem lookup_set_self (key : κ) (value : ν) (map : AssocMap κ ν) :
    (set key value map).lookup key = some value := by
  induction map with
  | nil => simp [set]
  | cons entry rest inductionHypothesis =>
      rcases entry with ⟨other, old⟩
      by_cases same : other = key
      · simp [set, same]
      · simp [set, beq_false_of_ne same, List.lookup_cons, beq_false_of_ne (Ne.symm same),
          inductionHypothesis]

theorem lookup_set_of_ne {key other : κ} (different : other ≠ key) (value : ν)
    (map : AssocMap κ ν) : (set key value map).lookup other = map.lookup other := by
  induction map with
  | nil => simp [set, different]
  | cons entry rest inductionHypothesis =>
      rcases entry with ⟨first, old⟩
      by_cases same : first = key
      · subst first
        simp [set, List.lookup_cons, beq_false_of_ne different]
      · simp [set, beq_false_of_ne same, List.lookup_cons, inductionHypothesis]

theorem lookup_set [DecidableEq κ] (key other : κ) (value : ν) (map : AssocMap κ ν) :
    (set key value map).lookup other = if other = key then some value else map.lookup other := by
  by_cases same : other = key
  · subst other
    simp
  · rw [lookup_set_of_ne same, if_neg same]

/-- `insert` has an effect on the lookup of an absent key only. -/
theorem lookup_insertNew [DecidableEq κ] (key other : κ) (value : ν) (map : AssocMap κ ν) :
    (insertNew key value map).lookup other =
      (map.lookup other).or (if key = other then some value else none) := by
  unfold insertNew
  cases found : map.lookup key with
  | some old =>
      by_cases same : key = other
      · subst other
        simp [found]
      · simp [same]
  | none =>
      dsimp only
      rw [lookup_set]
      by_cases same : key = other
      · subst other
        simp [found]
      · simp [same, Ne.symm same]

/-- Of several insertions under one key the first one stays. -/
theorem lookup_foldl_insertNew [DecidableEq κ] {α : Type w} (key : α → κ) (value : α → ν)
    (items : List α) (map : AssocMap κ ν) (other : κ) :
    (items.foldl (fun map item => insertNew (key item) (value item) map) map).lookup other =
      (map.lookup other).or ((items.find? fun item => key item = other).map value) := by
  induction items generalizing map with
  | nil => simp
  | cons item items inductionHypothesis =>
      rw [List.foldl_cons, inductionHypothesis, lookup_insertNew, Option.or_assoc]
      by_cases same : key item = other
      · simp [same]
      · simp [same]

/-- An assignment leaves every other entry as it was. -/
theorem mem_set {key : κ} {value : ν} {map : AssocMap κ ν} {entry : κ × ν}
    (member : entry ∈ set key value map) : entry = (key, value) ∨ entry ∈ map := by
  induction map with
  | nil => exact .inl (List.mem_singleton.mp member)
  | cons first rest inductionHypothesis =>
      rcases first with ⟨other, old⟩
      by_cases same : other = key
      · subst other
        simp only [set, BEq.rfl, if_true] at member
        rcases List.mem_cons.mp member with assigned | kept
        · exact .inl assigned
        · exact .inr (.tail _ kept)
      · simp only [set, beq_false_of_ne same, Bool.false_eq_true, if_false] at member
        rcases List.mem_cons.mp member with rfl | later
        · exact .inr (.head _)
        · rcases inductionHypothesis later with assigned | kept
          · exact .inl assigned
          · exact .inr (.tail _ kept)

/-- Every entry is the one that its key finds. -/
def Functional (map : AssocMap κ ν) : Prop :=
  ∀ entry ∈ map, map.lookup entry.1 = some entry.2

namespace Functional

omit [LawfulBEq κ] in
theorem nil : Functional ([] : AssocMap κ ν) := by
  intro entry member
  cases member

theorem insertNew [DecidableEq κ] {map : AssocMap κ ν} (functional : map.Functional) (key : κ)
    (value : ν) : (insertNew key value map).Functional := by
  intro entry member
  rw [lookup_insertNew]
  unfold AssocMap.insertNew at member
  cases found : map.lookup key with
  | some old =>
      rw [found] at member
      rw [functional entry member, Option.some_or]
  | none =>
      rw [found] at member
      rcases mem_set member with rfl | before
      · rw [found, Option.none_or, if_pos rfl]
      · rw [functional entry before, Option.some_or]

theorem foldl_insertNew [DecidableEq κ] {α : Type w} {map : AssocMap κ ν}
    (functional : map.Functional) (key : α → κ) (value : α → ν) (items : List α) :
    Functional (items.foldl
      (fun map item => AssocMap.insertNew (key item) (value item) map) map) := by
  induction items generalizing map with
  | nil => exact functional
  | cons item items inductionHypothesis =>
      exact inductionHypothesis (functional.insertNew (key item) (value item))

end Functional

omit [BEq κ] [LawfulBEq κ] in
theorem total_pos_iff {measure : ν → Nat} {map : AssocMap κ ν} :
    0 < total measure map ↔ ∃ entry ∈ map, 0 < measure entry.2 := by
  simp [total, List.sum_pos_iff_exists_pos_nat]

/-- Accounting for one assignment: the key's old value leaves the total, the
new one enters it. -/
theorem total_set (measure : ν → Nat) (key : κ) (value : ν) (map : AssocMap κ ν) :
    total measure (set key value map) + ((map.lookup key).map measure).getD 0 =
      total measure map + measure value := by
  induction map with
  | nil => simp [set, total]
  | cons entry rest inductionHypothesis =>
      rcases entry with ⟨other, old⟩
      by_cases same : other = key
      · subst other
        simp [set, total]
        omega
      · simp only [total] at inductionHypothesis
        simp [set, beq_false_of_ne same, total, List.lookup_cons, beq_false_of_ne (Ne.symm same)]
        omega

end AssocMap

end Mprpc
