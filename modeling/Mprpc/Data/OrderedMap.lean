import Mathlib.Algebra.Order.Ring.Nat
import Mathlib.Data.List.Induction
import Mathlib.Data.List.Pairwise
import Mathlib.Order.Defs.LinearOrder

/-!
# Ordered maps

A map whose entries stand in strictly increasing key order, as a `std::map`
iterates over them.  The order is a field of the map, so that `lowerBound` may
take the first entry that is not below its key.  `successor` closes the order to
a ring, and `setAll` fills a map from a list in which keys may repeat.
-/

namespace Mprpc

universe u v

/-- A finite map with its entries in increasing key order. -/
structure OrderedMap (κ : Type u) (ν : Type v) [LinearOrder κ] where
  entries : List (κ × ν)
  increasing : entries.Pairwise fun first second => first.1 < second.1
  deriving DecidableEq

namespace OrderedMap

variable {κ : Type u} {ν : Type v} [LinearOrder κ]

/-- The map without entries. -/
def empty : OrderedMap κ ν where
  entries := []
  increasing := .nil

/-- Assign to a key among entries in increasing order. -/
def setEntries (key : κ) (value : ν) : List (κ × ν) → List (κ × ν)
  | [] => [(key, value)]
  | (other, old) :: rest =>
      if key < other then (key, value) :: (other, old) :: rest
      else if key = other then (key, value) :: rest
      else (other, old) :: setEntries key value rest

theorem mem_setEntries {key : κ} {value : ν} {entry : κ × ν} {entries : List (κ × ν)}
    (member : entry ∈ setEntries key value entries) : entry = (key, value) ∨ entry ∈ entries := by
  induction entries with
  | nil => simpa [setEntries] using member
  | cons first rest inductionHypothesis =>
      rcases first with ⟨other, old⟩
      by_cases below : key < other
      · simpa [setEntries, below] using member
      · by_cases same : key = other
        · subst same
          simp only [setEntries, below, if_false, if_true, List.mem_cons] at member
          rcases member with rfl | member
          · exact .inl rfl
          · exact .inr (.tail _ member)
        · simp only [setEntries, below, same, if_false, List.mem_cons] at member
          rcases member with rfl | member
          · exact .inr (.head _)
          · rcases inductionHypothesis member with assigned | kept
            · exact .inl assigned
            · exact .inr (.tail _ kept)

theorem increasing_setEntries (key : κ) (value : ν) {entries : List (κ × ν)}
    (increasing : entries.Pairwise fun first second => first.1 < second.1) :
    (setEntries key value entries).Pairwise fun first second => first.1 < second.1 := by
  induction entries with
  | nil => simp [setEntries]
  | cons first rest inductionHypothesis =>
      rcases first with ⟨other, old⟩
      rcases List.pairwise_cons.mp increasing with ⟨least, increasingRest⟩
      by_cases below : key < other
      · simp only [setEntries, below, if_true]
        apply List.pairwise_cons.mpr
        constructor
        · intro entry member
          rcases List.mem_cons.mp member with rfl | later
          · exact below
          · exact lt_trans below (least entry later)
        · exact increasing
      · by_cases same : key = other
        · subst same
          simp only [setEntries, below, if_false, if_true]
          exact List.pairwise_cons.mpr ⟨least, increasingRest⟩
        · simp only [setEntries, below, same, if_false]
          apply List.pairwise_cons.mpr
          constructor
          · intro entry member
            rcases mem_setEntries member with rfl | later
            · exact lt_of_le_of_ne (not_lt.mp below) (Ne.symm same)
            · exact least entry later
          · exact inductionHypothesis increasingRest

/-- Assign to a key, as `map[key] = value`. -/
def set (key : κ) (value : ν) (map : OrderedMap κ ν) : OrderedMap κ ν where
  entries := setEntries key value map.entries
  increasing := increasing_setEntries key value map.increasing

/-- The entries after an assignment: the new one, and those of other keys. -/
theorem mem_set_iff {key : κ} {value : ν} {entry : κ × ν} {map : OrderedMap κ ν} :
    entry ∈ (map.set key value).entries ↔
      entry = (key, value) ∨ entry.1 ≠ key ∧ entry ∈ map.entries := by
  rcases map with ⟨entries, increasing⟩
  unfold set
  dsimp only
  induction entries with
  | nil => simp [setEntries]
  | cons first rest inductionHypothesis =>
      rcases first with ⟨other, old⟩
      rcases List.pairwise_cons.mp increasing with ⟨least, increasingRest⟩
      by_cases below : key < other
      · have notKey : entry ∈ (other, old) :: rest → entry.1 ≠ key := by
          intro member
          rcases List.mem_cons.mp member with rfl | later
          · exact below.ne'
          · exact (below.trans (least entry later)).ne'
        simp only [setEntries, below, if_true]
        rw [List.mem_cons, and_iff_right_of_imp notKey]
      · by_cases same : key = other
        · subst same
          have notKey : entry ∈ rest → entry.1 ≠ key := fun later => (least entry later).ne'
          simp only [setEntries, below, if_false, if_true, List.mem_cons]
          grind
        · have different : (other, old).1 ≠ key := Ne.symm same
          simp only [setEntries, below, same, if_false, List.mem_cons,
            inductionHypothesis increasingRest]
          grind

/-- Assign one entry after the other. -/
def setAll (assigned : List (κ × ν)) (map : OrderedMap κ ν) : OrderedMap κ ν :=
  assigned.foldl (fun map entry => map.set entry.1 entry.2) map

@[simp]
theorem setAll_nil (map : OrderedMap κ ν) : map.setAll [] = map :=
  rfl

theorem setAll_append (first second : List (κ × ν)) (map : OrderedMap κ ν) :
    map.setAll (first ++ second) = (map.setAll first).setAll second :=
  List.foldl_append

/-- Of several assignments to a key the last one stays. -/
theorem mem_setAll_iff {assigned : List (κ × ν)} {map : OrderedMap κ ν} {entry : κ × ν} :
    entry ∈ (map.setAll assigned).entries ↔
      (∃ before after, assigned = before ++ entry :: after ∧
        ∀ other ∈ after, other.1 ≠ entry.1) ∨
      (∀ other ∈ assigned, other.1 ≠ entry.1) ∧ entry ∈ map.entries := by
  induction assigned generalizing map with
  | nil => simp
  | cons first rest inductionHypothesis =>
      have step : map.setAll (first :: rest) = (map.set first.1 first.2).setAll rest := rfl
      rw [step, inductionHypothesis, mem_set_iff]
      constructor
      · rintro (⟨before, after, split, last⟩ | ⟨others, same | ⟨different, member⟩⟩)
        · exact .inl ⟨first :: before, after, by rw [split, List.cons_append], last⟩
        · subst same
          exact .inl ⟨[], rest, rfl, others⟩
        · exact .inr ⟨List.forall_mem_cons.mpr ⟨Ne.symm different, others⟩, member⟩
      · rintro (⟨before, after, split, last⟩ | ⟨others, member⟩)
        · cases before with
          | nil =>
              cases split
              exact .inr ⟨last, .inl rfl⟩
          | cons _ before =>
              cases split
              exact .inl ⟨before, after, rfl, last⟩
        · rcases List.forall_mem_cons.mp others with ⟨different, later⟩
          exact .inr ⟨later, .inr ⟨Ne.symm different, member⟩⟩

/-- Every assigned key has an entry. -/
theorem exists_mem_setAll {assigned : List (κ × ν)} {node : κ × ν} (member : node ∈ assigned)
    (map : OrderedMap κ ν) : ∃ entry ∈ (map.setAll assigned).entries, entry.1 = node.1 := by
  induction assigned using List.reverseRecOn with
  | nil => cases member
  | append_singleton earlier last inductionHypothesis =>
      have step : map.setAll (earlier ++ [last]) = (map.setAll earlier).set last.1 last.2 :=
        setAll_append earlier [last] map
      rw [step]
      by_cases same : node.1 = last.1
      · exact ⟨last, mem_set_iff.mpr (.inl rfl), same.symm⟩
      · have inside : node ∈ earlier := by
          rcases List.mem_append.mp member with inside | isLast
          · exact inside
          · cases List.mem_singleton.mp isLast
            exact absurd rfl same
        rcases inductionHypothesis inside with ⟨entry, kept, atKey⟩
        rw [← atKey] at same
        exact ⟨entry, mem_set_iff.mpr (.inr ⟨same, kept⟩), atKey⟩

/-- The first entry whose key is not below `key`, as `lower_bound`. -/
def lowerBound (key : κ) (map : OrderedMap κ ν) : Option (κ × ν) :=
  map.entries.find? fun entry => key ≤ entry.1

/-- The entry that follows `key` on a ring: its lower bound, or the first entry
behind the end. -/
def successor (key : κ) (map : OrderedMap κ ν) : Option (κ × ν) :=
  map.lowerBound key <|> map.entries.head?

variable {map map' : OrderedMap κ ν} {key : κ} {entry : κ × ν}

theorem lowerBound_eq_none_iff :
    map.lowerBound key = none ↔ ∀ entry ∈ map.entries, entry.1 < key := by
  simp [lowerBound, List.find?_eq_none]

/-- The lower bound is the least entry that is not below the key. -/
theorem lowerBound_eq_some_iff :
    map.lowerBound key = some entry ↔ entry ∈ map.entries ∧ key ≤ entry.1 ∧
      ∀ other ∈ map.entries, key ≤ other.1 → entry.1 ≤ other.1 := by
  rcases map with ⟨entries, increasing⟩
  unfold lowerBound
  dsimp only
  induction entries with
  | nil => simp
  | cons first rest inductionHypothesis =>
      rcases List.pairwise_cons.mp increasing with ⟨least, increasingRest⟩
      by_cases atLeast : key ≤ first.1
      · rw [List.find?_cons_of_pos (by simpa using atLeast)]
        constructor
        · intro same
          cases same
          refine ⟨List.mem_cons_self, atLeast, ?_⟩
          intro other member _
          rcases List.mem_cons.mp member with rfl | later
          · exact le_rfl
          · exact (least other later).le
        · rintro ⟨member, -, smallest⟩
          rcases List.mem_cons.mp member with rfl | later
          · rfl
          · exact absurd (least entry later) (smallest first List.mem_cons_self atLeast).not_gt
      · rw [List.find?_cons_of_neg (by simpa using atLeast), inductionHypothesis increasingRest]
        grind

/-- The first entry is the least. -/
theorem head_eq_some_iff :
    map.entries.head? = some entry ↔ entry ∈ map.entries ∧
      ∀ other ∈ map.entries, entry.1 ≤ other.1 := by
  rcases map with ⟨entries, increasing⟩
  cases entries with
  | nil => simp
  | cons first rest =>
      rcases List.pairwise_cons.mp increasing with ⟨least, -⟩
      dsimp only
      rw [List.head?_cons, Option.some_inj]
      constructor
      · rintro rfl
        refine ⟨List.mem_cons_self, ?_⟩
        intro other member
        rcases List.mem_cons.mp member with rfl | later
        · exact le_rfl
        · exact (least other later).le
      · rintro ⟨member, smallest⟩
        rcases List.mem_cons.mp member with rfl | later
        · rfl
        · exact absurd (least entry later) (smallest first List.mem_cons_self).not_gt

/-- The successor is the least entry that is not below the key, or the least of
all if every entry is below. -/
theorem successor_eq_some_iff :
    map.successor key = some entry ↔ entry ∈ map.entries ∧
      ((key ≤ entry.1 ∧ ∀ other ∈ map.entries, key ≤ other.1 → entry.1 ≤ other.1) ∨
        (∀ other ∈ map.entries, other.1 < key ∧ entry.1 ≤ other.1)) := by
  unfold successor
  cases bound : map.lowerBound key with
  | some first =>
      have found := lowerBound_eq_some_iff.mp bound
      rw [Option.orElse_eq_orElse, Option.orElse_some, ← bound, lowerBound_eq_some_iff]
      constructor
      · rintro ⟨member, least⟩
        exact ⟨member, .inl least⟩
      · rintro ⟨member, least | below⟩
        · exact ⟨member, least⟩
        · exact absurd found.2.1 (below first found.1).1.not_ge
  | none =>
      have below := lowerBound_eq_none_iff.mp bound
      rw [Option.orElse_eq_orElse, Option.orElse_none, head_eq_some_iff]
      constructor
      · rintro ⟨member, least⟩
        exact ⟨member, .inr fun other inside => ⟨below other inside, least other inside⟩⟩
      · rintro ⟨member, ⟨atLeast, -⟩ | least⟩
        · exact absurd atLeast (below entry member).not_ge
        · exact ⟨member, fun other inside => (least other inside).2⟩

theorem successor_eq_none_iff : map.successor key = none ↔ map.entries = [] := by
  unfold successor
  cases bound : map.lowerBound key with
  | some first =>
      have member := (lowerBound_eq_some_iff.mp bound).1
      constructor
      · intro none
        cases none
      · intro empty
        rw [empty] at member
        cases member
  | none => exact List.head?_eq_none_iff

/-- With fewer keys on the ring, the successor stays the same as long as its
entry is there. -/
theorem successor_of_fewer_keys {map' : OrderedMap κ ν}
    (fewer : ∀ other ∈ map.entries, ∃ shared ∈ map'.entries, shared.1 = other.1)
    (next : map'.successor key = some entry) (stays : entry ∈ map.entries) :
    map.successor key = some entry := by
  rcases successor_eq_some_iff.mp next with ⟨-, ⟨atLeast, least⟩ | below⟩
  · refine successor_eq_some_iff.mpr ⟨stays, .inl ⟨atLeast, ?_⟩⟩
    intro other member
    rcases fewer other member with ⟨shared, inside, same⟩
    rw [← same]
    exact least shared inside
  · refine successor_eq_some_iff.mpr ⟨stays, .inr ?_⟩
    intro other member
    rcases fewer other member with ⟨shared, inside, same⟩
    rw [← same]
    exact below shared inside

/-- Entries of one key are one entry. -/
theorem eq_of_mem {first second : κ × ν} (inside : first ∈ map.entries)
    (alsoInside : second ∈ map.entries) (same : first.1 = second.1) : first = second := by
  by_contra different
  have apart : map.entries.Pairwise fun first second => first.1 ≠ second.1 :=
    map.increasing.imp fun below => below.ne
  have : Std.Symm fun first second : κ × ν => first.1 ≠ second.1 := ⟨fun _ _ => Ne.symm⟩
  exact apart.forall inside alsoInside different same

/-- Two maps that have each other's successor of a key have the same one. -/
theorem successor_eq_of_mem {map' : OrderedMap κ ν} {entry' : κ × ν}
    (next : map.successor key = some entry) (next' : map'.successor key = some entry')
    (stays : entry ∈ map'.entries) (stays' : entry' ∈ map.entries) : entry = entry' := by
  rcases successor_eq_some_iff.mp next with ⟨inside, place⟩
  rcases successor_eq_some_iff.mp next' with ⟨-, place'⟩
  apply map.eq_of_mem inside stays'
  rcases place with ⟨atLeast, least⟩ | below
  · rcases place' with ⟨atLeast', least'⟩ | below'
    · exact le_antisymm (least entry' stays' atLeast') (least' entry stays atLeast)
    · exact absurd atLeast (below' entry stays).1.not_ge
  · rcases place' with ⟨atLeast', least'⟩ | below'
    · exact absurd atLeast' (below entry' stays').1.not_ge
    · exact le_antisymm (below entry' stays').2 (below' entry stays).2

end OrderedMap

end Mprpc
