import Mprpc.Client.Ring

/-!
# The nearest virtual node

The ring answers a lookup from an ordered map.  Without the ring, one would list
all virtual nodes and take the one to which the clockwise way from the key's
hash is shortest, and among nodes of one hash the last.  Both find the same
host.
-/

namespace Mprpc.Client

namespace ConsistentHash

/-- The virtual nodes in the order in which `AddNodes` visits them. -/
def virtualNodes (hash : Bytes → UInt32) (virtualNodeNum : Int) (hosts : List Bytes) :
    List (UInt32 × Bytes) :=
  hosts.flatMap fun host =>
    (List.range virtualNodeNum.toNat).map fun i => (hash (virtualNodeName host i), host)

/-- The way clockwise from one hash to another, modulo `2 ^ 32`. -/
def clockwise (source target : UInt32) : Nat :=
  (target - source).toNat

/-- The node at the shortest way clockwise from `position`, the last one of its
hash. -/
def Nearest (nodes : List (UInt32 × Bytes)) (position : UInt32) (node : UInt32 × Bytes) : Prop :=
  ∃ before after, nodes = before ++ node :: after ∧
    (∀ other ∈ nodes, clockwise position node.1 ≤ clockwise position other.1) ∧
    ∀ other ∈ after, other.1 ≠ node.1

/-! ## Clockwise ways -/

theorem clockwise_of_le {source target : UInt32} (le : source.toNat ≤ target.toNat) :
    clockwise source target = target.toNat - source.toNat := by
  have sourceBound := source.toNat_lt
  have targetBound := target.toNat_lt
  rw [clockwise, UInt32.toNat_sub]
  omega

theorem clockwise_of_lt {source target : UInt32} (lt : target.toNat < source.toNat) :
    clockwise source target = 2 ^ 32 - source.toNat + target.toNat := by
  have sourceBound := source.toNat_lt
  rw [clockwise, UInt32.toNat_sub]
  omega

/-- No two targets are the same way off. -/
theorem clockwise_injective {source first second : UInt32}
    (same : clockwise source first = clockwise source second) : first = second :=
  (UInt32.sub_left_inj source).mp (UInt32.toNat_inj.mp same)

/-- There is only one nearest node. -/
theorem Nearest.unique {nodes : List (UInt32 × Bytes)} {position : UInt32}
    {first second : UInt32 × Bytes} (isNearest : Nearest nodes position first)
    (alsoNearest : Nearest nodes position second) : first = second := by
  rcases isNearest with ⟨before, after, split, shortest, last⟩
  rcases alsoNearest with ⟨before', after', split', shortest', last'⟩
  have insideFirst : first ∈ nodes := by simp [split]
  have insideSecond : second ∈ nodes := by simp [split']
  have sameHash : first.1 = second.1 :=
    clockwise_injective (Nat.le_antisymm (shortest second insideSecond)
      (shortest' first insideFirst))
  rcases List.append_eq_append_iff.mp (split.symm.trans split') with
    ⟨between, -, rest⟩ | ⟨between, -, rest⟩
  · cases between with
    | nil => exact (List.cons.inj rest).1
    | cons _ between =>
        have later : second ∈ after := by
          rw [(List.cons.inj rest).2]
          exact List.mem_append_right _ List.mem_cons_self
        exact absurd sameHash.symm (last second later)
  · cases between with
    | nil => exact (List.cons.inj rest).1.symm
    | cons _ between =>
        have later : first ∈ after' := by
          rw [(List.cons.inj rest).2]
          exact List.mem_append_right _ List.mem_cons_self
        exact absurd sameHash (last' first later)

/-! ## The ring of the virtual nodes -/

/-- `AddNodes` assigns all virtual nodes, one after the other. -/
theorem addNodes_ring_eq (hash : Bytes → UInt32) (ch : ConsistentHash) (hosts : List Bytes) :
    (ch.addNodes hash hosts).ring = OrderedMap.empty.setAll
      ((virtualNodes hash ch.virtualNodeNum hosts).map fun node => (node.1.toNat, node.2)) := by
  unfold addNodes virtualNodes
  dsimp only
  generalize (OrderedMap.empty : OrderedMap Nat Bytes) = ring
  induction hosts generalizing ring with
  | nil => rfl
  | cons host hosts inductionHypothesis =>
      rw [List.foldl_cons, inductionHypothesis, List.flatMap_cons, List.map_append,
        OrderedMap.setAll_append]
      congr 1
      simp only [addHost, OrderedMap.setAll, List.foldl_map, List.map_map, Function.comp_apply]

variable {hash : Bytes → UInt32} {ch : ConsistentHash} {hosts : List Bytes}

/-- A position of the ring belongs to the last virtual node there. -/
theorem mem_addNodes_iff {entry : Nat × Bytes} :
    entry ∈ (ch.addNodes hash hosts).ring.entries ↔
      ∃ before node after, virtualNodes hash ch.virtualNodeNum hosts = before ++ node :: after ∧
        (node.1.toNat, node.2) = entry ∧ ∀ other ∈ after, other.1 ≠ node.1 := by
  rw [addNodes_ring_eq, OrderedMap.mem_setAll_iff]
  constructor
  · rintro (⟨_, _, mapped, last⟩ | ⟨-, member⟩)
    · rcases List.map_eq_append_iff.mp mapped with ⟨before, rest, split, -, restMapped⟩
      rcases List.map_eq_cons_iff.mp restMapped with ⟨node, after, rfl, rfl, rfl⟩
      refine ⟨before, node, after, split, rfl, ?_⟩
      intro other member same
      exact last _ (List.mem_map_of_mem member) (congrArg UInt32.toNat same)
    · cases member
  · rintro ⟨before, node, after, split, rfl, last⟩
    refine .inl ⟨_, _, by rw [split, List.map_append, List.map_cons], ?_⟩
    intro other member same
    rcases List.mem_map.mp member with ⟨node', inside, rfl⟩
    exact last node' inside (UInt32.toNat_inj.mp same)

theorem exists_mem_addNodes {node : UInt32 × Bytes}
    (member : node ∈ virtualNodes hash ch.virtualNodeNum hosts) :
    ∃ entry ∈ (ch.addNodes hash hosts).ring.entries, entry.1 = node.1.toNat := by
  rw [addNodes_ring_eq]
  exact OrderedMap.exists_mem_setAll
    (List.mem_map_of_mem (f := fun node => (node.1.toNat, node.2)) member) _

/-- The successor of a position on the ring is its nearest virtual node. -/
theorem nearest_of_successor {position : UInt32} {entry : Nat × Bytes}
    (next : (ch.addNodes hash hosts).ring.successor position.toNat = some entry) :
    ∃ node, Nearest (virtualNodes hash ch.virtualNodeNum hosts) position node ∧
      node.2 = entry.2 := by
  rcases OrderedMap.successor_eq_some_iff.mp next with ⟨member, place⟩
  rcases mem_addNodes_iff.mp member with ⟨before, node, after, split, rfl, last⟩
  refine ⟨node, ⟨before, after, split, ?_, last⟩, rfl⟩
  intro other inside
  rcases exists_mem_addNodes inside with ⟨owner, onRing, same⟩
  have nodeBound := node.1.toNat_lt
  rcases place with ⟨atLeast, least⟩ | below
  · have first := least owner onRing
    dsimp only at atLeast first
    rw [clockwise_of_le atLeast]
    by_cases behind : other.1.toNat < position.toNat
    · rw [clockwise_of_lt behind]
      omega
    · rw [clockwise_of_le (Nat.le_of_not_lt behind)]
      omega
  · have first := below owner onRing
    have nodeBelow := below _ member
    dsimp only at first nodeBelow
    rw [clockwise_of_lt nodeBelow.1, clockwise_of_lt (by omega)]
    omega

/-- After `AddNodes`, whatever the ring was before, a key is routed to the host
of the virtual node nearest to its hash, and to no host if there are no virtual
nodes. -/
theorem getTargetHost_addNodes_nearest (hash : Bytes → UInt32) (ch : ConsistentHash)
    (hosts : List Bytes) (key : Bytes) :
    (virtualNodes hash ch.virtualNodeNum hosts = [] →
      (ch.addNodes hash hosts).getTargetHost hash key = []) ∧
    (virtualNodes hash ch.virtualNodeNum hosts ≠ [] →
      ∃ node, (∀ other, Nearest (virtualNodes hash ch.virtualNodeNum hosts) (hash key) other ↔
          other = node) ∧
        (ch.addNodes hash hosts).getTargetHost hash key = node.2) ∧
    ∀ earlier, ((ch.addNodes hash earlier).addNodes hash hosts).getTargetHost hash key =
      (ch.addNodes hash hosts).getTargetHost hash key := by
  refine ⟨fun none => ?_, fun some => ?_, fun _ => rfl⟩
  · have noRing : (ch.addNodes hash hosts).ring = .empty := by
      rw [addNodes_ring_eq, none]
      rfl
    rw [getTargetHost_eq, OrderedMap.successor_eq_none_iff.mpr (by rw [noRing]; rfl)]
    rfl
  · rcases List.exists_mem_of_ne_nil _ some with ⟨node, member⟩
    rcases exists_mem_addNodes member with ⟨owner, onRing, -⟩
    rw [getTargetHost_eq]
    cases next : (ch.addNodes hash hosts).ring.successor (hash key).toNat with
    | none =>
        rw [OrderedMap.successor_eq_none_iff.mp next] at onRing
        cases onRing
    | some entry =>
        rcases nearest_of_successor next with ⟨nearest, isNearest, host⟩
        refine ⟨nearest, fun other => ⟨fun also => also.unique isNearest, ?_⟩, host.symm⟩
        rintro rfl
        exact isNearest

end ConsistentHash

end Mprpc.Client
