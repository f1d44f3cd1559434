import Mathlib.Data.List.Induction
import Mprpc.Client.ConsistentHash

/-!
# Which host a key is routed to

On a ring of several hosts the last host with a virtual node at a position owns
it.  One more host takes over positions and adds new ones, so a key either moves
to it or stays where it was.  Two virtual nodes of different hosts at one
position make the order of the hosts matter.
-/

namespace Mprpc.Client

namespace ConsistentHash

variable {hash : Bytes → UInt32} {virtualNodeNum : Int}

/-- A host has a virtual node at a position. -/
def AtPosition (hash : Bytes → UInt32) (virtualNodeNum : Int) (host : Bytes) (position : Nat) :
    Prop :=
  ∃ i ∈ List.range virtualNodeNum.toNat, (hash (virtualNodeName host i)).toNat = position

instance (hash : Bytes → UInt32) (virtualNodeNum : Int) (host : Bytes) (position : Nat) :
    Decidable (AtPosition hash virtualNodeNum host position) :=
  inferInstanceAs (Decidable (∃ i ∈ _, _))

/-- A host owns the positions of its virtual nodes, and no others change. -/
theorem mem_addHost_iff {ring : OrderedMap Nat Bytes} {host : Bytes} {entry : Nat × Bytes} :
    entry ∈ (addHost hash virtualNodeNum ring host).entries ↔
      (entry.2 = host ∧ AtPosition hash virtualNodeNum host entry.1) ∨
        (¬ AtPosition hash virtualNodeNum host entry.1 ∧ entry ∈ ring.entries) := by
  unfold addHost AtPosition
  induction List.range virtualNodeNum.toNat using List.reverseRecOn with
  | nil => simp
  | append_singleton nodes i inductionHypothesis =>
      rw [List.foldl_append]
      dsimp only [List.foldl_cons, List.foldl_nil]
      rw [OrderedMap.mem_set_iff, inductionHypothesis]
      rcases entry with ⟨position, owner⟩
      grind

/-- The target is the host of the key's successor on the ring. -/
theorem getTargetHost_eq (hash : Bytes → UInt32) (ch : ConsistentHash) (key : Bytes) :
    ch.getTargetHost hash key =
      ((ch.ring.successor (hash key).toNat).map Prod.snd).getD [] := by
  unfold getTargetHost OrderedMap.successor
  cases entries : ch.ring.entries with
  | nil => simp [OrderedMap.lowerBound, entries]
  | cons first rest =>
      cases ch.ring.lowerBound (hash key).toNat with
      | none => rfl
      | some entry => rfl

/-- Both rings route a key alike if the target of the larger one is on the
smaller one, too. -/
theorem getTargetHost_of_fewer {ch ch' : ConsistentHash} {key : Bytes}
    (fewer : ∀ entry ∈ ch.ring.entries, ∃ owner ∈ ch'.ring.entries, owner.1 = entry.1)
    (stays : ∀ entry, ch'.ring.successor (hash key).toNat = some entry →
      entry ∈ ch.ring.entries) :
    ch'.getTargetHost hash key = ch.getTargetHost hash key := by
  rw [getTargetHost_eq, getTargetHost_eq]
  cases next : ch'.ring.successor (hash key).toNat with
  | some entry => rw [OrderedMap.successor_of_fewer_keys fewer next (stays entry next)]
  | none =>
      have empty := OrderedMap.successor_eq_none_iff.mp next
      have alsoEmpty : ch.ring.entries = [] := by
        apply List.eq_nil_iff_forall_not_mem.mpr
        intro entry member
        rcases fewer entry member with ⟨owner, inside, -⟩
        rw [empty] at inside
        cases inside
      rw [OrderedMap.successor_eq_none_iff.mpr alsoEmpty]

/-! ## One more host -/

/-- The second ring has one more host. -/
structure Joins (host : Bytes) (ring ring' : OrderedMap Nat Bytes) : Prop where
  origin : ∀ entry ∈ ring'.entries, entry.2 = host ∨ entry ∈ ring.entries
  kept : ∀ entry ∈ ring.entries, ∃ owner ∈ ring'.entries, owner.1 = entry.1

theorem joins_addHost (ring : OrderedMap Nat Bytes) (host : Bytes) :
    Joins host ring (addHost hash virtualNodeNum ring host) := by
  constructor
  · intro entry member
    rcases mem_addHost_iff.mp member with ⟨same, -⟩ | ⟨-, before⟩
    · exact .inl same
    · exact .inr before
  · intro entry member
    by_cases taken : AtPosition hash virtualNodeNum host entry.1
    · exact ⟨(entry.1, host), mem_addHost_iff.mpr (.inl ⟨rfl, taken⟩), rfl⟩
    · exact ⟨entry, mem_addHost_iff.mpr (.inr ⟨taken, member⟩), rfl⟩

/-- Hosts that are added later take the same positions on both rings. -/
theorem Joins.addHost {host : Bytes} {ring ring' : OrderedMap Nat Bytes}
    (joins : Joins host ring ring') (later : Bytes) :
    Joins host (addHost hash virtualNodeNum ring later)
      (addHost hash virtualNodeNum ring' later) := by
  constructor
  · intro entry member
    rcases mem_addHost_iff.mp member with taken | ⟨free, before⟩
    · exact .inr (mem_addHost_iff.mpr (.inl taken))
    · rcases joins.origin entry before with same | inside
      · exact .inl same
      · exact .inr (mem_addHost_iff.mpr (.inr ⟨free, inside⟩))
  · intro entry member
    rcases mem_addHost_iff.mp member with taken | ⟨free, before⟩
    · exact ⟨entry, mem_addHost_iff.mpr (.inl taken), rfl⟩
    · rcases joins.kept entry before with ⟨owner, inside, same⟩
      rw [← same] at free
      exact ⟨owner, mem_addHost_iff.mpr (.inr ⟨free, inside⟩), same⟩

theorem joins_addNodes (hash : Bytes → UInt32) (ch : ConsistentHash) (before after : List Bytes)
    (host : Bytes) :
    Joins host (ch.addNodes hash (before ++ after)).ring
      (ch.addNodes hash (before ++ host :: after)).ring := by
  unfold addNodes
  dsimp only
  rw [List.foldl_append, List.foldl_append, List.foldl_cons]
  induction after using List.reverseRecOn with
  | nil => exact joins_addHost _ host
  | append_singleton after later inductionHypothesis =>
      rw [List.foldl_append, List.foldl_append]
      exact inductionHypothesis.addHost later

/-- A host that joins takes keys only for itself: every other key stays where it
was. -/
theorem getTargetHost_of_join (hash : Bytes → UInt32) (ch : ConsistentHash)
    (before after : List Bytes) (host key : Bytes) :
    (ch.addNodes hash (before ++ host :: after)).getTargetHost hash key = host ∨
      (ch.addNodes hash (before ++ host :: after)).getTargetHost hash key =
        (ch.addNodes hash (before ++ after)).getTargetHost hash key := by
  have joins := joins_addNodes hash ch before after host
  by_cases moves : ∃ position, (ch.addNodes hash (before ++ host :: after)).ring.successor
      (hash key).toNat = some (position, host)
  · left
    rcases moves with ⟨position, next⟩
    rw [getTargetHost_eq, next]
    rfl
  · right
    apply getTargetHost_of_fewer joins.kept
    intro entry next
    rcases joins.origin entry (OrderedMap.successor_eq_some_iff.mp next).1 with rfl | inside
    · exact absurd ⟨entry.1, next⟩ moves
    · exact inside

/-! ## Hosts in another order -/

/-- No two hosts of the list have virtual nodes at one position. -/
def Separate (hash : Bytes → UInt32) (virtualNodeNum : Int) (hosts : List Bytes) : Prop :=
  ∀ a ∈ hosts, ∀ b ∈ hosts, ∀ i ∈ List.range virtualNodeNum.toNat,
    ∀ j ∈ List.range virtualNodeNum.toNat,
      hash (virtualNodeName a i) = hash (virtualNodeName b j) → a = b

instance (hash : Bytes → UInt32) (virtualNodeNum : Int) (hosts : List Bytes) :
    Decidable (Separate hash virtualNodeNum hosts) :=
  inferInstanceAs (Decidable (∀ a ∈ _, ∀ b ∈ _, ∀ i ∈ _, ∀ j ∈ _, _ → _))

theorem Separate.unique {hosts : List Bytes} (separate : Separate hash virtualNodeNum hosts)
    {a b : Bytes} (insideA : a ∈ hosts) (insideB : b ∈ hosts) {position : Nat}
    (atA : AtPosition hash virtualNodeNum a position)
    (atB : AtPosition hash virtualNodeNum b position) : a = b := by
  rcases atA with ⟨i, boundI, rfl⟩
  rcases atB with ⟨j, boundJ, same⟩
  exact separate a insideA b insideB i boundI j boundJ (UInt32.toNat_inj.mp same.symm)

/-- On the ring of separate hosts every virtual node belongs to its host. -/
theorem Separate.mem_addNodes_iff {ch : ConsistentHash} {hosts : List Bytes}
    (separate : Separate hash ch.virtualNodeNum hosts) {entry : Nat × Bytes} :
    entry ∈ (ch.addNodes hash hosts).ring.entries ↔
      entry.2 ∈ hosts ∧ AtPosition hash ch.virtualNodeNum entry.2 entry.1 := by
  unfold addNodes
  dsimp only
  induction hosts using List.reverseRecOn with
  | nil => simp [OrderedMap.empty]
  | append_singleton hosts host inductionHypothesis =>
      have fewer : Separate hash ch.virtualNodeNum hosts := by
        intro a insideA b insideB
        exact separate a (List.mem_append_left _ insideA) b (List.mem_append_left _ insideB)
      rw [List.foldl_append, List.foldl_cons, List.foldl_nil, mem_addHost_iff,
        inductionHypothesis fewer, List.mem_append, List.mem_singleton]
      constructor
      · rintro (⟨rfl, taken⟩ | ⟨-, inside, atPosition⟩)
        · exact ⟨.inr rfl, taken⟩
        · exact ⟨.inl inside, atPosition⟩
      · rintro ⟨inside, atPosition⟩
        by_cases same : entry.2 = host
        · rw [same] at atPosition
          exact .inl ⟨same, atPosition⟩
        · refine .inr ⟨?_, inside.resolve_right same, atPosition⟩
          intro taken
          have member := List.mem_append.mpr (inside.imp_right List.mem_singleton.mpr)
          exact same (separate.unique member
            (List.mem_append_right _ (List.mem_singleton_self host)) atPosition taken)

theorem Separate.perm {hosts hosts' : List Bytes} (separate : Separate hash virtualNodeNum hosts)
    (perm : hosts'.Perm hosts) : Separate hash virtualNodeNum hosts' := by
  intro a insideA b insideB
  exact separate a (perm.subset insideA) b (perm.subset insideB)

/-- The last host owns the key that names a virtual node of it. -/
theorem getTargetHost_last (hash : Bytes → UInt32) (ch : ConsistentHash) (hosts : List Bytes)
    {host key : Bytes} (taken : AtPosition hash ch.virtualNodeNum host (hash key).toNat) :
    (ch.addNodes hash (hosts ++ [host])).getTargetHost hash key = host := by
  have member : ((hash key).toNat, host) ∈ (ch.addNodes hash (hosts ++ [host])).ring.entries := by
    unfold addNodes
    dsimp only
    rw [List.foldl_append, List.foldl_cons, List.foldl_nil]
    exact mem_addHost_iff.mpr (.inl ⟨rfl, taken⟩)
  have next := OrderedMap.successor_eq_some_iff.mpr
    ⟨member, .inl ⟨le_refl (hash key).toNat, fun other _ atLeast => atLeast⟩⟩
  rw [getTargetHost_eq, next]
  rfl

/-- The order of the hosts does not matter for any key exactly if no two hosts
have virtual nodes at one position. -/
theorem routing_of_perm_iff (hash : Bytes → UInt32) (ch : ConsistentHash) (hosts : List Bytes) :
    (∀ hosts', hosts'.Perm hosts → ∀ key,
      (ch.addNodes hash hosts').getTargetHost hash key =
        (ch.addNodes hash hosts).getTargetHost hash key) ↔
      Separate hash ch.virtualNodeNum hosts := by
  constructor
  · intro alike a insideA b insideB i boundI j boundJ same
    by_contra different
    have insideRest : b ∈ hosts.erase a :=
      (List.mem_erase_of_ne (Ne.symm different)).mpr insideB
    have rest := (List.perm_cons_erase insideA).trans ((List.perm_cons_erase insideRest).cons a)
    have aLast : (((hosts.erase a).erase b ++ [b]) ++ [a]).Perm hosts := by
      refine List.Perm.trans ?_ rest.symm
      refine (List.perm_append_singleton _ _).trans ?_
      exact (List.perm_append_singleton _ _).cons a
    have bLast : (((hosts.erase a).erase b ++ [a]) ++ [b]).Perm hosts := by
      refine List.Perm.trans ?_ aLast
      rw [List.append_assoc, List.append_assoc]
      exact (List.Perm.swap b a []).append_left _
    have atA : AtPosition hash ch.virtualNodeNum a (hash (virtualNodeName a i)).toNat :=
      ⟨i, boundI, rfl⟩
    have atB : AtPosition hash ch.virtualNodeNum b (hash (virtualNodeName a i)).toNat :=
      ⟨j, boundJ, congrArg UInt32.toNat same.symm⟩
    have toA := alike _ aLast (virtualNodeName a i)
    have toB := alike _ bLast (virtualNodeName a i)
    rw [getTargetHost_last hash ch _ atA] at toA
    rw [getTargetHost_last hash ch _ atB] at toB
    exact different (toA.trans toB.symm)
  · intro separate hosts' perm key
    have separate' := separate.perm perm
    have sameEntries : ∀ entry, entry ∈ (ch.addNodes hash hosts').ring.entries ↔
        entry ∈ (ch.addNodes hash hosts).ring.entries := by
      intro entry
      rw [separate.mem_addNodes_iff, separate'.mem_addNodes_iff, perm.mem_iff]
    apply getTargetHost_of_fewer
    · intro entry member
      exact ⟨entry, (sameEntries entry).mpr member, rfl⟩
    · intro entry next
      exact (sameEntries entry).mp (OrderedMap.successor_eq_some_iff.mp next).1

/-- With a hash function that is not injective on the virtual nodes, two clients
that list the same hosts in another order route a key to different hosts. -/
theorem routing_depends_on_order :
    ¬ ∀ (hash : Bytes → UInt32) (ch : ConsistentHash) (hosts hosts' : List Bytes),
      hosts'.Perm hosts → ∀ key, (ch.addNodes hash hosts').getTargetHost hash key =
        (ch.addNodes hash hosts).getTargetHost hash key := by
  intro alike
  have same := alike (fun name => name.length.toUInt32) { virtualNodeNum := 2 }
    [Bytes.ofString "127.0.0.1:8000", Bytes.ofString "127.0.0.1:8001"]
    [Bytes.ofString "127.0.0.1:8001", Bytes.ofString "127.0.0.1:8000"]
    (List.Perm.swap _ _ []) []
  revert same
  decide +kernel

/-! ## Other hosts -/

/-- However many hosts come and go at once, a key moves only if its host has left or
its new host has come. -/
theorem getTargetHost_stable (hash : Bytes → UInt32) (ch : ConsistentHash)
    {hosts hosts' : List Bytes} (separate : Separate hash ch.virtualNodeNum hosts)
    (separate' : Separate hash ch.virtualNodeNum hosts') (key : Bytes)
    (stays : (ch.addNodes hash hosts).getTargetHost hash key ∈ hosts')
    (known : (ch.addNodes hash hosts').getTargetHost hash key ∈ hosts) :
    (ch.addNodes hash hosts).getTargetHost hash key =
      (ch.addNodes hash hosts').getTargetHost hash key := by
  rw [getTargetHost_eq] at stays known ⊢
  rw [getTargetHost_eq]
  cases next : (ch.addNodes hash hosts).ring.successor (hash key).toNat with
  | none =>
      cases next' : (ch.addNodes hash hosts').ring.successor (hash key).toNat with
      | none => rfl
      | some entry' =>
          rw [next'] at known
          have taken := separate'.mem_addNodes_iff.mp (OrderedMap.successor_eq_some_iff.mp next').1
          have onRing := separate.mem_addNodes_iff.mpr ⟨known, taken.2⟩
          rw [OrderedMap.successor_eq_none_iff.mp next] at onRing
          cases onRing
  | some entry =>
      rw [next] at stays
      have taken := separate.mem_addNodes_iff.mp (OrderedMap.successor_eq_some_iff.mp next).1
      have onRing' := separate'.mem_addNodes_iff.mpr ⟨stays, taken.2⟩
      cases next' : (ch.addNodes hash hosts').ring.successor (hash key).toNat with
      | none =>
          rw [OrderedMap.successor_eq_none_iff.mp next'] at onRing'
          cases onRing'
      | some entry' =>
          rw [next'] at known
          have taken' := separate'.mem_addNodes_iff.mp
            (OrderedMap.successor_eq_some_iff.mp next').1
          have onRing := separate.mem_addNodes_iff.mpr ⟨known, taken'.2⟩
          rw [OrderedMap.successor_eq_of_mem next next' onRing' onRing]

/-- One of two hosts leaves while two others come. -/
theorem getTargetHost_stable_exchange :
    (({ virtualNodeNum := 2 } : ConsistentHash).addNodes (fun name => (name.headD 0).toUInt32)
        [[10], [30]]).getTargetHost (fun name => (name.headD 0).toUInt32) [25] =
      (({ virtualNodeNum := 2 } : ConsistentHash).addNodes (fun name => (name.headD 0).toUInt32)
        [[20], [40], [30]]).getTargetHost (fun name => (name.headD 0).toUInt32) [25] :=
  getTargetHost_stable _ _ (by decide +kernel) (by decide +kernel) [25] (by decide +kernel)
    (by decide +kernel)

end ConsistentHash

end Mprpc.Client
