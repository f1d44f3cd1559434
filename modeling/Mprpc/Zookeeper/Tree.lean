import Mathlib.Data.List.Basic
import Mathlib.Logic.Function.Basic
import Mprpc.Data.Bytes

/-!
# The tree of ZooKeeper

Every request is atomic.  A node can only be created below a node that exists
and is not ephemeral, so the parents of all nodes are there; the tree carries
this as fields.  Nodes have no data here, as the providers give them none.
-/

namespace Mprpc.Zookeeper

/-- The names on the way from the root. -/
abbrev Path := List Bytes

/-- The number of a session. -/
abbrev SessionId := Nat

/-- A node, with the session that it lives and dies with if it is ephemeral. -/
structure ZNode where
  ephemeralOwner : Option SessionId := none
  deriving DecidableEq, Repr

/-- The answers to `zoo_exists` and `zoo_create`. -/
inductive ZooCode
  | zok
  | znonode
  | znodeexists
  | znochildrenforephemerals
  deriving DecidableEq, Repr

/-- A tree of nodes: the root is there, and parents are persistent. -/
structure ZTree where
  nodes : Path → Option ZNode
  root : nodes [] = some {}
  parent : ∀ path name, nodes (path ++ [name]) ≠ none → nodes path = some {}

namespace ZTree

/-- The tree of a fresh server. -/
def empty : ZTree where
  nodes := fun path => if path = [] then some {} else none
  root := rfl
  parent := by
    intro path name inside
    simp at inside

/-- `zoo_exists`. -/
def zooExists (tree : ZTree) (path : Path) : ZooCode :=
  if (tree.nodes path).isSome then .zok else .znonode

/-- What `zoo_create` answers. -/
def createCode (tree : ZTree) (path : Path) : ZooCode :=
  if (tree.nodes path).isSome then .znodeexists
  else
    match tree.nodes path.dropLast with
    | none => .znonode
    | some parent =>
        if parent.ephemeralOwner = none then .zok else .znochildrenforephemerals

/-- A node can be created where there is none, below a persistent node. -/
theorem createCode_eq_zok_iff {tree : ZTree} {path : Path} :
    tree.createCode path = .zok ↔
      tree.nodes path = none ∧ tree.nodes path.dropLast = some {} := by
  unfold createCode
  cases found : tree.nodes path with
  | some node => simp
  | none =>
      cases above : tree.nodes path.dropLast with
      | none => simp
      | some parent =>
          rcases parent with ⟨owner⟩
          cases owner with
          | none => simp
          | some session => simp

/-- The tree with one more node. -/
def insert (tree : ZTree) (path : Path) (node : ZNode) (allowed : tree.createCode path = .zok) :
    ZTree where
  nodes := Function.update tree.nodes path (some node)
  root := by
    rw [Function.update_of_ne]
    · exact tree.root
    · rintro rfl
      have absent := (createCode_eq_zok_iff.mp allowed).1
      rw [tree.root] at absent
      cases absent
  parent := by
    intro above name inside
    rcases createCode_eq_zok_iff.mp allowed with ⟨absent, parent⟩
    by_cases isNew : above ++ [name] = path
    · subst isNew
      rw [List.dropLast_concat] at parent
      rw [Function.update_of_ne (by simp)]
      exact parent
    · rw [Function.update_of_ne isNew] at inside
      have kept := tree.parent above name inside
      rw [Function.update_of_ne]
      · exact kept
      · rintro rfl
        rw [absent] at kept
        cases kept

/-- `zoo_create`. -/
def zooCreate (tree : ZTree) (path : Path) (node : ZNode) : ZooCode × ZTree :=
  if allowed : tree.createCode path = .zok then (.zok, tree.insert path node allowed)
  else (tree.createCode path, tree)

/-- A session expires: the server deletes its nodes. -/
def expire (tree : ZTree) (session : SessionId) : ZTree where
  nodes path := (tree.nodes path).filter fun node => node.ephemeralOwner ≠ some session
  root := by
    rw [tree.root]
    rfl
  parent := by
    intro path name inside
    have before : tree.nodes (path ++ [name]) ≠ none := by
      intro absent
      rw [absent] at inside
      exact inside rfl
    rw [tree.parent path name before]
    rfl

@[simp]
theorem insert_nodes (tree : ZTree) (path : Path) (node : ZNode)
    (allowed : tree.createCode path = .zok) :
    (tree.insert path node allowed).nodes = Function.update tree.nodes path (some node) :=
  rfl

theorem nodes_expire_of_owner {tree : ZTree} {path : Path} {node : ZNode} {session : SessionId}
    (found : tree.nodes path = some node) (owns : node.ephemeralOwner = some session) :
    (tree.expire session).nodes path = none := by
  change (tree.nodes path).filter _ = none
  rw [found]
  exact Option.filter_some_neg (by simp [owns])

/-- There is a node that no other session takes away. -/
def Lasting (tree : ZTree) (session : SessionId) (path : Path) : Prop :=
  ∃ node ∈ tree.nodes path, node.ephemeralOwner = none ∨ node.ephemeralOwner = some session

namespace Lasting

variable {tree : ZTree} {session : SessionId} {path : Path}

theorem isSome (lasting : tree.Lasting session path) : (tree.nodes path).isSome = true := by
  rcases lasting with ⟨node, found, -⟩
  exact Option.isSome_of_mem found

theorem insert (lasting : tree.Lasting session path) {other : Path} (node : ZNode)
    (allowed : tree.createCode other = .zok) :
    (tree.insert other node allowed).Lasting session path := by
  rcases lasting with ⟨kept, found, owned⟩
  refine ⟨kept, ?_, owned⟩
  rw [insert_nodes, Function.update_of_ne]
  · exact found
  · rintro rfl
    have absent := (createCode_eq_zok_iff.mp allowed).1
    rw [found] at absent
    cases absent

theorem of_insert {node : ZNode}
    (owned : node.ephemeralOwner = none ∨ node.ephemeralOwner = some session)
    (allowed : tree.createCode path = .zok) :
    (tree.insert path node allowed).Lasting session path := by
  refine ⟨node, ?_, owned⟩
  rw [insert_nodes]
  exact Function.update_self ..

theorem expire (lasting : tree.Lasting session path) {other : SessionId}
    (different : other ≠ session) : (tree.expire other).Lasting session path := by
  rcases lasting with ⟨node, found, owned⟩
  refine ⟨node, Option.mem_filter_iff.mpr ⟨found, ?_⟩, owned⟩
  rcases owned with persistent | own
  · simp [persistent]
  · simp [own, different.symm]

end Lasting

end ZTree

end Mprpc.Zookeeper
