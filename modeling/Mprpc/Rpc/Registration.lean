import Mprpc.Rpc.Provider
import Mprpc.Transition.Core
import Mprpc.Transition.Parties
import Mprpc.Zookeeper.Tree

/-!
# Registration: the first loop of `RpcProvider::Run`

A provider creates a node for each service, for each method and for itself under
each method.  `ZkClient::Create` asks whether the node exists and creates it in
a second request, and any answer but `ZOK` to the second ends the process.  Two
providers that both found a node missing cannot both create it.

A step is one request of one provider.  The maps of a provider are iterated in
the order of their entries, which differs from provider to provider.
-/

namespace Mprpc.Rpc

open Mprpc.Transition
open Mprpc.Zookeeper

universe u

/-- A call of `ZkClient::Create`; `ephemeral` is its `state` argument. -/
structure CreateCall where
  path : Path
  ephemeral : Bool
  deriving DecidableEq, Repr

/-- The node that a session creates. -/
def CreateCall.node (call : CreateCall) (session : SessionId) : ZNode where
  ephemeralOwner := if call.ephemeral then some session else none

/-- The name of a provider's own nodes, `ip:port`. -/
def hostName (ip : Bytes) (port : UInt16) : Bytes :=
  ip ++ Bytes.ofString ":" ++ Bytes.ofNat port.toNat

/-- A provider that is started: its session, services and host name. -/
structure Enrolment (Msg : Type u) where
  session : SessionId
  provider : RpcProvider Msg
  host : Bytes

/-- The calls of the registration loop. -/
def Enrolment.createCalls {Msg : Type u} (enrolment : Enrolment Msg) : List CreateCall :=
  enrolment.provider.serviceMap.flatMap fun sp =>
    ⟨[sp.1], false⟩ :: sp.2.methodMap.flatMap fun mp =>
      [⟨[sp.1, mp.1], false⟩, ⟨[sp.1, mp.1, enrolment.host], true⟩]

/-- Where a provider is in its loop. -/
inductive RegistrarPc
  /-- before the `zoo_exists` of the first call -/
  | asking (todo : List CreateCall)
  /-- the node was missing, before the `zoo_create` -/
  | creating (call : CreateCall) (rest : List CreateCall)
  /-- after `exit(EXIT_FAILURE)` -/
  | exited
  deriving DecidableEq, Repr

namespace RegistrarPc

/-- The calls that are not done yet. -/
def todo : RegistrarPc → List CreateCall
  | .asking todo => todo
  | .creating call rest => call :: rest
  | .exited => []

/-- The call that waits for its `zoo_create`. -/
def creating? : RegistrarPc → Option CreateCall
  | .creating call _ => some call
  | _ => none

/-- The number of requests that are left at most. -/
def work : RegistrarPc → Nat
  | .asking todo => 2 * todo.length
  | .creating _ rest => 2 * rest.length + 1
  | .exited => 0

end RegistrarPc

structure Registrar where
  session : SessionId
  pc : RegistrarPc
  deriving DecidableEq, Repr

/-- All providers and the tree that they share. -/
structure Registration where
  tree : ZTree
  registrars : List Registrar

/-- A request of the `i`-th provider. -/
inductive RegistrationAction
  | zooExists (i : Nat)
  | zooCreate (i : Nat)
  deriving DecidableEq, Repr

namespace Registration

variable {Msg : Type u}

def start (tree : ZTree) (enrolments : List (Enrolment Msg)) : Registration where
  tree := tree
  registrars := enrolments.map fun enrolment => ⟨enrolment.session, .asking enrolment.createCalls⟩

def setPc (s : Registration) (i : Nat) (r : Registrar) (pc : RegistrarPc) : Registration :=
  { s with registrars := s.registrars.set i { r with pc := pc } }

/-- The two requests of `ZkClient::Create`. -/
def next (s : Registration) : RegistrationAction → Option Registration
  | .zooExists i =>
      (s.registrars[i]?).bind fun r =>
        match r.pc with
        | .asking (call :: rest) =>
            if s.tree.zooExists call.path = .znonode then some (s.setPc i r (.creating call rest))
            else some (s.setPc i r (.asking rest))
        | _ => none
  | .zooCreate i =>
      (s.registrars[i]?).bind fun r =>
        match r.pc with
        | .creating call rest =>
            let created := s.tree.zooCreate call.path (call.node r.session)
            some ({ s with tree := created.2 }.setPc i r
              (if created.1 = ZooCode.zok then .asking rest else .exited))
        | _ => none

/-- The number of requests that are left at most. -/
def work (s : Registration) : Nat :=
  (s.registrars.map fun r => r.pc.work).sum

/-- The effect of one request. -/
inductive Stepped (s : Registration) : RegistrationAction → Registration → Prop
  | found {i : Nat} {r : Registrar} {call : CreateCall} {rest : List CreateCall}
      (runs : s.registrars[i]? = some r) (asks : r.pc = .asking (call :: rest))
      (isThere : s.tree.nodes call.path ≠ none) :
      Stepped s (.zooExists i) (s.setPc i r (.asking rest))
  | missing {i : Nat} {r : Registrar} {call : CreateCall} {rest : List CreateCall}
      (runs : s.registrars[i]? = some r) (asks : r.pc = .asking (call :: rest))
      (isMissing : s.tree.nodes call.path = none) :
      Stepped s (.zooExists i) (s.setPc i r (.creating call rest))
  | created {i : Nat} {r : Registrar} {call : CreateCall} {rest : List CreateCall}
      (runs : s.registrars[i]? = some r) (creates : r.pc = .creating call rest)
      (allowed : s.tree.createCode call.path = .zok) :
      Stepped s (.zooCreate i)
        ({ s with tree := s.tree.insert call.path (call.node r.session) allowed }.setPc i r
          (.asking rest))
  | refused {i : Nat} {r : Registrar} {call : CreateCall} {rest : List CreateCall}
      (runs : s.registrars[i]? = some r) (creates : r.pc = .creating call rest)
      (denied : s.tree.createCode call.path ≠ .zok) :
      Stepped s (.zooCreate i) (s.setPc i r .exited)

variable {s t : Registration}

theorem stepped_of_next {action : RegistrationAction} (step : s.next action = some t) :
    Stepped s action t := by
  cases action with
  | zooExists i =>
      rcases Option.bind_eq_some_iff.mp step with ⟨r, runs, step⟩
      split at step
      · rename_i call rest asks
        cases found : s.tree.nodes call.path with
        | none =>
            simp only [ZTree.zooExists, found, Option.isSome_none, Bool.false_eq_true, if_false,
              if_true] at step
            cases step
            exact .missing runs asks found
        | some node =>
            simp only [ZTree.zooExists, found, Option.isSome_some, if_true, reduceCtorEq,
              if_false] at step
            cases step
            exact .found runs asks (by simp [found])
      · cases step
  | zooCreate i =>
      rcases Option.bind_eq_some_iff.mp step with ⟨r, runs, step⟩
      split at step
      · rename_i call rest creates
        by_cases allowed : s.tree.createCode call.path = .zok
        · simp only [ZTree.zooCreate, allowed, dite_true, if_true] at step
          cases step
          exact .created runs creates allowed
        · simp only [ZTree.zooCreate, allowed, dite_false, if_false] at step
          cases step
          exact .refused runs creates allowed
      · cases step

/-- When every loop is done, nobody makes a request. -/
theorem next_eq_none_of_finished (finished : ∀ r ∈ s.registrars, r.pc = .asking [])
    (request : RegistrationAction) : s.next request = none := by
  cases request with
  | zooExists i | zooCreate i =>
      apply Option.bind_eq_none_iff.mpr
      intro r runs
      rw [finished r (List.mem_of_getElem? runs)]

/-! ## Every run ends -/

theorem work_setPc {i : Nat} {r : Registrar} (runs : s.registrars[i]? = some r) (tree : ZTree)
    (pc : RegistrarPc) :
    ({ s with tree := tree }.setPc i r pc).work + r.pc.work = s.work + pc.work :=
  sum_map_set (fun r => r.pc.work) runs { r with pc := pc }

/-- Every request leaves less work. -/
theorem work_lt_of_stepped {action : RegistrationAction} (stepped : Stepped s action t) :
    t.work < s.work := by
  cases stepped with
  | @found i r call rest runs asks isThere =>
      have moved : (s.setPc i r (.asking rest)).work + _ = _ + 2 * rest.length :=
        work_setPc runs s.tree (.asking rest)
      rw [asks, RegistrarPc.work, List.length_cons] at moved
      omega
  | @missing i r call rest runs asks isMissing =>
      have moved : (s.setPc i r (.creating call rest)).work + _ = _ + (2 * rest.length + 1) :=
        work_setPc runs s.tree (.creating call rest)
      rw [asks, RegistrarPc.work, List.length_cons] at moved
      omega
  | @created i r call rest runs creates allowed =>
      have moved : _ + r.pc.work = _ + 2 * rest.length :=
        work_setPc runs (s.tree.insert call.path (call.node r.session) allowed) (.asking rest)
      rw [creates, RegistrarPc.work] at moved
      omega
  | @refused i r call rest runs creates denied =>
      have moved : (s.setPc i r .exited).work + _ = _ + 0 := work_setPc runs s.tree .exited
      rw [creates, RegistrarPc.work] at moved
      omega

end Registration

/-! ## The calls of a provider -/

/-- Every call comes after the call for the parent of its path. -/
def Rooted (known : List Path) : List CreateCall → Prop
  | [] => True
  | call :: rest =>
      (call.path.dropLast = [] ∨ call.path.dropLast ∈ known) ∧ Rooted (call.path :: known) rest

theorem Rooted.mono {known more : List Path} {calls : List CreateCall}
    (rooted : Rooted known calls) (subset : known ⊆ more) : Rooted more calls := by
  induction calls generalizing known more with
  | nil => trivial
  | cons call rest inductionHypothesis =>
      rcases rooted with ⟨parent, later⟩
      exact ⟨parent.imp_right fun inside => subset inside,
        inductionHypothesis later (List.cons_subset_cons _ subset)⟩

theorem Rooted.append {known : List Path} {first second : List CreateCall}
    (rooted : Rooted known first) (rest : Rooted known second) :
    Rooted known (first ++ second) := by
  induction first generalizing known with
  | nil => exact rest
  | cons call calls inductionHypothesis =>
      exact ⟨rooted.1, inductionHypothesis rooted.2 (rest.mono (List.subset_cons_self _ _))⟩

theorem Rooted.flatMap {α : Type u} {known : List Path} {entries : List α}
    {calls : α → List CreateCall} (rooted : ∀ entry ∈ entries, Rooted known (calls entry)) :
    Rooted known (entries.flatMap calls) := by
  induction entries with
  | nil => trivial
  | cons entry rest inductionHypothesis =>
      rw [List.flatMap_cons]
      exact (rooted entry List.mem_cons_self).append
        (inductionHypothesis fun other member => rooted other (List.mem_cons_of_mem _ member))

/-- Only the deepest nodes are ephemeral. -/
def CreateCall.Shaped (call : CreateCall) : Prop :=
  call.path.length ≤ 3 ∧ (call.ephemeral = true → call.path.length = 3)

namespace Enrolment

variable {Msg : Type u}

theorem rooted_createCalls (enrolment : Enrolment Msg) : Rooted [] enrolment.createCalls := by
  apply Rooted.flatMap
  intro sp _
  refine ⟨.inl rfl, ?_⟩
  apply Rooted.flatMap
  intro mp _
  refine ⟨.inr (List.mem_singleton_self _), .inr List.mem_cons_self, trivial⟩

theorem shaped_of_mem {enrolment : Enrolment Msg} {call : CreateCall}
    (member : call ∈ enrolment.createCalls) : call.Shaped := by
  rcases List.mem_flatMap.mp member with ⟨sp, -, inside⟩
  rcases List.mem_cons.mp inside with rfl | inside
  · exact ⟨by simp, fun ephemeral => by cases ephemeral⟩
  · rcases List.mem_flatMap.mp inside with ⟨mp, -, inside⟩
    simp only [List.mem_cons, List.not_mem_nil, or_false] at inside
    rcases inside with rfl | rfl
    · exact ⟨by simp, fun ephemeral => by cases ephemeral⟩
    · exact ⟨by simp, fun _ => rfl⟩

/-- The provider creates its own node under each method. -/
theorem hostCall_mem (enrolment : Enrolment Msg) {sp : Bytes × ServiceInfo Msg}
    (service : sp ∈ enrolment.provider.serviceMap) {mp : Bytes × MethodDescriptor Msg}
    (method : mp ∈ sp.2.methodMap) :
    ⟨[sp.1, mp.1, enrolment.host], true⟩ ∈ enrolment.createCalls := by
  apply List.mem_flatMap.mpr
  refine ⟨sp, service, List.mem_cons_of_mem _ (List.mem_flatMap.mpr ⟨mp, method, ?_⟩)⟩
  exact List.mem_cons_of_mem _ (List.mem_singleton_self _)

end Enrolment

namespace RegistrarPc

/-- What holds of one provider while it registers: it is running, and the parents
of its nodes come first and can have children. -/
structure Fits (tree : ZTree) (pc : RegistrarPc) : Prop where
  running : pc ≠ .exited
  rooted : ∃ known, (∀ path ∈ known, tree.nodes path ≠ none) ∧ Rooted known pc.todo
  shaped : ∀ call ∈ pc.todo, call.Shaped
  parents : ∀ call ∈ pc.todo, tree.nodes call.path.dropLast = none ∨
    tree.nodes call.path.dropLast = some {}

variable {tree : ZTree} {pc : RegistrarPc} {call : CreateCall} {rest : List CreateCall}

/-- The next node can be created if it is missing. -/
theorem Fits.allowed (fits : (creating call rest).Fits tree)
    (isMissing : tree.nodes call.path = none) : tree.createCode call.path = .zok := by
  apply ZTree.createCode_eq_zok_iff.mpr
  refine ⟨isMissing, ?_⟩
  rcases fits.rooted with ⟨known, exist, parent, -⟩
  rcases parent with isRoot | inside
  · rw [isRoot]
    exact tree.root
  · exact (fits.parents call List.mem_cons_self).resolve_left (exist _ inside)

/-- A node was created, by this provider or another. -/
theorem Fits.insert (fits : pc.Fits tree) {other : CreateCall} (shaped : other.Shaped)
    (session : SessionId) (allowed : tree.createCode other.path = .zok) :
    pc.Fits (tree.insert other.path (other.node session) allowed) := by
  have missing := (ZTree.createCode_eq_zok_iff.mp allowed).1
  constructor
  · exact fits.running
  · rcases fits.rooted with ⟨known, exist, rooted⟩
    refine ⟨known, ?_, rooted⟩
    intro path inside
    rw [ZTree.insert_nodes, Function.update_of_ne]
    · exact exist path inside
    · rintro rfl
      exact exist _ inside missing
  · exact fits.shaped
  · intro call member
    rw [ZTree.insert_nodes]
    by_cases same : call.path.dropLast = other.path
    · right
      have notDeep : other.ephemeral = false := by
        cases ephemeral : other.ephemeral with
        | false => rfl
        | true =>
            have deep := shaped.2 ephemeral
            have bound := (fits.shaped call member).1
            rw [← same, List.length_dropLast] at deep
            omega
      rw [same, Function.update_self, CreateCall.node, notDeep]
      rfl
    · rw [Function.update_of_ne same]
      exact fits.parents call member

/-- The first call is done when its node is there. -/
theorem Fits.advance (fits : pc.Fits tree) (first : pc.todo = call :: rest)
    (isThere : tree.nodes call.path ≠ none) : (asking rest).Fits tree := by
  have later : ∀ other ∈ rest, other ∈ pc.todo := by
    intro other member
    rw [first]
    exact List.mem_cons_of_mem _ member
  constructor
  · intro exit
    cases exit
  · rcases fits.rooted with ⟨known, exist, rooted⟩
    rw [first] at rooted
    refine ⟨call.path :: known, ?_, rooted.2⟩
    intro path inside
    rcases List.mem_cons.mp inside with rfl | before
    · exact isThere
    · exact exist path before
  · intro other member
    exact fits.shaped other (later other member)
  · intro other member
    exact fits.parents other (later other member)

end RegistrarPc

namespace Registration

variable {Msg : Type u} {s t : Registration}

/-! ## Providers that keep apart -/

/-- No provider asks for a path that another one is about to create. -/
def KeepsApart (s : Registration) : RegistrationAction → Prop
  | .zooExists i =>
      ∀ r ∈ s.registrars[i]?, ∀ call ∈ r.pc.todo.head?, ∀ other ∈ s.registrars,
        ∀ waits ∈ other.pc.creating?, waits.path ≠ call.path
  | .zooCreate _ => True

instance (s : Registration) : (action : RegistrationAction) → Decidable (s.KeepsApart action)
  | .zooExists i =>
      inferInstanceAs (Decidable (∀ r ∈ s.registrars[i]?, ∀ call ∈ r.pc.todo.head?,
        ∀ other ∈ s.registrars, ∀ waits ∈ other.pc.creating?, waits.path ≠ call.path))
  | .zooCreate _ => isTrue trivial

/-- What holds while all providers register. -/
structure Registering (enrolments : List (Enrolment Msg)) (s : Registration) : Prop where
  fits : ∀ r ∈ s.registrars, r.pc.Fits s.tree
  absent : ∀ r ∈ s.registrars, ∀ call ∈ r.pc.creating?, s.tree.nodes call.path = none
  apart : ∀ {i j : Nat} {r r' : Registrar} {call call' : CreateCall},
    s.registrars[i]? = some r → s.registrars[j]? = some r' → call ∈ r.pc.creating? →
      call' ∈ r'.pc.creating? → call.path = call'.path → i = j
  covered : ∀ enrolment ∈ enrolments, ∀ call ∈ enrolment.createCalls,
    s.tree.nodes call.path ≠ none ∨ ∃ r ∈ s.registrars, call ∈ r.pc.todo

theorem getElem?_setPc {i : Nat} {r : Registrar} (runs : s.registrars[i]? = some r)
    (pc : RegistrarPc) (j : Nat) :
    (s.setPc i r pc).registrars[j]? =
      if j = i then some { r with pc := pc } else s.registrars[j]? :=
  getElem?_set_eq_ite runs { r with pc := pc } j

theorem covered_setPc {i : Nat} {r : Registrar} (runs : s.registrars[i]? = some r)
    {pc : RegistrarPc} {call : CreateCall} (kept : call ∈ r.pc.todo → call ∈ pc.todo)
    (covered : ∃ r ∈ s.registrars, call ∈ r.pc.todo) :
    ∃ r' ∈ (s.setPc i r pc).registrars, call ∈ r'.pc.todo := by
  rcases covered with ⟨owner, member, todo⟩
  rcases List.getElem?_of_mem member with ⟨j, found⟩
  have moved := getElem?_setPc runs pc j
  by_cases same : j = i
  · subst same
    rw [runs] at found
    cases found
    rw [if_pos rfl] at moved
    exact ⟨_, List.mem_of_getElem? moved, kept todo⟩
  · rw [if_neg same, found] at moved
    exact ⟨owner, List.mem_of_getElem? moved, todo⟩

namespace Registering

variable {enrolments : List (Enrolment Msg)}

/-- A provider that waits for nothing is in nobody's way. -/
theorem apart_setPc (registering : Registering enrolments s) {i : Nat} {r : Registrar}
    (runs : s.registrars[i]? = some r) {pc : RegistrarPc}
    (alone : ∀ waits ∈ pc.creating?, ∀ other ∈ s.registrars, ∀ call ∈ other.pc.creating?,
      call.path ≠ waits.path) {j k : Nat} {r₁ r₂ : Registrar} {call₁ call₂ : CreateCall}
    (found₁ : (s.setPc i r pc).registrars[j]? = some r₁)
    (found₂ : (s.setPc i r pc).registrars[k]? = some r₂) (waits₁ : call₁ ∈ r₁.pc.creating?)
    (waits₂ : call₂ ∈ r₂.pc.creating?) (same : call₁.path = call₂.path) : j = k := by
  rw [getElem?_setPc runs] at found₁ found₂
  split at found₁
  · rename_i isFirst
    cases found₁
    split at found₂
    · rename_i isSecond
      rw [isFirst, isSecond]
    · exact absurd same.symm
        (alone call₁ waits₁ r₂ (List.mem_of_getElem? found₂) call₂ waits₂)
  · split at found₂
    · cases found₂
      exact absurd same (alone call₂ waits₂ r₁ (List.mem_of_getElem? found₁) call₁ waits₁)
    · exact registering.apart found₁ found₂ waits₁ waits₂ same

/-- A provider is done with a call whose node is there, in a tree that keeps its
nodes. -/
theorem covered_advance (registering : Registering enrolments s) {i : Nat} {r : Registrar}
    {call : CreateCall} {rest : List CreateCall} (runs : s.registrars[i]? = some r)
    (first : r.pc.todo = call :: rest) {tree : ZTree}
    (keeps : ∀ path, s.tree.nodes path ≠ none → tree.nodes path ≠ none)
    (isThere : tree.nodes call.path ≠ none) :
    ∀ enrolment ∈ enrolments, ∀ other ∈ enrolment.createCalls, tree.nodes other.path ≠ none ∨
      ∃ r' ∈ (s.setPc i r (.asking rest)).registrars, other ∈ r'.pc.todo := by
  intro enrolment member other inside
  by_cases same : other = call
  · left
    rw [same]
    exact isThere
  · refine (registering.covered enrolment member other inside).imp (keeps _) (covered_setPc runs ?_)
    rw [first]
    intro todo
    exact (List.mem_cons.mp todo).resolve_left same

/-- A provider finds its node, and goes on to the next call. -/
theorem find (registering : Registering enrolments s) {i : Nat} {r : Registrar}
    {call : CreateCall} {rest : List CreateCall} (runs : s.registrars[i]? = some r)
    (asks : r.pc = .asking (call :: rest)) (isThere : s.tree.nodes call.path ≠ none) :
    Registering enrolments (s.setPc i r (.asking rest)) := by
  have first : r.pc.todo = call :: rest := by rw [asks]; rfl
  have fits := registering.fits r (List.mem_of_getElem? runs)
  constructor
  · exact forall_mem_set registering.fits (fits.advance first isThere)
  · apply forall_mem_set registering.absent
    intro waits none
    cases none
  · apply registering.apart_setPc runs
    intro waits none
    cases none
  · exact registering.covered_advance runs first (fun _ inTree => inTree) isThere

/-- A provider finds its node missing, and nobody else is about to create it. -/
theorem miss (registering : Registering enrolments s) {i : Nat} {r : Registrar}
    {call : CreateCall} {rest : List CreateCall} (runs : s.registrars[i]? = some r)
    (asks : r.pc = .asking (call :: rest)) (isMissing : s.tree.nodes call.path = none)
    (alone : ∀ other ∈ s.registrars, ∀ waits ∈ other.pc.creating?, waits.path ≠ call.path) :
    Registering enrolments (s.setPc i r (.creating call rest)) := by
  have fits := registering.fits r (List.mem_of_getElem? runs)
  rw [asks] at fits
  have creating : (RegistrarPc.creating call rest).Fits s.tree := by
    refine ⟨?_, fits.rooted, fits.shaped, fits.parents⟩
    intro exit
    cases exit
  constructor
  · exact forall_mem_set registering.fits creating
  · apply forall_mem_set registering.absent
    intro waits same
    cases same
    exact isMissing
  · apply registering.apart_setPc runs
    intro waits same
    cases same
    exact alone
  · intro enrolment member other inside
    refine (registering.covered enrolment member other inside).imp_right (covered_setPc runs ?_)
    rw [asks]
    exact fun todo => todo

/-- A provider creates the node that it waits for. -/
theorem create (registering : Registering enrolments s) {i : Nat} {r : Registrar}
    {call : CreateCall} {rest : List CreateCall} (runs : s.registrars[i]? = some r)
    (creates : r.pc = .creating call rest) (allowed : s.tree.createCode call.path = .zok) :
    Registering enrolments
      ({ s with tree := s.tree.insert call.path (call.node r.session) allowed }.setPc i r
        (.asking rest)) := by
  have first : r.pc.todo = call :: rest := by rw [creates]; rfl
  have fits := registering.fits r (List.mem_of_getElem? runs)
  have shaped : call.Shaped := fits.shaped call (by rw [first]; exact List.mem_cons_self)
  have isThere :
      (s.tree.insert call.path (call.node r.session) allowed).nodes call.path ≠ none := by
    rw [ZTree.insert_nodes, Function.update_self]
    exact Option.some_ne_none _
  constructor
  · apply forall_mem_set
    · intro other before
      exact (registering.fits other before).insert shaped r.session allowed
    · exact (fits.insert shaped r.session allowed).advance first isThere
  · intro other member waits same
    rcases List.getElem?_of_mem member with ⟨j, found⟩
    rw [getElem?_setPc (s := { s with
      tree := s.tree.insert call.path (call.node r.session) allowed }) runs] at found
    split at found
    · cases found
      cases same
    · rename_i different
      have apart : waits.path ≠ call.path := by
        intro samePath
        apply different
        exact registering.apart found runs same (by rw [creates]; rfl) samePath
      change Function.update s.tree.nodes call.path _ waits.path = none
      rw [Function.update_of_ne apart]
      exact registering.absent other (List.mem_of_getElem? found) waits same
  · apply registering.apart_setPc runs
    intro waits none
    cases none
  · apply registering.covered_advance runs first _ isThere
    intro path inTree
    rw [ZTree.insert_nodes]
    by_cases samePath : path = call.path
    · rw [samePath, Function.update_self]
      exact Option.some_ne_none _
    · rw [Function.update_of_ne samePath]
      exact inTree

/-- Every request of providers that keep apart. -/
theorem of_stepped (registering : Registering enrolments s) {action : RegistrationAction}
    (apart : s.KeepsApart action) (stepped : Stepped s action t) : Registering enrolments t := by
  cases stepped with
  | found runs asks isThere => exact registering.find runs asks isThere
  | @missing i r call rest runs asks isMissing =>
      exact registering.miss runs asks isMissing (apart r runs call (by rw [asks]; rfl))
  | created runs creates allowed => exact registering.create runs creates allowed
  | @refused i r call rest runs creates denied =>
      have member := List.mem_of_getElem? runs
      have fits := registering.fits r member
      have isMissing := registering.absent r member call (by rw [creates]; rfl)
      rw [creates] at fits
      exact absurd (fits.allowed isMissing) denied

/-- As long as a provider has something left to do, some provider can go on. -/
theorem progress (registering : Registering enrolments s) {r : Registrar}
    (member : r ∈ s.registrars) (busy : r.pc ≠ .asking []) :
    ∃ action, s.KeepsApart action ∧ s.next action ≠ none := by
  by_cases waiting : ∃ other ∈ s.registrars, ∃ waits, waits ∈ other.pc.creating?
  · rcases waiting with ⟨other, inside, waits, creates⟩
    rcases List.getElem?_of_mem inside with ⟨i, runs⟩
    refine ⟨.zooCreate i, trivial, ?_⟩
    cases pc : other.pc with
    | asking todo =>
        rw [pc] at creates
        cases creates
    | creating call rest => simp [next, runs, pc]
    | exited =>
        rw [pc] at creates
        cases creates
  · have nobody : ∀ other ∈ s.registrars, ∀ waits, waits ∉ other.pc.creating? := by
      intro other inside waits creates
      exact waiting ⟨other, inside, waits, creates⟩
    rcases List.getElem?_of_mem member with ⟨i, runs⟩
    cases pc : r.pc with
    | asking todo =>
        cases todo with
        | nil => exact absurd pc busy
        | cons call rest =>
            refine ⟨.zooExists i, ?_, ?_⟩
            · intro _ _ _ _ other inside waits creates
              exact absurd creates (nobody other inside waits)
            · simp only [next, runs, Option.bind_some, pc]
              split
              · exact Option.some_ne_none _
              · exact Option.some_ne_none _
    | creating call rest => exact absurd (by rw [pc]; rfl) (nobody r member call)
    | exited => exact absurd pc (registering.fits r member).running

/-- Registration begins on any tree whose ephemeral nodes are in nobody's way. -/
theorem start {tree : ZTree} (clear : ∀ enrolment ∈ enrolments, ∀ call ∈ enrolment.createCalls,
    tree.nodes call.path.dropLast = none ∨ tree.nodes call.path.dropLast = some {}) :
    Registering enrolments (Registration.start tree enrolments) := by
  constructor
  · intro r member
    rcases List.mem_map.mp member with ⟨enrolment, inside, rfl⟩
    refine ⟨?_, ⟨[], ?_, enrolment.rooted_createCalls⟩, fun call => Enrolment.shaped_of_mem,
      clear enrolment inside⟩
    · intro exit
      cases exit
    · intro path none
      cases none
  · intro r member waits creates
    rcases List.mem_map.mp member with ⟨enrolment, inside, rfl⟩
    cases creates
  · intro i j r r' call call' found _ creates
    rcases List.mem_map.mp (List.mem_of_getElem? found) with ⟨enrolment, inside, rfl⟩
    cases creates
  · intro enrolment member call inside
    exact .inr ⟨_, List.mem_map_of_mem member, inside⟩

end Registering

/-! ## Runs -/

/-- Providers that keep apart all register: no request fails, there are no more
requests than the loops have work, and when no request is left every provider
has finished and stands under all of its methods. -/
theorem registered_of_apart {tree : ZTree} {enrolments : List (Enrolment Msg)}
    (clear : ∀ enrolment ∈ enrolments, ∀ call ∈ enrolment.createCalls,
      tree.nodes call.path.dropLast = none ∨ tree.nodes call.path.dropLast = some {})
    {requests : List RegistrationAction}
    (apart : Meets next KeepsApart (Registration.start tree enrolments) requests)
    (ran : run next (Registration.start tree enrolments) requests = some s) :
    (∀ r ∈ s.registrars, r.pc ≠ .exited) ∧
    requests.length + s.work ≤ (Registration.start tree enrolments).work ∧
    ((∀ request, s.KeepsApart request → s.next request = none) →
      (∀ r ∈ s.registrars, r.pc = .asking []) ∧
      ∀ enrolment ∈ enrolments, ∀ sp ∈ enrolment.provider.serviceMap, ∀ mp ∈ sp.2.methodMap,
        (s.tree.nodes [sp.1, mp.1, enrolment.host]).isSome = true) := by
  have registering : Registering enrolments s := by
    apply (reachable_of_meets apart ran).invariant (Registering.start clear)
    intro state request successor registering apart step
    exact registering.of_stepped apart (stepped_of_next step)
  refine ⟨fun r member => (registering.fits r member).running, ?_, ?_⟩
  · apply length_add_le_of_decreasing _ ran
    intro state request successor step
    exact work_lt_of_stepped (stepped_of_next step)
  · intro silent
    have finished : ∀ r ∈ s.registrars, r.pc = .asking [] := by
      intro r member
      by_contra busy
      rcases registering.progress member busy with ⟨request, apart, enabled⟩
      exact enabled (silent request apart)
    refine ⟨finished, ?_⟩
    intro enrolment member sp service mp method
    have own := enrolment.hostCall_mem service method
    rcases registering.covered enrolment member _ own with isThere | ⟨r, running, todo⟩
    · exact Option.isSome_iff_ne_none.mpr isThere
    · rw [finished r running] at todo
      cases todo

/-- Two providers of the example service on one machine. -/
def cluster : List (Enrolment RpcHeader) :=
  [⟨1, userProvider, hostName (Bytes.ofString "127.0.0.1") 8000⟩,
    ⟨2, userProvider, hostName (Bytes.ofString "127.0.0.1") 8001⟩]

/-- Both find the node of the service missing, and the second one to create it
exits. -/
theorem concurrent_start_exits :
    ∃ s, Reachable next Unrestricted (start .empty cluster) s ∧
      ∃ r ∈ s.registrars, r.pc = .exited := by
  apply exists_reachable [.zooExists 0, .zooExists 1, .zooCreate 0, .zooCreate 1]
  · exact Meets.unrestricted ..
  · decide +kernel

/-- The second one starts when the first one has registered. -/
theorem registered_one_by_one :
    ∃ s, run next (start .empty cluster)
        [.zooExists 0, .zooCreate 0, .zooExists 0, .zooCreate 0, .zooExists 0, .zooCreate 0,
          .zooExists 1, .zooExists 1, .zooExists 1, .zooCreate 1] = some s ∧
      (∀ r ∈ s.registrars, r.pc ≠ .exited) ∧
      10 + s.work ≤ (start .empty cluster).work ∧
      (∀ r ∈ s.registrars, r.pc = .asking []) ∧
      ∀ enrolment ∈ cluster, ∀ sp ∈ enrolment.provider.serviceMap, ∀ mp ∈ sp.2.methodMap,
        (s.tree.nodes [sp.1, mp.1, enrolment.host]).isSome = true := by
  have runs : ∃ s ∈ run next (start .empty cluster)
      [.zooExists 0, .zooCreate 0, .zooExists 0, .zooCreate 0, .zooExists 0, .zooCreate 0,
        .zooExists 1, .zooExists 1, .zooExists 1, .zooCreate 1],
      ∀ r ∈ s.registrars, r.pc = .asking [] := by
    decide +kernel
  rcases runs with ⟨s, ran, finished⟩
  rcases registered_of_apart (by decide +kernel) (by decide +kernel) ran with
    ⟨running, bounded, registered⟩
  exact ⟨s, ran, running, bounded,
    registered fun request _ => next_eq_none_of_finished finished request⟩

end Registration

end Mprpc.Rpc
