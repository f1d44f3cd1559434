import Mprpc.Rpc.Registration

/-!
# Registration and the end of sessions

A node of a provider lives as long as the session that created it.  A provider
that is started again finds the nodes of its former session until that session
expires; then they are gone, and the new session never creates its own.
-/

namespace Mprpc.Rpc

open Mprpc.Transition
open Mprpc.Zookeeper

universe u

/-- The provider of a request. -/
def RegistrationAction.provider : RegistrationAction → Nat
  | .zooExists i => i
  | .zooCreate i => i

/-- The answer to a request of an expired session is neither `ZNONODE` nor
`ZOK`. -/
def RegistrarPc.refuse : RegistrarPc → RegistrationAction → Option RegistrarPc
  | .asking (_ :: rest), .zooExists _ => some (.asking rest)
  | .creating _ _, .zooCreate _ => some .exited
  | _, _ => none

/-- Providers with their sessions, of which some have expired. -/
structure Sessions where
  registration : Registration
  expired : List SessionId

inductive SessionAction
  | request (request : RegistrationAction)
  /-- the server ends a session -/
  | expire (session : SessionId)
  deriving DecidableEq, Repr

namespace Sessions

variable {Msg : Type u}

def start (tree : ZTree) (enrolments : List (Enrolment Msg)) : Sessions where
  registration := .start tree enrolments
  expired := []

/-- One step. -/
def next (s : Sessions) : SessionAction → Option Sessions
  | .request request =>
      (s.registration.registrars[request.provider]?).bind fun r =>
        if r.session ∈ s.expired then
          (r.pc.refuse request).map fun pc =>
            { s with registration := s.registration.setPc request.provider r pc }
        else (s.registration.next request).map fun registration =>
          { s with registration := registration }
  | .expire session => some {
      registration := { s.registration with tree := s.registration.tree.expire session }
      expired := session :: s.expired }

/-- The effect of one step. -/
inductive Stepped (s : Sessions) : SessionAction → Sessions → Prop
  | answered {request : RegistrationAction} {registration : Registration}
      (stepped : Registration.Stepped s.registration request registration)
      (lives : ∀ r ∈ s.registration.registrars[request.provider]?, r.session ∉ s.expired) :
      Stepped s (.request request) { s with registration := registration }
  | refused {request : RegistrationAction} {r : Registrar} {pc : RegistrarPc}
      (runs : s.registration.registrars[request.provider]? = some r)
      (isExpired : r.session ∈ s.expired) (refuses : r.pc.refuse request = some pc) :
      Stepped s (.request request)
        { s with registration := s.registration.setPc request.provider r pc }
  | expired (session : SessionId) :
      Stepped s (.expire session) {
        registration := { s.registration with tree := s.registration.tree.expire session }
        expired := session :: s.expired }

theorem stepped_of_next {s t : Sessions} {action : SessionAction}
    (step : s.next action = some t) : Stepped s action t := by
  cases action with
  | request request =>
      rcases Option.bind_eq_some_iff.mp step with ⟨r, runs, step⟩
      split at step
      · rename_i isExpired
        rcases Option.map_eq_some_iff.mp step with ⟨pc, refuses, rfl⟩
        exact .refused runs isExpired refuses
      · rename_i lives
        rcases Option.map_eq_some_iff.mp step with ⟨registration, answers, rfl⟩
        refine .answered (Registration.stepped_of_next answers) fun other isProvider => ?_
        rw [runs] at isProvider
        cases isProvider
        exact lives
  | expire session =>
      cases step
      exact .expired session

/-- When a live provider finds its host node, no other session owns the node. -/
def FindsOwn (s : Sessions) : SessionAction → Prop
  | .request (.zooExists i) =>
      ∀ r ∈ s.registration.registrars[i]?, r.session ∉ s.expired →
        ∀ call ∈ r.pc.todo.head?, call.ephemeral = true →
          ∀ node ∈ s.registration.tree.nodes call.path,
            node.ephemeralOwner = none ∨ node.ephemeralOwner = some r.session
  | _ => True

instance (s : Sessions) : (action : SessionAction) → Decidable (s.FindsOwn action)
  | .request (.zooExists i) =>
      inferInstanceAs (Decidable (∀ r ∈ s.registration.registrars[i]?, r.session ∉ s.expired →
        ∀ call ∈ r.pc.todo.head?, call.ephemeral = true →
          ∀ node ∈ s.registration.tree.nodes call.path,
            node.ephemeralOwner = none ∨ node.ephemeralOwner = some r.session))
  | .request (.zooCreate _) => isTrue trivial
  | .expire _ => isTrue trivial

/-- Each node that the provider of an enrolment creates for itself is still to come,
or lasts as long as its session. -/
structure Kept (tree : ZTree) (expired : List SessionId) (enrolment : Enrolment Msg)
    (r : Registrar) : Prop where
  session : r.session = enrolment.session
  lasting : r.session ∉ expired → r.pc ≠ .exited → ∀ call ∈ enrolment.createCalls,
    call.ephemeral = true → call ∈ r.pc.todo ∨ tree.Lasting r.session call.path

namespace Kept

variable {tree : ZTree} {expired : List SessionId} {enrolment : Enrolment Msg} {r : Registrar}

/-- Nothing takes the nodes away while the session lives. -/
theorem mono (kept : Kept tree expired enrolment r) {later : ZTree} {more : List SessionId}
    (subset : expired ⊆ more) (lasts : ∀ session ∉ more, ∀ path, tree.Lasting session path →
      later.Lasting session path) : Kept later more enrolment r where
  session := kept.session
  lasting := by
    intro lives running call member ephemeral
    have before := kept.lasting (fun dead => lives (subset dead)) running call member ephemeral
    exact before.imp_right (lasts r.session lives call.path)

/-- The provider is done with its first call. -/
theorem advance (kept : Kept tree expired enrolment r) (running : r.pc ≠ .exited)
    {first : CreateCall} {rest : List CreateCall} (isFirst : r.pc.todo = first :: rest)
    (lasts : r.session ∉ expired → first.ephemeral = true → tree.Lasting r.session first.path) :
    Kept tree expired enrolment { r with pc := .asking rest } where
  session := kept.session
  lasting := by
    intro lives _ call member ephemeral
    rcases kept.lasting lives running call member ephemeral with todo | lasting
    · rw [isFirst] at todo
      rcases List.mem_cons.mp todo with rfl | later
      · exact .inr (lasts lives ephemeral)
      · exact .inl later
    · exact .inr lasting

end Kept

/-- Every provider keeps its nodes. -/
def AllKept (enrolments : List (Enrolment Msg)) (s : Sessions) : Prop :=
  ∀ (j : Nat) (r : Registrar), s.registration.registrars[j]? = some r →
    ∃ enrolment : Enrolment Msg, enrolments[j]? = some enrolment ∧
      Kept s.registration.tree s.expired enrolment r

namespace AllKept

variable {enrolments : List (Enrolment Msg)} {s t : Sessions}

/-- One provider moves, in the same tree. -/
theorem setPc (keeps : AllKept enrolments s) {i : Nat} {r : Registrar} {pc : RegistrarPc}
    (runs : s.registration.registrars[i]? = some r)
    (moves : ∀ enrolment : Enrolment Msg, Kept s.registration.tree s.expired enrolment r →
      Kept s.registration.tree s.expired enrolment { r with pc := pc }) :
    AllKept enrolments { s with registration := s.registration.setPc i r pc } := by
  intro j other found
  rw [Registration.getElem?_setPc runs] at found
  split at found
  · rename_i here
    cases found
    rcases keeps i r runs with ⟨enrolment, enrolled, before⟩
    rw [here]
    exact ⟨enrolment, enrolled, moves enrolment before⟩
  · exact keeps j other found

/-- The tree changes, and no live session loses a node. -/
theorem mono (keeps : AllKept enrolments s) {later : ZTree} {more : List SessionId}
    (subset : s.expired ⊆ more) (lasts : ∀ session ∉ more, ∀ path,
      s.registration.tree.Lasting session path → later.Lasting session path) :
    AllKept enrolments
      { registration := { s.registration with tree := later }, expired := more } := by
  intro j r found
  rcases keeps j r found with ⟨enrolment, enrolled, kept⟩
  exact ⟨enrolment, enrolled, kept.mono subset lasts⟩

theorem of_stepped {action : SessionAction} (keeps : AllKept enrolments s)
    (findsOwn : s.FindsOwn action) (stepped : Stepped s action t) : AllKept enrolments t := by
  cases stepped with
  | answered stepped lives =>
      cases stepped with
      | @found i r call rest runs asks isThere =>
          apply keeps.setPc runs
          intro enrolment kept
          refine kept.advance (by simp [asks]) (by rw [asks]; rfl) fun lives ephemeral => ?_
          rcases Option.ne_none_iff_exists'.mp isThere with ⟨node, atPath⟩
          exact ⟨node, atPath, findsOwn r runs lives call (by rw [asks]; rfl) ephemeral node atPath⟩
      | @missing i r call rest runs asks isMissing =>
          apply keeps.setPc runs
          intro enrolment kept
          refine ⟨kept.session, fun lives _ other member ephemeral => ?_⟩
          have before := kept.lasting lives (by simp [asks]) other member ephemeral
          rw [asks] at before
          exact before
      | @created i r call rest runs creates allowed =>
          have grown := keeps.mono (List.Subset.refl _) fun session _ path lasting =>
            lasting.insert (call.node r.session) allowed
          apply grown.setPc (i := i) runs
          intro enrolment kept
          refine kept.advance (by simp [creates]) (by rw [creates]; rfl) fun _ ephemeral => ?_
          have own : (call.node r.session).ephemeralOwner = some r.session := by
            rw [CreateCall.node, if_pos ephemeral]
          exact .of_insert (.inr own) allowed
      | @refused i r call rest runs creates denied =>
          apply keeps.setPc runs
          intro enrolment kept
          exact ⟨kept.session, fun _ running => absurd rfl running⟩
  | refused runs isExpired refuses =>
      apply keeps.setPc runs
      intro enrolment kept
      exact ⟨kept.session, fun lives => absurd isExpired lives⟩
  | expired session =>
      apply keeps.mono (List.subset_cons_self _ _)
      intro other lives path lasting
      apply lasting.expire
      rintro rfl
      exact lives List.mem_cons_self

end AllKept

/-- In runs in which no live provider finds a foreign node in place of its own, a
provider whose loop has finished stays under every method as long as its session
lives. -/
theorem live_provider_registered {tree : ZTree} {enrolments : List (Enrolment Msg)}
    {s : Sessions} (reached : Reachable next FindsOwn (start tree enrolments) s) {i : Nat}
    {enrolment : Enrolment Msg} {r : Registrar} (enrolled : enrolments[i]? = some enrolment)
    (runs : s.registration.registrars[i]? = some r) (finished : r.pc = .asking [])
    (lives : enrolment.session ∉ s.expired) :
    ∀ sp ∈ enrolment.provider.serviceMap, ∀ mp ∈ sp.2.methodMap,
      (s.registration.tree.nodes [sp.1, mp.1, enrolment.host]).isSome = true := by
  have keeps : AllKept enrolments s := by
    apply reached.invariant
    · intro j r found
      rw [start, Registration.start, List.getElem?_map] at found
      rcases Option.map_eq_some_iff.mp found with ⟨enrolment, enrolled, rfl⟩
      exact ⟨enrolment, enrolled, rfl, fun _ _ call member _ => .inl member⟩
    · intro state action successor keeps findsOwn step
      exact keeps.of_stepped findsOwn (stepped_of_next step)
  intro sp service mp method
  rcases keeps i r runs with ⟨same, atI, kept⟩
  rw [enrolled] at atI
  cases atI
  have own := enrolment.hostCall_mem service method
  rw [← kept.session] at lives
  rcases kept.lasting lives (by simp [finished]) _ own rfl with todo | lasting
  · rw [finished] at todo
    cases todo
  · exact lasting.isSome

/-- A live provider that finds a foreign node goes on without creating its own, and
loses the node when the other session expires. -/
theorem lost_of_foreign {s t : Sessions} {i : Nat}
    (step : s.next (.request (.zooExists i)) = some t)
    (foreign : ¬ s.FindsOwn (.request (.zooExists i))) :
    ∃ (r : Registrar) (call : CreateCall) (rest : List CreateCall) (owner : SessionId),
      s.registration.registrars[i]? = some r ∧ r.pc = .asking (call :: rest) ∧
        call.ephemeral = true ∧ r.session ∉ t.expired ∧ owner ≠ r.session ∧
        t.registration.registrars[i]? = some { r with pc := .asking rest } ∧
        (t.registration.tree.expire owner).nodes call.path = none := by
  simp only [FindsOwn, not_forall, not_or] at foreign
  rcases foreign with ⟨r, runs, lives, call, isFirst, ephemeral, node, atPath, notNone, notOwn⟩
  rcases Option.ne_none_iff_exists'.mp notNone with ⟨owner, owns⟩
  have stepped := stepped_of_next step
  cases stepped with
  | answered stepped _ =>
      cases stepped with
      | @found _ mover first rest here asks isThere =>
          rw [runs] at here
          cases here
          rw [asks] at isFirst
          cases isFirst
          refine ⟨r, call, rest, owner, runs, asks, ephemeral, lives, ?_, ?_, ?_⟩
          · rintro rfl
            exact notOwn owns
          · rw [Registration.getElem?_setPc runs, if_pos rfl]
          · exact ZTree.nodes_expire_of_owner atPath owns
      | @missing _ mover first rest here asks isMissing =>
          rw [runs] at here
          cases here
          rw [asks] at isFirst
          cases isFirst
          rw [atPath] at isMissing
          cases isMissing
  | refused here isExpired _ =>
      cases Option.some.inj (runs.symm.trans here)
      exact absurd isExpired lives

/-- A provider of the example service, and the same provider started again. -/
def restarted : List (Enrolment RpcHeader) :=
  [⟨1, userProvider, hostName (Bytes.ofString "127.0.0.1") 8000⟩,
    ⟨2, userProvider, hostName (Bytes.ofString "127.0.0.1") 8000⟩]

/-- It starts again when the former session has expired. -/
theorem restarted_after_expiry :
    ∃ s, Reachable next FindsOwn (start .empty restarted) s ∧
      s.registration.registrars[1]? = some ⟨2, .asking []⟩ ∧
      ∀ sp ∈ (userProvider).serviceMap, ∀ mp ∈ sp.2.methodMap,
        (s.registration.tree.nodes
          [sp.1, mp.1, hostName (Bytes.ofString "127.0.0.1") 8000]).isSome = true := by
  have run : ∃ s, Reachable next FindsOwn (start .empty restarted) s ∧
      (s.registration.registrars[1]? = some ⟨2, .asking []⟩ ∧ 2 ∉ s.expired) := by
    apply exists_reachable [.request (.zooExists 0), .request (.zooCreate 0),
      .request (.zooExists 0), .request (.zooCreate 0), .request (.zooExists 0),
      .request (.zooCreate 0), .expire 1, .request (.zooExists 1), .request (.zooExists 1),
      .request (.zooExists 1), .request (.zooCreate 1), .expire 1]
    · decide +kernel
    · decide +kernel
  rcases run with ⟨s, reached, runs, lives⟩
  exact ⟨s, reached, runs, live_provider_registered (i := 1) reached rfl runs rfl lives⟩

/-- It starts again while the former session still has the node, and then that
session expires. -/
theorem restarted_before_expiry_lost :
    ∃ s, Reachable next Unrestricted (start .empty restarted) s ∧
      s.registration.registrars[1]? = some ⟨2, .asking []⟩ ∧ 2 ∉ s.expired ∧
      ∃ sp ∈ userProvider.serviceMap, ∃ mp ∈ sp.2.methodMap,
        s.registration.tree.nodes
          [sp.1, mp.1, hostName (Bytes.ofString "127.0.0.1") 8000] = none := by
  apply exists_reachable [.request (.zooExists 0), .request (.zooCreate 0),
    .request (.zooExists 0), .request (.zooCreate 0), .request (.zooExists 0),
    .request (.zooCreate 0), .request (.zooExists 1), .request (.zooExists 1),
    .request (.zooExists 1), .expire 1]
  · exact Meets.unrestricted _ _ _
  · decide +kernel

end Sessions

end Mprpc.Rpc
