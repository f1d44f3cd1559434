import Mathlib.Logic.Basic

/-!
# Labelled partial transitions

A system is described by one partial function: given a state and an action it
returns the next state, or `none` when the action is not enabled.  Everything
the environment chooses (the scheduler, the results of system calls, the bytes
that arrive) is carried by the action, so a step stays a computable function
and a concrete run is a list of actions that can be evaluated.

`Reachable` collects the states of all runs whose actions meet a side condition
in the state in which they are taken; `Reachable.invariant` is the only
induction over runs that the development needs.
-/

namespace Mprpc.Transition

universe u v

/-- A labelled partial step function. -/
abbrev Step (σ : Type u) (α : Type v) := σ → α → Option σ

/-- The side condition that constrains no action. -/
def Unrestricted {σ : Type u} {α : Type v} : σ → α → Prop :=
  fun _ _ => True

variable {σ : Type u} {α : Type v}

/-- Execute a list of actions.  A disabled action makes the whole run
undefined. -/
def run (next : Step σ α) : σ → List α → Option σ
  | state, [] => some state
  | state, action :: actions => (next state action).bind fun middle => run next middle actions

@[simp]
theorem run_nil (next : Step σ α) (state : σ) : run next state [] = some state :=
  rfl

theorem run_cons (next : Step σ α) (state : σ) (action : α) (actions : List α) :
    run next state (action :: actions) =
      (next state action).bind fun middle => run next middle actions :=
  rfl

/-- States reached from `source` by actions that meet `allowed` in the state
in which they are taken. -/
inductive Reachable (next : Step σ α) (allowed : σ → α → Prop) (source : σ) : σ → Prop
  | refl : Reachable next allowed source source
  | tail {middle target : σ} {action : α} :
      Reachable next allowed source middle →
      allowed middle action →
      next middle action = some target →
      Reachable next allowed source target

namespace Reachable

variable {next : Step σ α} {allowed : σ → α → Prop} {source target : σ}

/-- A property of the source that every allowed step preserves holds in every
reachable state. -/
theorem invariant {holds : σ → Prop} (initial : holds source)
    (preserved : ∀ ⦃state action successor⦄, holds state → allowed state action →
      next state action = some successor → holds successor)
    (reached : Reachable next allowed source target) : holds target := by
  induction reached with
  | refl => exact initial
  | tail _ allowedStep step inductionHypothesis =>
      exact preserved inductionHypothesis allowedStep step

/-- The invariant rule relative to facts already known of reachable states. -/
theorem invariant_of {known holds : σ → Prop}
    (established : ∀ ⦃state⦄, Reachable next allowed source state → known state)
    (initial : holds source)
    (preserved : ∀ ⦃state action successor⦄, known state → holds state →
      allowed state action → next state action = some successor → holds successor)
    (reached : Reachable next allowed source target) : holds target := by
  induction reached with
  | refl => exact initial
  | tail before allowedStep step inductionHypothesis =>
      exact preserved (established before) inductionHypothesis allowedStep step

theorem trans {middle : σ} (first : Reachable next allowed source middle)
    (second : Reachable next allowed middle target) :
    Reachable next allowed source target := by
  induction second with
  | refl => exact first
  | tail _ allowedStep step inductionHypothesis =>
      exact .tail inductionHypothesis allowedStep step

theorem single {action : α} (allowedStep : allowed source action)
    (step : next source action = some target) : Reachable next allowed source target :=
  .tail .refl allowedStep step

end Reachable

/-- Every action of a run meets a side condition in the state in which it is
taken. -/
def Meets (next : Step σ α) (allowed : σ → α → Prop) : σ → List α → Prop
  | _, [] => True
  | state, action :: actions =>
      allowed state action ∧ ∀ middle ∈ next state action, Meets next allowed middle actions

instance Meets.decide (next : Step σ α) (allowed : σ → α → Prop)
    [∀ state action, Decidable (allowed state action)] :
    (state : σ) → (actions : List α) → Decidable (Meets next allowed state actions)
  | _, [] => isTrue trivial
  | state, action :: actions =>
      have := fun middle => Meets.decide next allowed middle actions
      inferInstanceAs (Decidable
        (allowed state action ∧ ∀ middle ∈ next state action, Meets next allowed middle actions))

theorem Meets.unrestricted (next : Step σ α) (source : σ) (actions : List α) :
    Meets next Unrestricted source actions := by
  induction actions generalizing source with
  | nil => trivial
  | cons action actions inductionHypothesis =>
      exact ⟨trivial, fun middle _ => inductionHypothesis middle⟩

/-- Every successful run that meets the side condition ends in a reachable
state. -/
theorem reachable_of_meets {next : Step σ α} {allowed : σ → α → Prop} {source target : σ}
    {actions : List α} (meets : Meets next allowed source actions)
    (succeeds : run next source actions = some target) :
    Reachable next allowed source target := by
  induction actions generalizing source with
  | nil =>
      cases succeeds
      exact .refl
  | cons action actions inductionHypothesis =>
      rw [run_cons] at succeeds
      rcases Option.bind_eq_some_iff.mp succeeds with ⟨middle, first, rest⟩
      rcases meets with ⟨allowedStep, later⟩
      exact (Reachable.single allowedStep first).trans
        (inductionHypothesis (later middle first) rest)

/-- When every allowed step decreases a measure, no run of such steps is longer
than the measure allows. -/
theorem length_add_le_of_meets {next : Step σ α} {allowed : σ → α → Prop} {measure : σ → Nat}
    (decreases : ∀ ⦃state action successor⦄, allowed state action →
      next state action = some successor → measure successor < measure state)
    {source target : σ} {actions : List α} (meets : Meets next allowed source actions)
    (succeeds : run next source actions = some target) :
    actions.length + measure target ≤ measure source := by
  induction actions generalizing source with
  | nil =>
      cases succeeds
      exact Nat.le_of_eq (Nat.zero_add _)
  | cons action actions inductionHypothesis =>
      rw [run_cons] at succeeds
      rcases Option.bind_eq_some_iff.mp succeeds with ⟨middle, first, rest⟩
      rcases meets with ⟨allowedStep, later⟩
      have shorter := inductionHypothesis (later middle first) rest
      have less := decreases allowedStep first
      rw [List.length_cons]
      omega

/-- When every step decreases a measure, no run has more steps than the measure
allows. -/
theorem length_add_le_of_decreasing {next : Step σ α} {measure : σ → Nat}
    (decreases : ∀ ⦃state action successor⦄, next state action = some successor →
      measure successor < measure state) {source target : σ} {actions : List α}
    (succeeds : run next source actions = some target) :
    actions.length + measure target ≤ measure source :=
  length_add_le_of_meets (fun _ _ _ _ step => decreases step)
    (Meets.unrestricted next source actions) succeeds

/-- A run that can be evaluated shows that a state with a property is
reachable. -/
theorem exists_reachable {next : Step σ α} {allowed : σ → α → Prop} {source : σ}
    {holds : σ → Prop} (actions : List α) (meets : Meets next allowed source actions)
    (evaluated : ∃ target ∈ run next source actions, holds target) :
    ∃ target, Reachable next allowed source target ∧ holds target := by
  rcases evaluated with ⟨target, succeeds, holdsTarget⟩
  exact ⟨target, reachable_of_meets meets succeeds, holdsTarget⟩

end Mprpc.Transition
