import Mathlib.Logic.Basic

/-!
# Runs with answers

A step of an observed system answers its action.  `Runs` lists the actions of a
run with their answers, so that two systems can be compared by what they say
and not by how they keep their state.  `Runs.refines` is forward simulation: a
function on states that maps every step to a step of the other system maps
every run to a run with the same answers.
-/

namespace Mprpc.Transition

universe u v w x

variable {σ : Type u} {τ : Type x} {α : Type v} {ω : Type w}

/-- Runs of a step relation, with the answers in order. -/
inductive Runs (step : σ → α → ω → σ → Prop) (source : σ) : List (α × ω) → σ → Prop
  | nil : Runs step source [] source
  | snoc {history : List (α × ω)} {middle target : σ} {action : α} {answer : ω} :
      Runs step source history middle →
      step middle action answer target →
      Runs step source (history ++ [(action, answer)]) target

/-- The step relation of a function that answers. -/
def Answers (next : σ → α → Option (ω × σ)) (state : σ) (action : α) (answer : ω) (target : σ) :
    Prop :=
  next state action = some (answer, target)

namespace Runs

variable {step : σ → α → ω → σ → Prop} {step' : τ → α → ω → τ → Prop} {source target : σ}
  {history : List (α × ω)}

/-- A property of the source that every step preserves. -/
theorem invariant {holds : σ → Prop} (initial : holds source)
    (preserved : ∀ ⦃state action answer successor⦄, holds state →
      step state action answer successor → holds successor)
    (runs : Runs step source history target) : holds target := by
  induction runs with
  | nil => exact initial
  | snoc _ last inductionHypothesis => exact preserved inductionHypothesis last

/-- A property of a history and the state it leads to that every step preserves. -/
theorem invariant_history {holds : List (α × ω) → σ → Prop} (initial : holds [] source)
    (preserved : ∀ ⦃history state action answer successor⦄, holds history state →
      step state action answer successor → holds (history ++ [(action, answer)]) successor)
    (runs : Runs step source history target) : holds history target := by
  induction runs with
  | nil => exact initial
  | snoc _ last inductionHypothesis => exact preserved inductionHypothesis last

/-- Forward simulation along a function on the states of an invariant. -/
theorem refines {holds : σ → Prop} (abstraction : σ → τ) (initial : holds source)
    (preserved : ∀ ⦃state action answer successor⦄, holds state →
      step state action answer successor → holds successor)
    (simulates : ∀ ⦃state action answer successor⦄, holds state →
      step state action answer successor →
        step' (abstraction state) action answer (abstraction successor))
    (runs : Runs step source history target) :
    Runs step' (abstraction source) history (abstraction target) := by
  induction runs with
  | nil => exact .nil
  | snoc before last inductionHypothesis =>
      exact .snoc inductionHypothesis (simulates (invariant initial preserved before) last)

/-- One more step in front of a run. -/
theorem cons {middle : σ} {action : α} {answer : ω} (first : step source action answer middle)
    (rest : Runs step middle history target) :
    Runs step source ((action, answer) :: history) target := by
  induction rest with
  | nil => exact Runs.snoc Runs.nil first
  | snoc _ last inductionHypothesis => exact .snoc inductionHypothesis last

end Runs

/-- The answers of a list of actions, and the state they lead to. -/
def observe (next : σ → α → Option (ω × σ)) : σ → List α → Option (List (α × ω) × σ)
  | state, [] => some ([], state)
  | state, action :: actions =>
      (next state action).bind fun (answer, middle) =>
        (observe next middle actions).map fun (history, target) =>
          ((action, answer) :: history, target)

theorem runs_of_observe {next : σ → α → Option (ω × σ)} {source target : σ} {actions : List α}
    {history : List (α × ω)} (observed : observe next source actions = some (history, target)) :
    Runs (Answers next) source history target := by
  induction actions generalizing source history with
  | nil =>
      cases observed
      exact .nil
  | cons action actions inductionHypothesis =>
      rcases Option.bind_eq_some_iff.mp observed with ⟨⟨answer, middle⟩, first, rest⟩
      rcases Option.map_eq_some_iff.mp rest with ⟨⟨later, last⟩, found, same⟩
      cases same
      exact (inductionHypothesis found).cons first

/-- Answers that can be evaluated are the answers of a run. -/
theorem exists_runs {next : σ → α → Option (ω × σ)} {source : σ} {history : List (α × ω)}
    (actions : List α)
    (evaluated : (observe next source actions).map Prod.fst = some history) :
    ∃ target, Runs (Answers next) source history target := by
  rcases Option.map_eq_some_iff.mp evaluated with ⟨⟨found, target⟩, observed, rfl⟩
  exact ⟨target, runs_of_observe observed⟩

end Mprpc.Transition
