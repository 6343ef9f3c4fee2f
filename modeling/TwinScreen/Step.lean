import TwinScreen.Fault

/-!
# Steps

A step changes a state and ends with a result or with a fault. Either way it says which state it
leaves, so what a failed step has already written can be seen.
-/
namespace TwinScreen

/-- A change of a state of type `σ` with a result of type `α`. -/
abbrev Step (σ α : Type) : Type := EStateM Fault σ α

namespace Step

variable {σ τ α : Type}

/-- A computation that leaves the state alone. -/
def ofExcept : Except Fault α → Step σ α
  | .ok a => pure a
  | .error e => throw e

instance : MonadLift (Except Fault) (Step σ) := ⟨ofExcept⟩

/-- A step on a part of the state. -/
def within (part : σ → τ) (replace : σ → τ → σ) (step : Step τ α) : Step σ α := fun s =>
  match step (part s) with
  | .ok a t => .ok a (replace s t)
  | .error e t => .error e (replace s t)

/-- The result of a step and the state after it, if it does not fail. -/
def result (step : Step σ α) (s : σ) : Except Fault (α × σ) :=
  match step s with
  | .ok a s' => .ok (a, s')
  | .error e _ => .error e

end Step

end TwinScreen
