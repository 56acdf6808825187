import Mathlib.Data.List.Basic

/-! Several parties act on one state, one action after another and in any order. An action that its
party cannot take changes nothing. -/

namespace Interleaving
variable {σ α : Type} {step : σ → α → σ} {s : σ}

/-- Every action is taken in a state that allows it. -/
def Along (step : σ → α → σ) (allows : σ → α → Prop) : List α → σ → Prop
  | [], _ => True
  | action :: actions, s => allows s action ∧ Along step allows actions (step s action)

instance instDecidableAlong {allows : σ → α → Prop} [∀ s action, Decidable (allows s action)] :
    (actions : List α) → (s : σ) → Decidable (Along step allows actions s)
  | [], _ => .isTrue trivial
  | action :: actions, s =>
    @instDecidableAnd (allows s action) (Along step allows actions (step s action)) _
      (instDecidableAlong actions (step s action))

theorem invariant_along {allows : σ → α → Prop} {inv : σ → Prop}
    (each : ∀ s action, allows s action → inv s → inv (step s action))
    {actions : List α} (along : Along step allows actions s) (start : inv s) :
    inv (actions.foldl step s) := by
  induction actions generalizing s with
  | nil => exact start
  | cons action actions ih => exact ih along.2 (each s action along.1 start)

theorem invariant {inv : σ → Prop} (each : ∀ s action, inv s → inv (step s action)) (actions : List α)
    (start : inv s) :
    inv (actions.foldl step s) := by
  induction actions generalizing s with
  | nil => exact start
  | cons action actions ih => exact ih (each s action start)

end Interleaving
