import Mathlib.Data.List.Basic
import Mathlib.Data.List.Forall2

/-! A fallible function at every element of a list, in order, until one fails. -/

namespace Traversal
variable {ε α β : Type} {f : α → Except ε β}

theorem mapM_cons_ok {x : α} {rest : List α} {results : List β} :
    (x :: rest).mapM f = .ok results ↔ ∃ y later, f x = .ok y ∧ rest.mapM f = .ok later ∧ results =
    y :: later := by
  rw [List.mapM_cons]
  cases f x with
  | error error => simp [bind, Except.bind]
  | ok y =>
    cases rest.mapM f with
    | error error => simp [bind, Except.bind]
    | ok later => simp [bind, Except.bind, pure, Except.pure, eq_comm]

theorem mapM_cons_error {x : α} {rest : List α} {error : ε} :
    (x :: rest).mapM f = .error error ↔ f x = .error error ∨ ∃ y, f x = .ok y ∧ rest.mapM f =
    .error error := by
  rw [List.mapM_cons]
  cases f x with
  | error other => simp [bind, Except.bind]
  | ok y =>
    cases rest.mapM f with
    | error other => simp [bind, Except.bind]
    | ok later => simp [bind, Except.bind, pure, Except.pure]

/-- The error is that of the first element that fails. -/
theorem mapM_eq_error_iff {xs : List α} {error : ε} : xs.mapM f = .error error ↔
    ∃ before x after, xs = before ++ x :: after ∧ (∀ earlier ∈ before, ∃ y, f earlier = .ok y) ∧ f x =
      .error error := by
  induction xs with
  | nil => simp [pure, Except.pure]
  | cons x xs ih =>
    rw [mapM_cons_error, ih]
    constructor
    · rintro (fails | ⟨y, succeeds, before, x', after, rfl, earlier, fails⟩)
      · exact ⟨[], x, xs, rfl, by simp, fails⟩
      · refine ⟨x :: before, x', after, rfl, fun other member => ?_, fails⟩
        rcases List.mem_cons.mp member with rfl | member
        · exact ⟨y, succeeds⟩
        · exact earlier other member
    · rintro ⟨before, x', after, split, earlier, fails⟩
      cases before with
      | nil =>
        cases split
        exact .inl fails
      | cons first before =>
        obtain ⟨rfl, rfl⟩ := List.cons.inj split
        obtain ⟨y, succeeds⟩ := earlier x (by simp)
        exact .inr ⟨y, succeeds, before, x', after, rfl, fun other member =>
          earlier other (by simp [member]), fails⟩

end Traversal
