import Mathlib.Data.List.ReduceOption
import Mathlib.Order.Basic
import Mathlib.Order.Lattice

/-- Two marks for a level, and a flag that goes up at the high mark and down at the low one. -/
structure Hysteresis (α : Type) [LinearOrder α] where
  low : α
  high : α
  marks : low < high

namespace Hysteresis

inductive Edge where
  | rise
  | fall
  deriving DecidableEq

namespace Edge

def flag : Edge → Bool
  | rise => true
  | fall => false

/-- The edges change the flag in turn, beginning with one that leaves the flag `on`. -/
def Alternate : Bool → List Edge → Prop
  | _, [] => True
  | on, edge :: edges => edge.flag = !on ∧ Alternate edge.flag edges

end Edge

variable {α : Type} [LinearOrder α] (marks : Hysteresis α)

/-- The flag at the next level, and the edge if it moved. -/
def step (on : Bool) (level : α) : Bool × Option Edge :=
  if on = false ∧ marks.high ≤ level then (true, some .rise)
  else if on = true ∧ level ≤ marks.low then (false, some .fall)
  else (on, none)

def steps : Bool → List α → Bool × List (Option Edge)
  | on, [] => (on, [])
  | on, level :: levels =>
    let (next, edge) := marks.step on level
    let (last, edges) := steps next levels
    (last, edge :: edges)

/-- The flag is right for the level. Between the marks it may be either. -/
structure Settled (on : Bool) (level : α) : Prop where
  above : on = true → marks.low < level
  below : on = false → level < marks.high

theorem step_settled (on : Bool) (level : α) : marks.Settled (marks.step on level).1 level := by
  unfold step
  split
  · rename_i up
    exact ⟨fun _ => lt_of_lt_of_le marks.marks up.2, nofun⟩
  · rename_i stays
    split
    · rename_i down
      exact ⟨nofun, fun _ => lt_of_le_of_lt down.2 marks.marks⟩
    · rename_i holds
      exact ⟨fun is => not_le.mp fun le => holds ⟨is, le⟩, fun is => not_le.mp fun le => stays ⟨is, le⟩⟩

variable {marks} {on : Bool} {level next : α}

/-- A level that grows can only raise the flag. -/
theorem Settled.step_grow (settled : marks.Settled on level) (grows : level ≤ next) :
    marks.step on next = if on = false ∧ marks.high ≤ next then (true, some .rise) else (on, none) := by
  unfold step
  split
  · rfl
  · exact if_neg fun down => absurd down.2 (not_le.mpr (lt_of_lt_of_le (settled.above down.1) grows))

/-- A level that falls can only lower it. -/
theorem Settled.step_drain (settled : marks.Settled on level) (drains : next ≤ level) :
    marks.step on next = if on = true ∧ next ≤ marks.low then (false, some .fall) else (on, none) := by
  unfold step
  exact if_neg fun up => absurd up.2 (not_le.mpr (lt_of_le_of_lt drains (settled.below up.1)))

/-- The same as a flag that is set over and over while the level grows, and reset while it falls. -/
theorem Settled.grow (settled : marks.Settled on level) (grows : level ≤ next) :
    marks.Settled (on || decide (marks.high ≤ next)) next := by
  have after := marks.step_settled on next
  rw [settled.step_grow grows] at after
  cases on <;> by_cases up : marks.high ≤ next <;> simpa [up] using after

theorem Settled.drain (settled : marks.Settled on level) (drains : next ≤ level) :
    marks.Settled (on && !decide (next ≤ marks.low)) next := by
  have after := marks.step_settled on next
  rw [settled.step_drain drains] at after
  cases on <;> by_cases down : next ≤ marks.low <;> simpa [down] using after

/-- The flag itself. -/
theorem Settled.grow_flag (settled : marks.Settled on level) (grows : level ≤ next) :
    (marks.step on next).1 = (on || decide (marks.high ≤ next)) := by
  rw [settled.step_grow grows]
  cases on <;> by_cases up : marks.high ≤ next <;> simp [up]

theorem Settled.drain_flag (settled : marks.Settled on level) (drains : next ≤ level) :
    (marks.step on next).1 = (on && !decide (next ≤ marks.low)) := by
  rw [settled.step_drain drains]
  cases on <;> by_cases down : next ≤ marks.low <;> simp [down]

theorem Settled.step_same (settled : marks.Settled on level) : marks.step on level = (on, none) := by
  rw [settled.step_grow le_rfl]
  exact if_neg fun up => absurd up.2 (not_le.mpr (settled.below up.1))

theorem step_cases (on : Bool) (level : α) :
    marks.step on level = (on, none) ∨ ∃ edge, edge.flag = (!on) ∧ marks.step on level =
      (edge.flag, some edge) := by
  unfold step
  by_cases up : on = false ∧ marks.high ≤ level
  · exact .inr ⟨.rise, by simp [up.1, Edge.flag], if_pos up⟩
  · rw [if_neg up]
    by_cases down : on = true ∧ level ≤ marks.low
    · exact .inr ⟨.fall, by simp [down.1, Edge.flag], if_pos down⟩
    · exact .inl (if_neg down)

theorem steps_alternate (on : Bool) (levels : List α) :
    Edge.Alternate on (marks.steps on levels).2.reduceOption := by
  induction levels generalizing on with
  | nil => trivial
  | cons level levels ih =>
    rcases @step_cases α _ marks on level with stays | ⟨edge, turns, moves⟩
    · simp only [steps, stays, List.reduceOption_cons_of_none]
      exact ih on
    · simp only [steps, moves, List.reduceOption_cons_of_some]
      exact ⟨turns, ih edge.flag⟩

/-- The flag is that of the last edge. -/
theorem steps_last (on : Bool) (levels : List α) :
    (marks.steps on levels).1 = ((marks.steps on levels).2.reduceOption.getLast?.map Edge.flag).getD
    on := by
  induction levels generalizing on with
  | nil => rfl
  | cons level levels ih =>
    rcases @step_cases α _ marks on level with stays | ⟨edge, -, moves⟩
    · simp only [steps, stays, List.reduceOption_cons_of_none]
      exact ih on
    · simp only [steps, moves, List.reduceOption_cons_of_some, List.getLast?_cons, ih edge.flag]
      cases (marks.steps edge.flag levels).2.reduceOption.getLast? <;> rfl

end Hysteresis
