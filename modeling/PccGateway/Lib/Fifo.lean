import Mathlib.Data.List.Basic

/-- A bounded queue. -/
structure Fifo (α : Type) where
  capacity : Nat
  items : List α := []
  closed : Bool := false
  bounded : items.length ≤ capacity

namespace Fifo
variable {α : Type}

inductive Op (α : Type) where
  | append (source : List α)
  | peek (limit : Int)
  | consume (count : Int)
  | read (limit : Int)
  | close

/-- How many items a limit admits; a negative one is none. -/
def front (queue : Fifo α) (limit : Int) : Nat :=
  if limit < 0 ∨ (queue.items.length : Int) < limit then queue.items.length else limit.toNat

def drop (queue : Fifo α) (count : Nat) : Fifo α :=
  { queue with
    items := queue.items.drop count
    bounded := by rw [List.length_drop]; exact Nat.le_trans (Nat.sub_le _ _) queue.bounded }

/-- The queue after an operation with what the operation gave; `none` when it was refused. -/
def step (queue : Fifo α) : Op α → Fifo α × Option (List α)
  | .append source =>
    if queue.closed then (queue, none)
    else if fits : queue.items.length + source.length ≤ queue.capacity then
      ({ queue with items := queue.items ++ source, bounded := by rw [List.length_append]; exact fits }, some [])
    else (queue, none)
  | .peek limit => (queue, some (queue.items.take (queue.front limit)))
  | .consume count =>
    if 0 ≤ count ∧ count ≤ queue.items.length then (queue.drop count.toNat, some []) else (queue, none)
  | .read limit => (queue.drop (queue.front limit), some (queue.items.take (queue.front limit)))
  | .close => ({ queue with items := [], closed := true, bounded := Nat.zero_le _ }, some [])

theorem step_capacity (queue : Fifo α) (op : Op α) : (queue.step op).1.capacity = queue.capacity := by
  cases op with
  | append source =>
    unfold step
    simp only
    split
    · rfl
    · split <;> rfl
  | consume count =>
    unfold step
    simp only
    split <;> rfl
  | peek => rfl
  | read => rfl
  | close => rfl

/-- A refused operation changes nothing. -/
theorem step_refused {queue : Fifo α} {op : Op α} (refused : (queue.step op).2 = none) :
    (queue.step op).1 = queue := by
  cases op with
  | append source =>
    unfold step at refused ⊢
    simp only at refused ⊢
    split
    · rfl
    · rename_i opened
      rw [if_neg opened] at refused
      split
      · rename_i fits
        rw [dif_pos fits] at refused
        cases refused
      · rfl
  | consume count =>
    unfold step at refused ⊢
    simp only at refused ⊢
    split
    · rename_i fits
      rw [if_pos fits] at refused
      cases refused
    · rfl
  | peek => rfl
  | read => cases refused
  | close => cases refused

end Fifo
