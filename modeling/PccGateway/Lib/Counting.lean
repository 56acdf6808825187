import Mathlib.Algebra.Ring.Nat
import Mathlib.Data.List.Basic

/-! A list that gets one more element or of which one is replaced, and how counts over it change. -/

namespace Counting
variable {α : Type} {p : α → Bool} {items : List α} {index : Nat} {old new : α}

theorem set_at (found : items[index]? = some old) (new : α) (other : Nat) :
    (items.set index new)[other]? = if index = other then some new else items[other]? := by
  have inRange := (List.getElem?_eq_some_iff.mp found).1
  simp [List.getElem?_set, inRange]

theorem concat_at {found : α} : (items ++ [new])[index]? = some found ↔
    items[index]? = some found ∨ index = items.length ∧ new = found := by
  rw [List.getElem?_append]
  split
  · rename_i inRange
    simp [Nat.ne_of_lt inRange]
  · rename_i outside
    have missing : items[index]? = none := List.getElem?_eq_none (Nat.not_lt.mp outside)
    by_cases last : index = items.length
    · simp [last]
    · have later : index - items.length ≠ 0 := by omega
      simp [missing, last, later]

theorem countP_set_off (found : items[index]? = some old) (on : p old = true) (off : p new = false) :
    (items.set index new).countP p + 1 = items.countP p := by
  obtain ⟨inRange, is⟩ := List.getElem?_eq_some_iff.mp found
  have positive : 0 < items.countP p := List.countP_pos_iff.mpr ⟨old, List.mem_of_getElem? found, on⟩
  rw [List.countP_set inRange, is, on, off]
  simp only [if_true, Bool.false_eq_true, if_false]
  omega

theorem countP_set_on (found : items[index]? = some old) (off : p old = false) (on : p new = true) :
    (items.set index new).countP p = items.countP p + 1 := by
  obtain ⟨inRange, is⟩ := List.getElem?_eq_some_iff.mp found
  rw [List.countP_set inRange, is, on, off]
  rfl

theorem countP_set_same (found : items[index]? = some old) (same : p new = p old) :
    (items.set index new).countP p = items.countP p := by
  obtain ⟨inRange, is⟩ := List.getElem?_eq_some_iff.mp found
  rw [List.countP_set inRange, is, same]
  cases on : p old with
  | false => simp
  | true =>
    have positive : 0 < items.countP p := List.countP_pos_iff.mpr ⟨old, List.mem_of_getElem? found, on⟩
    simp only [if_true]
    omega

theorem map_set_same {β : Type} {f : α → β} (found : items[index]? = some old) (same : f new = f old) :
    (items.set index new).map f = items.map f := by
  refine List.ext_getElem? fun other => ?_
  rw [List.getElem?_map, List.getElem?_map, set_at found]
  split
  · rename_i is
    rw [← is, found, Option.map_some, Option.map_some, same]
  · rfl

theorem flatMap_set {β : Type} (f : α → List β) (found : items[index]? = some old) (new : α) :
    ((items.set index new).flatMap f ++ f old).Perm (items.flatMap f ++ f new) := by
  obtain ⟨inRange, is⟩ := List.getElem?_eq_some_iff.mp found
  have before : items.take index ++ old :: items.drop (index + 1) = items := by
    rw [← is, List.getElem_cons_drop, List.take_append_drop]
  have after : items.set index new = items.take index ++ new :: items.drop (index + 1) :=
    List.set_eq_take_append_cons_drop.trans (if_pos inRange)
  rw [after]
  conv_rhs => rw [← before]
  simp only [List.flatMap_append, List.flatMap_cons, List.append_assoc]
  refine List.Perm.append_left _ ?_
  exact (List.perm_append_comm_assoc _ _ _).trans
    ((List.perm_append_comm.append_left _).trans (List.perm_append_comm_assoc _ _ _))

/-- A sum in which one term is replaced. -/
theorem sum_map_set (size : α → Nat) (found : items[index]? = some old) (new : α) :
    ((items.set index new).map size).sum + size old = (items.map size).sum + size new := by
  induction items generalizing index with
  | nil => simp at found
  | cons item rest ih =>
    cases index with
    | zero =>
      simp only [List.getElem?_cons_zero, Option.some.injEq] at found
      subst found
      simp only [List.set_cons_zero, List.map_cons, List.sum_cons]
      omega
    | succ index =>
      have rest := ih (by simpa using found)
      simp only [List.set_cons_succ, List.map_cons, List.sum_cons]
      omega

end Counting
