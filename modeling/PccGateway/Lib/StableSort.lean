import Mathlib.Data.List.Nodup

namespace StableSort
variable {α : Type} {a b : α} {items : List α}

theorem pair_sublist_cons {x : α} :
    [a, b].Sublist (x :: items) ↔ [a, b].Sublist items ∨ a = x ∧ b ∈ items := by
  constructor
  · intro pair
    cases pair with
    | cons _ later => exact .inl later
    | cons_cons _ later => exact .inr ⟨rfl, List.singleton_sublist.mp later⟩
  · rintro (later | ⟨rfl, member⟩)
    · exact later.cons x
    · exact (List.singleton_sublist.mpr member).cons_cons a

/-- Of two items, one stands before the other. -/
theorem pair_sublist_total (first : a ∈ items) (second : b ∈ items) (other : a ≠ b) :
    [a, b].Sublist items ∨ [b, a].Sublist items := by
  induction items with
  | nil => cases first
  | cons x items ih =>
    rw [pair_sublist_cons, pair_sublist_cons]
    rcases List.mem_cons.mp first with rfl | inside
    · have later := (List.mem_cons.mp second).resolve_left other.symm
      exact .inl (.inr ⟨rfl, later⟩)
    · rcases List.mem_cons.mp second with rfl | inside'
      · exact .inr (.inr ⟨rfl, inside⟩)
      · exact (ih inside inside').imp .inl .inl

/-- Without duplicates only one of them does. -/
theorem pair_sublist_asymm (nodup : items.Nodup) (before : [a, b].Sublist items) :
    ¬ [b, a].Sublist items := by
  induction items with
  | nil => cases before
  | cons x items ih =>
    obtain ⟨fresh, nodup⟩ := List.nodup_cons.mp nodup
    rw [pair_sublist_cons] at before ⊢
    rintro (after | ⟨rfl, member⟩)
    · rcases before with before | ⟨rfl, -⟩
      · exact ih nodup before after
      · exact fresh (after.subset (by simp))
    · rcases before with before | ⟨rfl, inside⟩
      · exact fresh (before.subset (by simp))
      · exact fresh inside

/-- The first item of a stably sorted list that has the property is before every other such item: by the
order, or where the order says nothing by its place. -/
theorem find?_mergeSort {le : α → α → Bool} (trans : ∀ a b c, le a b → le b c → le a c)
    (total : ∀ a b, le a b || le b a)
    {p : α → Bool} (nodup : items.Nodup) (found : (items.mergeSort le).find? p = some a) :
    a ∈ items ∧ p a = true ∧ ∀ b ∈ items, p b = true → b ≠ a → le a b = true ∧
    (le b a = true → [a, b].Sublist items) := by
  obtain ⟨holds, before, after, split, skipped⟩ := List.find?_eq_some_iff_append.mp found
  have member : a ∈ items := List.mem_mergeSort.mp (List.mem_of_find?_eq_some found)
  refine ⟨member, holds, fun b inside also other => ?_⟩
  have later : b ∈ after := by
    have sorted : b ∈ items.mergeSort le := List.mem_mergeSort.mpr inside
    rw [split, List.mem_append, List.mem_cons] at sorted
    rcases sorted with early | same | later
    · have := skipped b early
      simp [also] at this
    · exact absurd same other
    · exact later
  have ordered : [a, b].Sublist (items.mergeSort le) := by
    rw [split]
    exact List.sublist_append_of_sublist_right ((List.singleton_sublist.mpr later).cons_cons a)
  have sorted := List.pairwise_mergeSort trans total items
  have pair : List.Pairwise (fun a b => le a b = true) [a, b] := List.Pairwise.sublist ordered sorted
  refine ⟨by simpa using pair, fun tie => ?_⟩
  refine (pair_sublist_total member inside other.symm).resolve_right fun reversed => ?_
  have sortedNodup := (List.mergeSort_perm items le).nodup_iff.mpr nodup
  exact pair_sublist_asymm sortedNodup ordered (List.pair_sublist_mergeSort trans total tie reversed)

end StableSort
