import Mathlib.Data.List.Dedup

/-- The keys that are held, in the order of their last use: the one used least recently comes first. -/
def recency {κ : Type} [DecidableEq κ] (uses : List κ) (held : κ → Bool) : List κ := uses.dedup.filter held

/-- Every other key that is held has been used after the last use of this one. -/
def LeastRecent {κ : Type} (uses : List κ) (held : κ → Bool) (key : κ) : Prop :=
  held key ∧ ∃ before after, uses = before ++ key :: after ∧ key ∉ after ∧ ∀ other, held other →
    other ≠ key → other ∈ after

namespace Recency
variable {κ : Type} [DecidableEq κ] {uses : List κ} {held : κ → Bool}

theorem nodup : (recency uses held).Nodup := (List.nodup_dedup uses).filter _

theorem mem {key : κ} : key ∈ recency uses held ↔ key ∈ uses ∧ held key := by simp [recency]

theorem dedup_concat (uses : List κ) (key : κ) : (uses ++ [key]).dedup = uses.dedup.erase key ++ [key] := by
  induction uses with
  | nil => simp
  | cons first rest ih =>
    by_cases same : first = key
    · subst same
      rw [List.cons_append, List.dedup_cons_of_mem (by simp), ih]
      by_cases again : first ∈ rest
      · rw [List.dedup_cons_of_mem again]
      · rw [List.dedup_cons_of_notMem again, List.erase_cons_head,
          List.erase_of_not_mem (by simpa using again)]
    · by_cases again : first ∈ rest
      · rw [List.cons_append, List.dedup_cons_of_mem (by simp [again]), List.dedup_cons_of_mem again, ih]
      · rw [List.cons_append, List.dedup_cons_of_notMem (by simp [again, same]),
          List.dedup_cons_of_notMem again, ih,
          List.erase_cons_tail (by simpa using same), List.cons_append]

/-- A key is put down. -/
theorem forget {held' : κ → Bool} {key : κ}
    (forgets : ∀ other, held' other = (held other && decide (other ≠ key))) :
    recency uses held' = (recency uses held).erase key := by
  rw [nodup.erase_eq_filter, recency, recency, List.filter_filter]
  refine List.filter_congr fun other _ => ?_
  rw [forgets, Bool.and_comm]
  by_cases same : other = key <;> simp [same]

/-- A key is used, and held from then on. -/
theorem use {held' : κ → Bool} {key : κ}
    (takes : ∀ other, held' other = (held other || decide (other = key))) :
    recency (uses ++ [key]) held' = (recency uses held).erase key ++ [key] := by
  have kept : held' key = true := by simp [takes]
  rw [recency, dedup_concat, List.filter_append, List.filter_singleton, kept,
    (List.nodup_dedup uses).erase_eq_filter,
    nodup.erase_eq_filter, recency, List.filter_filter, List.filter_filter]
  congr 1
  refine List.filter_congr fun other _ => ?_
  rw [takes, Bool.and_comm]
  by_cases same : other = key <;> simp [same]

/-- The first of the keys in the order of their last use: the uses before that, and those after it. -/
theorem split_first {key : κ} {rest : List κ} (first : recency uses held = key :: rest) :
    ∃ before after, uses = before ++ key :: after ∧ key ∉ after ∧ ∀ other ∈ uses, held other →
      other ≠ key → other ∈ after := by
  induction uses with
  | nil => simp [recency] at first
  | cons start uses ih =>
    by_cases again : start ∈ uses
    · rw [recency, List.dedup_cons_of_mem again] at first
      obtain ⟨before, after, same, fresh, later⟩ := ih first
      refine ⟨start :: before, after, by rw [same, List.cons_append], fresh, fun other used holds ne => ?_⟩
      rcases List.mem_cons.mp used with rfl | used
      · exact later _ again holds ne
      · exact later _ used holds ne
    · rw [recency, List.dedup_cons_of_notMem again] at first
      by_cases holds : held start
      · rw [List.filter_cons_of_pos holds] at first
        cases first
        refine ⟨[], uses, rfl, again, fun other used _ ne => ?_⟩
        exact (List.mem_cons.mp used).resolve_left ne
      · rw [List.filter_cons_of_neg holds] at first
        obtain ⟨before, after, same, fresh, later⟩ := ih first
        refine ⟨start :: before, after, by rw [same, List.cons_append], fresh,
          fun other used holds' ne => ?_⟩
        rcases List.mem_cons.mp used with rfl | used
        · exact absurd holds' holds
        · exact later _ used holds' ne

theorem head {key : κ} {rest : List κ} (used : ∀ other, held other → other ∈ uses)
    (first : recency uses held = key :: rest) :
    LeastRecent uses held key := by
  obtain ⟨before, after, same, fresh, later⟩ := split_first first
  have holds : held key = true := (mem.mp (first ▸ List.mem_cons_self)).2
  exact ⟨holds, before, after, same, fresh, fun other holds ne => later other (used other holds) holds ne⟩

end Recency
