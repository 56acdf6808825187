import Mathlib.Data.List.AList
import Mathlib.Data.List.Induction
import Mathlib.Data.List.Perm.Basic

/-! Records grouped by their keys: an index that holds, under each key, the values that were recorded. -/

namespace Grouping
variable {κ ν : Type} [DecidableEq κ]

section Dedup
variable {α : Type} [DecidableEq α]

theorem eraseDups_snoc {α : Type} [BEq α] [LawfulBEq α] (seen : List α) (x : α) :
    (seen ++ [x]).eraseDups = if x ∈ seen then seen.eraseDups else seen.eraseDups ++ [x] := by
  rw [List.eraseDups_append]
  split
  · rename_i old
    simp [List.removeAll, old]
  · rename_i new
    simp [List.removeAll, new, List.eraseDups_cons]

theorem nodup_eraseDups (xs : List α) : xs.eraseDups.Nodup := by
  induction xs using List.reverseRecOn with
  | nil => exact List.nodup_nil
  | append_singleton xs x ih =>
    rw [eraseDups_snoc]
    split
    · exact ih
    · rename_i new
      refine List.nodup_append.mpr ⟨ih, List.nodup_singleton x, ?_⟩
      rintro y member z single rfl
      obtain rfl := List.mem_singleton.mp single
      exact new (List.mem_eraseDups.mp member)

end Dedup

/-- The keys of the records, each once. -/
def keysOf (records : List (κ × ν)) : List κ := (records.map (·.1)).eraseDups

theorem keysOf_snoc (records : List (κ × ν)) (record : κ × ν) : (keysOf (records ++ [record])).length =
    if record.1 ∈ records.map (·.1) then (keysOf records).length else (keysOf records).length + 1 := by
  rw [keysOf, List.map_append, List.map_singleton, eraseDups_snoc]
  split
  · rfl
  · exact List.length_append

theorem keysOf_mono (records more : List (κ × ν)) :
    (keysOf records).length ≤ (keysOf (records ++ more)).length := by
  rw [keysOf, keysOf, List.map_append, List.eraseDups_append, List.length_append]
  exact Nat.le_add_right _ _

section Values
variable [DecidableEq ν]

/-- The values that were recorded under a key, each once, in the order of their first records. -/
def valuesOf (records : List (κ × ν)) (key : κ) : List ν :=
  ((records.filter fun record => record.1 = key).map (·.2)).eraseDups

def add (index : AList fun _ : κ => List ν) (record : κ × ν) : AList fun _ : κ => List ν :=
  match index.lookup record.1 with
  | some values => if record.2 ∈ values then index else index.insert record.1 (values ++ [record.2])
  | none => index.insert record.1 [record.2]

/-- The index holds the records and nothing else. -/
def Holds (records : List (κ × ν)) (index : AList fun _ : κ => List ν) : Prop :=
  ∀ key, index.lookup key = if valuesOf records key = [] then none else some (valuesOf records key)

theorem valuesOf_snoc (records : List (κ × ν)) (record : κ × ν) (key : κ) :
    valuesOf (records ++ [record]) key =
      if record.1 = key then if record.2 ∈ valuesOf records key then valuesOf records key
        else valuesOf records key ++ [record.2]
      else valuesOf records key := by
  simp only [valuesOf, List.filter_append, List.map_append]
  by_cases same : record.1 = key
  · rw [if_pos same, List.filter_singleton, decide_eq_true same, Bool.cond_true, List.map_singleton,
      eraseDups_snoc]
    simp only [List.mem_eraseDups]
  · rw [if_neg same, List.filter_singleton, decide_eq_false same, Bool.cond_false, List.map_nil,
      List.append_nil]

theorem mem_valuesOf {records : List (κ × ν)} {key : κ} {value : ν} :
    value ∈ valuesOf records key ↔ (key, value) ∈ records := by
  simp only [valuesOf, List.mem_eraseDups, List.mem_map, List.mem_filter, decide_eq_true_eq]
  constructor
  · rintro ⟨⟨_, _⟩, ⟨member, rfl⟩, rfl⟩
    exact member
  · exact fun member => ⟨(key, value), ⟨member, rfl⟩, rfl⟩

theorem valuesOf_nodup (records : List (κ × ν)) (key : κ) :
    (valuesOf records key).Nodup := nodup_eraseDups _

theorem valuesOf_ne_nil_iff {records : List (κ × ν)} {key : κ} :
    valuesOf records key ≠ [] ↔ key ∈ records.map (·.1) := by
  rw [List.mem_map]
  constructor
  · intro some
    obtain ⟨value, member⟩ := List.exists_mem_of_ne_nil _ some
    exact ⟨(key, value), mem_valuesOf.mp member, rfl⟩
  · rintro ⟨⟨_, value⟩, member, rfl⟩
    exact List.ne_nil_of_mem (mem_valuesOf.mpr member)

theorem holds_empty : Holds ([] : List (κ × ν)) ∅ := by
  intro key
  simp [valuesOf]

/-- A record more. -/
theorem Holds.add {records : List (κ × ν)} {index : AList fun _ : κ => List ν}
    (holds : Holds records index) (record : κ × ν) :
    Holds (records ++ [record]) (add index record) := by
  intro key
  have known := holds record.1
  rw [valuesOf_snoc]
  unfold Grouping.add
  by_cases same : record.1 = key
  · subst same
    rw [if_pos rfl]
    by_cases none : valuesOf records record.1 = []
    · rw [if_pos none] at known
      simp only [known, none, List.not_mem_nil, if_false, List.nil_append]
      simp
    · rw [if_neg none] at known
      simp only [known]
      split
      · exact known
      · simp
  · rw [if_neg same, ← holds key]
    split
    · split
      · rfl
      · exact AList.lookup_insert_ne (Ne.symm same)
    · exact AList.lookup_insert_ne (Ne.symm same)

theorem Holds.mem {records : List (κ × ν)} {index : AList fun _ : κ => List ν}
    (holds : Holds records index) {key : κ} :
    key ∈ index ↔ key ∈ records.map (·.1) := by
  rw [← AList.lookup_isSome, holds key, ← valuesOf_ne_nil_iff]
  split <;> simp_all

theorem Holds.length {records : List (κ × ν)} {index : AList fun _ : κ => List ν}
    (holds : Holds records index) :
    index.keys.length = (keysOf records).length := by
  refine ((List.perm_ext_iff_of_nodup index.keys_nodup (nodup_eraseDups _)).mpr fun key => ?_).length_eq
  rw [AList.mem_keys.symm, holds.mem, List.mem_eraseDups]

end Values

end Grouping
