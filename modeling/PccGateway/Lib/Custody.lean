import Mathlib.Data.List.Perm.Basic
import Mathlib.Data.List.Range

/-! Tokens numbered in the order in which they are made. Each of them is spent, held by somebody or in
hand, and in one place only. -/

/-- The tokens made so far are exactly those at the three places. -/
def Custody (made : Nat) (spent held hands : List Nat) : Prop :=
  (spent ++ held ++ hands).Perm (List.range made)

namespace Custody
variable {made token : Nat} {spent held held' hands hands' : List Nat}

theorem nodup (custody : Custody made spent held hands) : (spent ++ held ++ hands).Nodup :=
  custody.nodup_iff.mpr List.nodup_range

/-- Tokens go between holders and hands. -/
theorem move (custody : Custody made spent held hands) (moved : (held' ++ hands').Perm (held ++ hands)) :
    Custody made spent held' hands' := by
  unfold Custody at custody ⊢
  rw [List.append_assoc] at custody ⊢
  exact (moved.append_left spent).trans custody

theorem make (custody : Custody made spent held hands) : Custody (made + 1) spent held (made :: hands) := by
  unfold Custody at custody ⊢
  rw [List.range_succ]
  exact (List.perm_middle.trans (List.perm_append_singleton _ _).symm).trans (custody.append_right [made])

theorem spend (custody : Custody made spent held (token :: hands)) :
    Custody made (spent ++ [token]) held hands := by
  unfold Custody at custody ⊢
  refine List.Perm.trans ?_ custody
  refine List.Perm.trans ?_ List.perm_middle.symm
  simp only [List.append_assoc, List.singleton_append]
  exact List.perm_middle

theorem below (custody : Custody made spent held hands) (member : token ∈ spent ++ held ++ hands) :
    token < made :=
  List.mem_range.mp (custody.mem_iff.mp member)

theorem held_not_spent (custody : Custody made spent held hands) (member : token ∈ held) :
    token ∉ spent := by
  have apart := custody.nodup
  rw [List.append_assoc, List.nodup_append] at apart
  exact fun spent => apart.2.2 token spent token (List.mem_append_left _ member) rfl

theorem in_hand_not_spent (custody : Custody made spent held hands) (member : token ∈ hands) :
    token ∉ spent := by
  have apart := custody.nodup
  rw [List.append_assoc, List.nodup_append] at apart
  exact fun spent => apart.2.2 token spent token (List.mem_append_right _ member) rfl

theorem held_not_in_hand (custody : Custody made spent held hands) (member : token ∈ held) :
    token ∉ hands := by
  have apart := custody.nodup
  rw [List.append_assoc, List.nodup_append] at apart
  exact fun hand => (List.nodup_append.mp apart.2.1).2.2 token member token hand rfl

theorem spent_nodup (custody : Custody made spent held hands) : spent.Nodup := by
  have apart := custody.nodup
  rw [List.append_assoc, List.nodup_append] at apart
  exact apart.1

end Custody
