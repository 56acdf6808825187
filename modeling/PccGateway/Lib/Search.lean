import Mathlib.Data.List.Basic

namespace Search
variable {α : Type} [DecidableEq α]

/-- Offset of the first occurrence of `pattern`. -/
def findSub (pattern : List α) : List α → Option Nat
  | [] => if pattern = [] then some 0 else none
  | x :: xs =>
    if pattern <+: x :: xs then some 0
    else (findSub pattern xs).map (· + 1)

/-- Split at a two-element separator, left to right, keeping empty pieces. -/
def splitPair (a b : α) : List α → List (List α)
  | [] => [[]]
  | [x] => [[x]]
  | x :: y :: rest =>
    if x = a ∧ y = b then [] :: splitPair a b rest
    else (splitPair a b (y :: rest)).modifyHead (x :: ·)

theorem findSub_eq_some_iff {pattern xs : List α} {i : Nat} :
    findSub pattern xs = some i ↔ i ≤ xs.length ∧ pattern <+: xs.drop i ∧ ∀ j < i,
    ¬ pattern <+: xs.drop j := by
  induction xs generalizing i with
  | nil =>
    by_cases empty : pattern = []
    · simp only [findSub, empty, if_true, Option.some.injEq, List.length_nil, List.drop_nil,
        List.prefix_rfl, not_true_eq_false, imp_false, true_and]
      constructor
      · rintro rfl; simp
      · rintro ⟨bound, _⟩; omega
    · simp [findSub, empty]
  | cons x xs ih =>
    rw [findSub]
    split
    · rename_i here
      constructor
      · rintro ⟨rfl⟩
        exact ⟨by simp, by simpa using here, by simp⟩
      · rintro ⟨_, _, first⟩
        by_contra other
        exact first 0 (Nat.pos_of_ne_zero fun zero => other (by simp [zero])) (by simpa using here)
    · rename_i absent
      rw [Option.map_eq_some_iff]
      constructor
      · rintro ⟨k, found, rfl⟩
        obtain ⟨bound, here, first⟩ := ih.mp found
        refine ⟨by simpa using bound, by simpa using here, ?_⟩
        intro j before
        cases j with
        | zero => simpa using absent
        | succ j => simpa using first j (by omega)
      · rintro ⟨bound, here, first⟩
        cases i with
        | zero => exact absurd (by simpa using here) absent
        | succ i =>
          refine ⟨i, ih.mpr ⟨by simpa using bound, by simpa using here, ?_⟩, rfl⟩
          intro j before
          simpa using first (j + 1) (by omega)

theorem findSub_decompose {pattern xs : List α} {i : Nat} (found : findSub pattern xs = some i) :
    xs = xs.take i ++ pattern ++ xs.drop (i + pattern.length) := by
  rw [findSub_eq_some_iff] at found
  obtain ⟨_, ⟨rest, here⟩, _⟩ := found
  have tail : xs.drop (i + pattern.length) = rest := by
    rw [← List.drop_drop, ← here, List.drop_left]
  rw [tail, List.append_assoc, here, List.take_append_drop]

theorem findSub_length {pattern xs : List α} {i : Nat} (found : findSub pattern xs = some i) :
    i + pattern.length ≤ xs.length := by
  rw [findSub_eq_some_iff] at found
  obtain ⟨bound, here, _⟩ := found
  have := here.length_le
  rw [List.length_drop] at this
  omega

/-- More input behind an occurrence neither hides it nor reveals an earlier one. -/
theorem findSub_append {pattern xs : List α} {i : Nat} (found : findSub pattern xs = some i)
    (more : List α) : findSub pattern (xs ++ more) = some i := by
  have fits := findSub_length found
  rw [findSub_eq_some_iff] at found ⊢
  obtain ⟨bound, here, first⟩ := found
  refine ⟨by simp; omega, ?_, ?_⟩
  · rw [List.drop_append_of_le_length bound]
    exact here.trans (List.prefix_append _ _)
  · intro j before earlier
    rw [List.drop_append_of_le_length (by omega)] at earlier
    exact first j before (List.prefix_of_prefix_length_le earlier (List.prefix_append _ _)
      (by rw [List.length_drop]; omega))

/-- What more input reveals ends behind the input there was. -/
theorem findSub_length_lt {pattern xs more : List α} {i : Nat} (absent : findSub pattern xs = none)
    (found : findSub pattern (xs ++ more) = some i) : xs.length < i + pattern.length := by
  by_contra fits
  rw [findSub_eq_some_iff] at found
  obtain ⟨_, here, first⟩ := found
  have inside {j : Nat} (bound : j ≤ i) : pattern <+: xs.drop j ↔ pattern <+: (xs ++ more).drop j := by
    rw [List.drop_append_of_le_length (by omega)]
    refine ⟨fun there => there.trans (List.prefix_append _ _), fun there => ?_⟩
    exact List.prefix_of_prefix_length_le there (List.prefix_append _ _) (by rw [List.length_drop]; omega)
  have earlier : findSub pattern xs = some i := by
    rw [findSub_eq_some_iff]
    exact ⟨by omega, (inside (Nat.le_refl i)).mpr here, fun j before there =>
      first j before ((inside (Nat.le_of_lt before)).mp there)⟩
  simp [absent] at earlier

/-- Without an occurrence of `pattern` there is none of a longer one. -/
theorem findSub_none_of_prefix {pattern longer xs : List α} (starts : pattern <+: longer)
    (absent : findSub pattern xs = none) : findSub longer xs = none := by
  induction xs with
  | nil =>
    by_cases empty : pattern = []
    · simp [findSub, empty] at absent
    · have filled : longer ≠ [] := fun nothing => empty (List.prefix_nil.mp (nothing ▸ starts))
      simp [findSub, filled]
  | cons x xs ih =>
    rw [findSub] at absent ⊢
    split at absent
    · simp at absent
    · rename_i elsewhere
      rw [if_neg fun here => elsewhere (starts.trans here), ih (by simpa using absent)]
      rfl

/-- `before` runs up to the next `pattern`: in `before ++ pattern` the pattern does not occur
earlier, not even across the seam. -/
def Delimited (pattern before : List α) : Prop :=
  ∀ j < before.length, ¬ pattern <+: (before ++ pattern).drop j

theorem findSub_delimited {pattern before : List α} (delimited : Delimited pattern before)
    (after : List α) :
    findSub pattern (before ++ pattern ++ after) = some before.length := by
  apply findSub_append
  rw [findSub_eq_some_iff]
  exact ⟨by simp, by simp, delimited⟩

theorem delimited_of_findSub {pattern xs : List α} {i : Nat} (found : findSub pattern xs = some i) :
    Delimited pattern (xs.take i) := by
  intro j before earlier
  have fits := findSub_length found
  have split := findSub_decompose found
  rw [findSub_eq_some_iff] at found
  obtain ⟨bound, _, first⟩ := found
  rw [List.length_take_of_le bound] at before
  refine first j before ?_
  rw [split, List.drop_append_of_le_length (by simp; omega)]
  exact earlier.trans (List.prefix_append _ _)

/-- A successful search is exactly a decomposition at the first occurrence. -/
theorem findSub_eq_some_iff_exists {pattern xs : List α} {i : Nat} :
    findSub pattern xs = some i ↔
      ∃ before after, xs = before ++ pattern ++ after ∧ before.length = i ∧ Delimited pattern before := by
  constructor
  · intro found
    have fits := findSub_length found
    exact ⟨xs.take i, xs.drop (i + pattern.length), findSub_decompose found, by simp; omega,
      delimited_of_findSub found⟩
  · rintro ⟨before, after, rfl, rfl, delimited⟩
    exact findSub_delimited delimited after

theorem findSub_cons_none {a : α} {pattern xs : List α} (absent : a ∉ xs) :
    findSub (a :: pattern) xs = none := by
  cases found : findSub (a :: pattern) xs with
  | none => rfl
  | some i =>
    have member : a ∈ xs := by
      rw [findSub_decompose found]
      simp
    exact absurd member absent

omit [DecidableEq α] in
/-- A pattern that starts with `a` cannot start inside a stretch free of `a`. -/
theorem not_prefix_of_not_mem {a : α} {pattern before after : List α} (absent : a ∉ before) {j : Nat}
    (inside : j < before.length) : ¬ a :: pattern <+: (before ++ after).drop j := by
  rintro ⟨rest, here⟩
  rw [List.drop_append_of_le_length (by omega), List.drop_eq_getElem_cons inside] at here
  simp only [List.cons_append, List.cons.injEq] at here
  exact absent (here.1 ▸ List.getElem_mem inside)

omit [DecidableEq α] in
theorem delimited_of_not_mem {a : α} {pattern before : List α} (absent : a ∉ before) :
    Delimited (a :: pattern) before :=
  fun _ inside => not_prefix_of_not_mem absent inside

theorem splitPair_not_mem {a b : α} {xs : List α} (absent : a ∉ xs) : splitPair a b xs = [xs] := by
  induction xs with
  | nil => rfl
  | cons x xs ih =>
    cases xs with
    | nil => rfl
    | cons y rest =>
      have different : ¬ (x = a ∧ y = b) := fun h => absent (by simp [h.1])
      rw [splitPair, if_neg different, ih (fun h => absent (List.mem_cons_of_mem _ h))]
      rfl

theorem splitPair_cons {a b x : α} {xs : List α} (apart : ¬ (x = a ∧ xs.head? = some b)) :
    splitPair a b (x :: xs) = (splitPair a b xs).modifyHead (x :: ·) := by
  cases xs with
  | nil => rfl
  | cons y rest => rw [splitPair, if_neg (by simpa using apart)]

theorem splitPair_skip {a b : α} {xs : List α} (absent : a ∉ xs) (rest : List α) :
    splitPair a b (xs ++ rest) = (splitPair a b rest).modifyHead (xs ++ ·) := by
  induction xs with
  | nil => cases pieces : splitPair a b rest <;> simp [pieces]
  | cons x xs ih =>
    have different : ¬ (x = a ∧ (xs ++ rest).head? = some b) := fun same => absent (by simp [same.1])
    rw [List.cons_append, splitPair_cons different, ih fun member => absent (by simp [member])]
    cases splitPair a b rest <;> simp

/-- Pieces that are not empty are not split where one element joins them. -/
theorem splitPair_intercalate {a : α} {pieces : List (List α)}
    (plain : ∀ piece ∈ pieces, piece ≠ [] ∧ a ∉ piece) :
    splitPair a a (List.intercalate [a] pieces) = [List.intercalate [a] pieces] := by
  induction pieces with
  | nil => rfl
  | cons piece pieces ih =>
    have later := ih fun piece member => plain piece (by simp [member])
    have absent := (plain piece (by simp)).2
    cases pieces with
    | nil => simpa using splitPair_not_mem absent
    | cons next rest =>
      obtain ⟨nonempty, absent'⟩ := plain next (by simp)
      have starts : (List.intercalate [a] (next :: rest)).head? = next.head? := by
        cases next with
        | nil => exact absurd rfl nonempty
        | cons x next => cases rest <;> simp
      have different : ¬ (a = a ∧ (List.intercalate [a] (next :: rest)).head? = some a) := by
        rw [starts]
        exact fun same => absent' (List.mem_of_mem_head? same.2)
      rw [List.intercalate_cons_cons, List.append_assoc, splitPair_skip absent, List.singleton_append,
        splitPair_cons different, later]
      rfl

theorem splitPair_append {a b : α} {xs : List α} (absent : a ∉ xs) (rest : List α) :
    splitPair a b (xs ++ a :: b :: rest) = xs :: splitPair a b rest := by
  induction xs with
  | nil => simp [splitPair]
  | cons x xs ih =>
    have tail := ih (fun h => absent (List.mem_cons_of_mem _ h))
    have different : x ≠ a := fun h => absent (by simp [h])
    cases xs with
    | nil =>
      simp only [List.nil_append] at tail
      simp [splitPair, different]
    | cons y ys =>
      simp only [List.cons_append] at tail ⊢
      rw [splitPair, if_neg (fun h => different h.1), tail]
      rfl

/-- Joined pieces that are not empty end where the separator stands twice. -/
theorem splitPair_joined {a : α} {pieces : List (List α)}
    (plain : ∀ piece ∈ pieces, piece ≠ [] ∧ a ∉ piece) (rest : List α) :
    splitPair a a (List.intercalate [a] pieces ++ a :: a :: rest) = List.intercalate [a] pieces ::
      splitPair a a rest := by
  induction pieces with
  | nil => simp [splitPair]
  | cons piece pieces ih =>
    have later := ih fun piece member => plain piece (by simp [member])
    have absent := (plain piece (by simp)).2
    cases pieces with
    | nil => simpa using splitPair_append absent rest
    | cons next more =>
      obtain ⟨nonempty, absent'⟩ := plain next (by simp)
      have starts : (List.intercalate [a] (next :: more) ++ a :: a :: rest).head? = next.head? := by
        cases next with
        | nil => exact absurd rfl nonempty
        | cons x next => cases more <;> simp
      have different : ¬ (a = a ∧ (List.intercalate [a] (next :: more) ++ a :: a :: rest).head? =
          some a) := by
        rw [starts]
        exact fun same => absent' (List.mem_of_mem_head? same.2)
      rw [List.intercalate_cons_cons, List.append_assoc, List.append_assoc, splitPair_skip absent,
        List.singleton_append, splitPair_cons different, later]
      simp

theorem splitPair_ne_nil (a b : α) (xs : List α) : splitPair a b xs ≠ [] := by
  fun_induction splitPair a b xs with
  | case1 => simp
  | case2 => simp
  | case3 => simp
  | case4 x y rest different ih => simpa using ih

/-- The parts give the list back. -/
theorem intercalate_splitPair {a b : α} (xs : List α) :
    List.intercalate [a, b] (splitPair a b xs) = xs := by
  fun_induction splitPair a b xs with
  | case1 => rfl
  | case2 => rfl
  | case3 x y rest same ih =>
    obtain ⟨rfl, rfl⟩ := same
    cases pieces : splitPair x y rest with
    | nil => exact absurd pieces (splitPair_ne_nil x y rest)
    | cons first more =>
      rw [pieces] at ih
      rw [List.intercalate_cons_cons, ih]
      rfl
  | case4 x y rest different ih =>
    cases pieces : splitPair a b (y :: rest) with
    | nil => exact absurd pieces (splitPair_ne_nil a b (y :: rest))
    | cons first more =>
      rw [pieces] at ih
      rw [List.modifyHead_cons]
      cases more with
      | nil => simpa using ih
      | cons second more =>
        rw [List.intercalate_cons_cons, List.append_assoc] at ih ⊢
        rw [List.cons_append, ih]

theorem mem_of_mem_splitOn {a x : α} {xs piece : List α} (split : piece ∈ xs.splitOn a)
    (member : x ∈ piece) :
    x ∈ xs := by
  induction xs generalizing piece with
  | nil =>
    simp only [List.splitOn_nil, List.mem_singleton] at split
    simp [split] at member
  | cons y ys ih =>
    rw [List.splitOn_cons_eq_if_modifyHead] at split
    split at split
    · rcases List.mem_cons.mp split with rfl | later
      · simp at member
      · exact List.mem_cons_of_mem _ (ih later member)
    · cases pieces : ys.splitOn a with
      | nil => simp [pieces] at split
      | cons first rest =>
        simp only [pieces, List.modifyHead_cons, List.mem_cons] at split
        rcases split with rfl | later
        · rcases List.mem_cons.mp member with rfl | inFirst
          · simp
          · exact List.mem_cons_of_mem _ (ih (by simp [pieces]) inFirst)
        · exact List.mem_cons_of_mem _ (ih (by simp [pieces, later]) member)

theorem not_mem_of_mem_splitOn {a : α} {xs piece : List α} (split : piece ∈ xs.splitOn a) : a ∉ piece := by
  induction xs generalizing piece with
  | nil =>
    simp only [List.splitOn_nil, List.mem_singleton] at split
    simp [split]
  | cons y ys ih =>
    rw [List.splitOn_cons_eq_if_modifyHead] at split
    split at split
    · rcases List.mem_cons.mp split with rfl | later
      · simp
      · exact ih later
    · rename_i different
      cases pieces : ys.splitOn a with
      | nil => simp [pieces] at split
      | cons first rest =>
        simp only [pieces, List.modifyHead_cons, List.mem_cons] at split
        rcases split with rfl | later
        · have absent : a ∉ first := ih (by simp [pieces])
          simp only [beq_iff_eq] at different
          simp [absent, Ne.symm different]
        · exact ih (by simp [pieces, later])

omit [DecidableEq α] in
theorem mem_intercalate {a x : α} {pieces : List (List α)} (member : x ∈ List.intercalate [a] pieces) :
    x = a ∨ ∃ piece ∈ pieces, x ∈ piece := by
  induction pieces with
  | nil => simp at member
  | cons piece pieces ih =>
    cases pieces with
    | nil => exact .inr ⟨piece, by simp, by simpa using member⟩
    | cons next rest =>
      rw [List.intercalate_cons_cons, List.append_assoc, List.mem_append, List.singleton_append,
        List.mem_cons] at member
      rcases member with here | same | later
      · exact .inr ⟨piece, by simp, here⟩
      · exact .inl same
      · rcases ih later with same | ⟨piece, listed, there⟩
        · exact .inl same
        · exact .inr ⟨piece, by simp [listed], there⟩

omit [DecidableEq α] in
/-- Two joined lists, one behind the other: the pieces at the seam become one. -/
theorem intercalate_append_intercalate (separator : List α) (before : List (List α)) (last first : List α)
    (after : List (List α)) :
    separator.intercalate (before ++ [last]) ++ separator.intercalate (first :: after) =
      separator.intercalate (before ++ (last ++ first) :: after) := by
  induction before with
  | nil => cases after <;> simp [List.intercalate_cons_cons]
  | cons piece before ih =>
    cases before with
    | nil =>
      simp only [List.cons_append, List.nil_append, List.intercalate_cons_cons] at ih ⊢
      rw [← ih]
      simp
    | cons other before =>
      simp only [List.cons_append, List.intercalate_cons_cons] at ih ⊢
      rw [← ih]
      simp

omit [DecidableEq α] in
/-- A stretch of `p` that ends where `p` fails is the one a scan over `p` takes. -/
theorem scan_stretch {p : α → Bool} {stretch rest : List α} (inside : ∀ x ∈ stretch, p x = true)
    (boundary : ∀ x ∈ rest.head?, p x = false) :
    (stretch ++ rest).takeWhile p = stretch ∧ (stretch ++ rest).dropWhile p = rest := by
  rw [List.takeWhile_append_of_pos inside, List.dropWhile_append_of_pos inside]
  cases rest with
  | nil => simp
  | cons x rest => simp [boundary x rfl]

omit [DecidableEq α] in
theorem head_dropWhile {p : α → Bool} {xs : List α} {x : α} (first : x ∈ (xs.dropWhile p).head?) :
    p x = false := by
  have stopped := List.head?_dropWhile_not p xs
  rw [Option.mem_def.mp first] at stopped
  simpa using stopped

end Search
