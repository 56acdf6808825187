import Mathlib.Data.List.Basic

/-! A list cut at its separators: the words between the spaces, and the lines of a text. -/

namespace Words
variable {α : Type}

/-- The words of `xs` behind a word that has begun. -/
def wordsFrom (space : α → Bool) : List α → List α → List (List α)
  | word, [] => if word.isEmpty then [] else [word]
  | word, x :: rest =>
    if space x then (if word.isEmpty then wordsFrom space [] rest else word :: wordsFrom space [] rest)
    else wordsFrom space (word ++ [x]) rest

/-- The longest stretches of `xs` without a space. -/
def words (space : α → Bool) (xs : List α) : List (List α) := wordsFrom space [] xs

/-- A word: it is not empty, and no space is in it. -/
structure IsWord (space : α → Bool) (word : List α) : Prop where
  nonempty : word ≠ []
  plain : ∀ x ∈ word, space x = false

section Stretch
variable {space : α → Bool}

theorem wordsFrom_plain (begun : List α) {stretch : List α} (plain : ∀ x ∈ stretch, space x = false)
    (rest : List α) :
    wordsFrom space begun (stretch ++ rest) = wordsFrom space (begun ++ stretch) rest := by
  induction stretch generalizing begun with
  | nil => simp
  | cons x stretch ih =>
    rw [List.cons_append, wordsFrom, if_neg (by simp [plain x (by simp)]), ih (begun ++ [x]) fun y
      member => plain y (by simp [member])]
    simp

theorem words_nil : words space [] = [] := rfl

theorem words_single {word : List α} (isWord : IsWord space word) : words space word = [word] := by
  have whole := wordsFrom_plain [] isWord.plain []
  rw [List.append_nil, List.nil_append] at whole
  rw [words, whole, wordsFrom, if_neg (by simp [isWord.nonempty])]

theorem words_cons {word : List α} (isWord : IsWord space word) {x : α} (isSpace : space x = true)
    (rest : List α) :
    words space (word ++ x :: rest) = word :: words space rest := by
  rw [words, wordsFrom_plain [] isWord.plain, List.nil_append, wordsFrom, if_pos isSpace,
    if_neg (by simp [isWord.nonempty])]
  rfl

end Stretch

end Words
