import PccGateway.Routing

namespace PccGateway
open Search

/-- A segment that names something: neither empty nor a dot. -/
def Ordinary (segment : Text) : Prop := segment ≠ [] ∧ segment ≠ ".".toList ∧ segment ≠ "..".toList

/-- What one segment of a path does to the stack of segments, the last one on top. -/
def stackStep (stack : List Text) (segment : Text) : List Text :=
  if segment = [] ∨ segment = ".".toList then stack
  else if segment = "..".toList then stack.tail
  else segment :: stack

def stackOf (segments : List Text) : List Text := segments.foldl stackStep []

/-- Some prefix ends with a pop of the empty stack. -/
def Escapes (stack segments : List Text) : Prop :=
  ∃ before after, segments = before ++ "..".toList :: after ∧ before.foldl stackStep stack = []

def Hostile (segments : List Text) : Prop :=
  ∃ segment ∈ segments, Ordinary segment ∧ (segment.contains '\x00' ∨ segment.contains '\\')

section Stack
variable {stack rest : List Text} {segment : Text}

theorem stackStep_skip (skip : segment = [] ∨ segment = ".".toList) :
    stackStep stack segment = stack := if_pos skip

theorem stackStep_up : stackStep stack "..".toList = stack.tail := by
  rw [stackStep, if_neg (by decide), if_pos rfl]

theorem stackStep_ordinary (ordinary : Ordinary segment) : stackStep stack segment = segment :: stack := by
  rw [stackStep, if_neg (not_or.mpr ⟨ordinary.1, ordinary.2.1⟩), if_neg ordinary.2.2]

theorem escapes_cons : Escapes stack (segment :: rest) ↔
    segment = "..".toList ∧ stack = [] ∨ Escapes (stackStep stack segment) rest := by
  constructor
  · rintro ⟨_ | ⟨first, before⟩, after, split, empty⟩
    · cases split
      exact .inl ⟨rfl, empty⟩
    · cases split
      exact .inr ⟨before, after, rfl, empty⟩
  · rintro (⟨rfl, rfl⟩ | ⟨before, after, rfl, empty⟩)
    · exact ⟨[], rest, rfl, rfl⟩
    · exact ⟨segment :: before, after, rfl, empty⟩

theorem hostile_cons : Hostile (segment :: rest) ↔
    Ordinary segment ∧ (segment.contains '\x00' ∨ segment.contains '\\') ∨ Hostile rest := by
  simp [Hostile]

end Stack

/-- The loop evaluates the stack, up to the first pop too many or segment that is not safe. -/
theorem normalizeSegments_eq_ok_iff {stack segments result : List Text} :
    normalizeSegments stack.reverse segments = .ok result ↔
      ¬ Escapes stack segments ∧ ¬ Hostile segments ∧ result =
        (segments.foldl stackStep stack).reverse := by
  induction segments generalizing stack with
  | nil => simp [normalizeSegments, Escapes, Hostile, eq_comm]
  | cons segment rest ih =>
    rw [normalizeSegments, escapes_cons, hostile_cons, List.foldl_cons]
    by_cases skip : segment = [] ∨ segment = ".".toList
    · have named : ¬ Ordinary segment := fun ordinary => skip.elim ordinary.1 ordinary.2.1
      have up : segment ≠ "..".toList := by rintro rfl; simp at skip
      simp only [if_pos skip, stackStep_skip skip, up, named, false_and, false_or]
      exact ih
    · by_cases up : segment = "..".toList
      · subst up
        rw [if_neg skip, if_pos rfl, stackStep_up]
        cases stack with
        | nil => simp [raiseValue]
        | cons top stack =>
          have popped : (top :: stack).reverse.dropLast = stack.reverse := by simp
          rw [if_neg (by simp), popped, ih]
          simp
      · have ordinary : Ordinary segment := ⟨fun empty => skip (.inl empty), fun dot => skip (.inr dot), up⟩
        rw [if_neg skip, if_neg up, stackStep_ordinary ordinary]
        by_cases hostile : segment.contains '\x00' ∨ segment.contains '\\'
        · rw [if_pos hostile]
          simp only [ordinary, hostile, raiseValue, reduceCtorEq, true_and, true_or,
            not_true_eq_false, false_and, and_false]
        · have pushed : stack.reverse ++ [segment] = (segment :: stack).reverse := by simp
          rw [if_neg hostile, pushed, ih]
          simp only [up, hostile, false_and, and_false, false_or]

theorem normalizeSegments_stack {segments result : List Text} :
    normalizeSegments [] segments = .ok result ↔
      ¬ Escapes [] segments ∧ ¬ Hostile segments ∧ result = (stackOf segments).reverse :=
  @normalizeSegments_eq_ok_iff [] _ _

/-- Segments that are accepted up to somewhere, and the rest from there. -/
theorem normalizeSegments_append {output segments rest result : List Text}
    (run : normalizeSegments output segments = .ok result) :
    normalizeSegments output (segments ++ rest) = normalizeSegments result rest := by
  induction segments generalizing output with
  | nil =>
    cases run
    rfl
  | cons segment segments ih =>
    rw [List.cons_append, normalizeSegments]
    rcases normalizeSegments_cons_ok run with ⟨skip, run⟩ | ⟨rfl, room, run⟩ |
      ⟨⟨nonempty, notDot, notUp, safe⟩, run⟩
    · rw [if_pos skip, ih run]
    · rw [if_neg (by decide), if_pos rfl, if_neg room, ih run]
    · rw [if_neg (not_or.mpr ⟨nonempty, notDot⟩), if_neg notUp, if_neg safe, ih run]

theorem mem_joinPath {char : Char} {segments : List Text} (member : char ∈ joinPath segments) :
    char = '/' ∨ ∃ segment ∈ segments, char ∈ segment := by
  rcases List.mem_cons.mp member with slash | inside
  · exact .inl slash
  · exact (mem_intercalate inside).elim .inl .inr

/-- What is accepted is normalised to the plain segments that its stack holds in the end. -/
theorem normalizePath_spec {path normalized : Text} (run : normalizePath path = .ok normalized) :
    ∃ output, output = (stackOf (slashParts path)).reverse ∧ (∀ segment ∈ output, PlainSegment segment) ∧
      normalized = joinPath output ∧ normalizeSegments [] (slashParts path) = .ok output := by
  obtain ⟨-, output, evaluated, rfl⟩ := normalizePath_eq_ok_iff.mp run
  have plain :=
    normalizeSegments_plain (by simp) (fun segment member => slashParts_noSlash member) evaluated
  exact ⟨output, (normalizeSegments_stack.mp evaluated).2.2, plain, rfl, evaluated⟩

/-- A path of plain segments is normalised. -/
theorem normalizePath_joinPath {segments : List Text} (plain : ∀ segment ∈ segments, PlainSegment segment) :
    normalizePath (joinPath segments) = .ok (joinPath segments) := by
  refine normalizePath_eq_ok_iff.mpr ⟨rfl, segments, ?_, rfl⟩
  by_cases empty : segments = []
  · subst empty
    rfl
  · rw [slashParts_joinPath empty fun segment member => (plain segment member).noSlash]
    have pushed := normalizeSegments_plain_append plain [] []
    rw [List.append_nil, List.nil_append] at pushed
    exact pushed

/-- Two paths in a row have the segments of both. -/
theorem slashParts_append {first second : Text} (start : first.head? = some '/') :
    slashParts (first ++ '/' :: second) = slashParts first ++ slashParts ('/' :: second) := by
  cases first with
  | nil => cases start
  | cons char first =>
    obtain rfl : char = '/' := by simpa using start
    rw [List.cons_append, slashParts_cons, slashParts_cons, slashParts_cons, List.splitOn_append_cons_self]

/-- Concatenated paths are normalised one after the other. -/
theorem normalizePath_append {first second firstResult secondResult : Text}
    (one : normalizePath first = .ok firstResult) (two : normalizePath second = .ok secondResult) :
    normalizePath (first ++ '/' :: second.tail) =
      .ok (joinPath (pathSegments firstResult ++ pathSegments secondResult)) := by
  have start := (normalizePath_eq_ok_iff.mp one).1
  have start' := (normalizePath_eq_ok_iff.mp two).1
  obtain ⟨output, -, plain, rfl, run⟩ := normalizePath_spec one
  obtain ⟨output', -, plain', rfl, run'⟩ := normalizePath_spec two
  have whole : '/' :: second.tail = second := by
    cases second with
    | nil => cases start'
    | cons char rest => simpa using start'.symm
  rw [pathSegments_joinPath plain, pathSegments_joinPath plain']
  refine normalizePath_eq_ok_iff.mpr ⟨?_, output ++ output', ?_, rfl⟩
  · cases first with
    | nil => cases start
    | cons char rest => simpa using start
  · rw [slashParts_append start, whole, normalizeSegments_append run]
    have based := normalizeSegments_base output run'
    rwa [List.append_nil] at based

/-- The normal form of a path. It is its own, it is rooted, it has no empty segment, no dots, no NUL
and no backslash, and its segments are those that a stack keeps of the given ones. A rooted path has
none exactly when a leading part of it goes above the root or when a segment has a hostile byte. The
normal form of two paths in a row is made of their normal forms. Nothing is assumed about the text;
it may be empty, and may have any characters. -/
theorem path_normalisation :
    (∀ path normalized, normalizePath path = .ok normalized →
      normalizePath normalized = .ok normalized ∧ normalized.head? = some '/' ∧
        (∀ segment ∈ pathSegments normalized, segment ≠ [] ∧ segment ≠ ".".toList ∧ segment ≠ "..".toList) ∧
        '\x00' ∉ normalized ∧ '\\' ∉ normalized ∧
        pathSegments normalized = (stackOf (slashParts path)).reverse ∧ normalized =
          joinPath (pathSegments normalized)) ∧
    (∀ path, path.head? = some '/' →
      ((∃ error, normalizePath path = .error error) ↔ Escapes [] (slashParts path) ∨
        Hostile (slashParts path))) ∧
    ∀ first second firstResult secondResult, normalizePath first = .ok firstResult →
    normalizePath second = .ok secondResult →
      normalizePath (first ++ '/' :: second.tail) =
        .ok (joinPath (pathSegments firstResult ++ pathSegments secondResult)) := by
  refine ⟨fun path normalized run => ?_, fun path start => ?_, fun _ _ _ _ => normalizePath_append⟩
  · obtain ⟨output, evaluated, plain, rfl, -⟩ := normalizePath_spec run
    have clean {char : Char} (other : char ≠ '/') (hostile : ∀ segment ∈ output, char ∉ segment) :
        char ∉ joinPath output := by
      intro member
      rcases mem_joinPath member with slash | ⟨segment, inside, found⟩
      · exact other slash
      · exact hostile segment inside found
    rw [pathSegments_joinPath plain]
    refine ⟨normalizePath_joinPath plain, rfl, fun segment member => ?_, clean (by decide) fun segment
      member => ?_, clean (by decide) fun segment member => ?_, evaluated, rfl⟩
    · exact ⟨(plain segment member).nonempty, (plain segment member).notDot, (plain segment member).notUp⟩
    · simpa using (not_or.mp (plain segment member).safe).1
    · simpa using (not_or.mp (plain segment member).safe).2
  · constructor
    · rintro ⟨error, raised⟩
      by_contra fine
      obtain ⟨inside, safe⟩ := not_or.mp fine
      have accepted :=
        normalizePath_eq_ok_iff.mpr ⟨start, _, normalizeSegments_stack.mpr ⟨inside, safe, rfl⟩, rfl⟩
      rw [raised] at accepted
      cases accepted
    · intro bad
      cases run : normalizePath path with
      | error error => exact ⟨error, rfl⟩
      | ok normalized =>
        obtain ⟨output, -, -, -, evaluated⟩ := normalizePath_spec run
        obtain ⟨inside, safe, -⟩ := normalizeSegments_stack.mp evaluated
        exact absurd bad (not_or.mpr ⟨inside, safe⟩)

theorem path_normalisation_dots : normalizePath "/a/./../b//c".toList = .ok "/b/c".toList ∧
    normalizePath "/b/c".toList = .ok "/b/c".toList ∧
    (∃ error, normalizePath "/a/../../b".toList = .error error) ∧
    normalizePath "/a/./../b//c/d/..".toList = .ok "/b/c".toList := by
  have run : normalizePath "/a/./../b//c".toList = .ok "/b/c".toList := by decide
  have other : normalizePath "/d/..".toList = .ok "/".toList := by decide
  obtain ⟨accepted, refused, joined⟩ := path_normalisation
  refine ⟨run, (accepted _ _ run).1,
    (refused _ (by decide)).mpr (.inl ⟨["a".toList, "..".toList], ["b".toList], ?_, ?_⟩), ?_⟩
  · decide
  · decide
  · have segments : joinPath (pathSegments "/b/c".toList ++ pathSegments "/".toList) =
        "/b/c".toList := by decide
    have both := joined _ _ _ _ run other
    rw [segments] at both
    exact both

end PccGateway
