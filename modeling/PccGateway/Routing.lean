import PccGateway.Errors
import PccGateway.Lib.Search

namespace PccGateway
open Search

/-- A compiled segment of a route pattern. -/
inductive Segment where
  | exact (text : Text)
  | parameter (name : Text)
  | tail (name : Text)
  deriving DecidableEq, Repr

def raiseValue {α : Type} (message : String) : Except Exn α := .error (.value message)

/-- The loop of `_compile_path`. `str.isalnum` is a parameter: what it says of letters outside ASCII
is not the router's business. -/
def compileSegments (isAlnum : Char → Bool) : List Text → List Segment → List Text →
    Except Exn (List Segment)
  | [], segments, _ => .ok segments
  | segment :: rest, segments, names =>
    if segment.head? = some '{' ∧ segment.getLast? = some '}' then
      let inner := segment.tail.dropLast
      let isTail := inner.getLast? = some '*'
      let name := if isTail then inner.dropLast else inner
      if name = [] ∨ name ∈ names then raiseValue "route parameter names must be non-empty and unique"
      else if name.any (fun char => char != '_' && !isAlnum char) then
        raiseValue "route parameter name is invalid"
      else if isTail then
        if rest ≠ [] then raiseValue "tail parameter must be the last segment"
        else compileSegments isAlnum rest (segments ++ [.tail name]) (names ++ [name])
      else compileSegments isAlnum rest (segments ++ [.parameter name]) (names ++ [name])
    else if segment = [] ∨ segment = ".".toList ∨ segment = "..".toList then
      raiseValue "empty and dot route segments are rejected"
    else if segment.contains '{' ∨ segment.contains '}' then
      raiseValue "route braces must cover a whole segment"
    else compileSegments isAlnum rest (segments ++ [.exact segment]) names

/-- `path.split("/")[1:]`. -/
def slashParts (path : Text) : List Text := (path.splitOn '/').tail

/-- The segments of a path without dots: `/` alone has none. -/
def pathSegments (path : Text) : List Text := if slashParts path = [[]] then [] else slashParts path

def compilePath (isAlnum : Char → Bool) (pattern : Text) : Except Exn (List Segment) :=
  if pattern.head? ≠ some '/' then raiseValue "route path must start with '/'"
  else if pattern.contains '?' ∨ pattern.contains '#' then
    raiseValue "route path must not contain query or fragment"
  else compileSegments isAlnum (pathSegments pattern) [] []

def splitTarget (target : Text) : Text × Text :=
  (target.takeWhile (· != '?'), (target.dropWhile (· != '?')).tail)

/-- `"/" + "/".join(output)`. -/
def joinPath (output : List Text) : Text := '/' :: ['/'].intercalate output

/-- The loop of `normalize_path`. -/
def normalizeSegments : List Text → List Text → Except Exn (List Text)
  | output, [] => .ok output
  | output, segment :: rest =>
    if segment = [] ∨ segment = ".".toList then normalizeSegments output rest
    else if segment = "..".toList then
      if output = [] then raiseValue "path escapes routing root"
      else normalizeSegments output.dropLast rest
    else if segment.contains '\x00' ∨ segment.contains '\\' then raiseValue "unsafe routing path"
    else normalizeSegments (output ++ [segment]) rest

def normalizePath (path : Text) : Except Exn Text :=
  if path.head? ≠ some '/' then raiseValue "origin-form path must start with '/'"
  else do
    let output ← normalizeSegments [] (slashParts path)
    return joinPath output

/-- The loop of `_match_segments` over the values that are left; the parameters in the order in which
they are bound. -/
def matchValues : List Segment → List Text → List (Text × Text) → Option (List (Text × Text))
  | [], values, params => if values = [] then some params else none
  | .tail name :: _, values, params => some (params ++ [(name, ['/'].intercalate values)])
  | .exact _ :: _, [], _ | .parameter _ :: _, [], _ => none
  | .exact expected :: segments, actual :: values, params =>
    if actual = expected then matchValues segments values params else none
  | .parameter name :: segments, actual :: values, params =>
    matchValues segments values (params ++ [(name, actual)])

def matchSegments (segments : List Segment) (path : Text) : Except Exn (Option (List (Text × Text))) := do
  let normalized ← normalizePath path
  return matchValues segments (pathSegments normalized) []

/-- What a segment of a normalised path looks like. -/
structure PlainSegment (segment : Text) : Prop where
  nonempty : segment ≠ []
  notDot : segment ≠ ".".toList
  notUp : segment ≠ "..".toList
  safe : ¬ (segment.contains '\x00' ∨ segment.contains '\\')
  noSlash : '/' ∉ segment

theorem normalizeSegments_plain_cons {segment : Text} (plain : PlainSegment segment)
    (output rest : List Text) :
    normalizeSegments output (segment :: rest) = normalizeSegments (output ++ [segment]) rest := by
  rw [normalizeSegments, if_neg (not_or.mpr ⟨plain.nonempty, plain.notDot⟩), if_neg plain.notUp,
    if_neg plain.safe]

theorem normalizeSegments_plain_append {segments : List Text}
    (plain : ∀ segment ∈ segments, PlainSegment segment) (output rest : List Text) :
    normalizeSegments output (segments ++ rest) = normalizeSegments (output ++ segments) rest := by
  induction segments generalizing output with
  | nil => simp
  | cons segment segments ih =>
    rw [List.cons_append, normalizeSegments_plain_cons (plain segment (by simp)),
      ih (fun other member => plain other (by simp [member]))]
    simp

/-- One pass of the loop: skip, pop or push. -/
theorem normalizeSegments_cons_ok {output rest result : List Text} {segment : Text}
    (run : normalizeSegments output (segment :: rest) = .ok result) :
    (segment = [] ∨ segment = ".".toList) ∧ normalizeSegments output rest = .ok result ∨
    segment = "..".toList ∧ output ≠ [] ∧ normalizeSegments output.dropLast rest = .ok result ∨
    (segment ≠ [] ∧ segment ≠ ".".toList ∧ segment ≠ "..".toList ∧
      ¬ (segment.contains '\x00' ∨ segment.contains '\\')) ∧
      normalizeSegments (output ++ [segment]) rest = .ok result := by
  rw [normalizeSegments] at run
  split at run
  · rename_i skip
    exact .inl ⟨skip, run⟩
  · rename_i present
    split at run
    · rename_i up
      split at run
      · simp [raiseValue] at run
      · rename_i room
        exact .inr (.inl ⟨up, room, run⟩)
    · rename_i ordinary
      split at run
      · simp [raiseValue] at run
      · rename_i safe
        exact .inr (.inr ⟨⟨fun empty => present (.inl empty), fun dot => present (.inr dot), ordinary,
          safe⟩, run⟩)

theorem normalizeSegments_plain {output segments result : List Text}
    (before : ∀ segment ∈ output, PlainSegment segment) (noSlash : ∀ segment ∈ segments, '/' ∉ segment)
    (run : normalizeSegments output segments = .ok result) : ∀ segment ∈ result, PlainSegment segment := by
  induction segments generalizing output with
  | nil =>
    cases run
    exact before
  | cons segment rest ih =>
    have later : ∀ other ∈ rest, '/' ∉ other := fun other member => noSlash other (by simp [member])
    rcases normalizeSegments_cons_ok run with ⟨_, run⟩ | ⟨_, _, run⟩ |
      ⟨⟨nonempty, notDot, notUp, safe⟩, run⟩
    · exact ih before later run
    · exact ih (fun other member => before other ((List.dropLast_sublist _).subset member)) later run
    · refine ih ?_ later run
      intro other member
      rcases List.mem_append.mp member with old | new
      · exact before other old
      · rw [List.mem_singleton.mp new]
        exact ⟨nonempty, notDot, notUp, safe, noSlash segment (by simp)⟩

/-- A lower part of the stack that is never reached does not matter. -/
theorem normalizeSegments_base {output segments result : List Text} (base : List Text)
    (run : normalizeSegments output segments = .ok result) :
    normalizeSegments (base ++ output) segments = .ok (base ++ result) := by
  induction segments generalizing output with
  | nil =>
    cases run
    rfl
  | cons segment rest ih =>
    rw [normalizeSegments]
    rcases normalizeSegments_cons_ok run with ⟨skip, run⟩ | ⟨rfl, room, run⟩ |
      ⟨⟨nonempty, notDot, notUp, safe⟩, run⟩
    · rw [if_pos skip, ih run]
    · rw [if_neg (by decide), if_pos rfl, if_neg (by simp [room]), List.dropLast_append_of_ne_nil
        room, ih run]
    · rw [if_neg (not_or.mpr ⟨nonempty, notDot⟩), if_neg notUp, if_neg safe, List.append_assoc, ih run]

/-- The height of the stack at the end depends on the start only by its height. -/
theorem normalizeSegments_length {first second segments firstResult secondResult : List Text}
    (firstRun : normalizeSegments first segments = .ok firstResult)
    (secondRun : normalizeSegments second segments = .ok secondResult) :
    firstResult.length + second.length = secondResult.length + first.length := by
  induction segments generalizing first second with
  | nil =>
    cases firstRun
    cases secondRun
    omega
  | cons segment rest ih =>
    rcases normalizeSegments_cons_ok firstRun with ⟨skip, firstRun⟩ | ⟨rfl, room, firstRun⟩ |
      ⟨⟨some, dot, up, _⟩, firstRun⟩
    · rcases normalizeSegments_cons_ok secondRun with ⟨_, secondRun⟩ | ⟨rfl, _, _⟩ | ⟨⟨some, dot, _, _⟩, _⟩
      · exact ih firstRun secondRun
      · simp at skip
      · exact absurd skip (not_or.mpr ⟨some, dot⟩)
    · rcases normalizeSegments_cons_ok secondRun with ⟨skip, _⟩ | ⟨_, room', secondRun⟩ | ⟨⟨_, _, up, _⟩, _⟩
      · simp at skip
      · have := ih firstRun secondRun
        have := List.length_pos_iff.mpr room
        have := List.length_pos_iff.mpr room'
        simp only [List.length_dropLast] at *
        omega
      · exact absurd rfl up
    · rcases normalizeSegments_cons_ok secondRun with ⟨skip, _⟩ | ⟨same, _, _⟩ | ⟨_, secondRun⟩
      · exact absurd skip (not_or.mpr ⟨some, dot⟩)
      · exact absurd same up
      · have := ih firstRun secondRun
        simp only [List.length_append, List.length_singleton] at this
        omega

theorem slashParts_noSlash {path segment : Text} (member : segment ∈ slashParts path) : '/' ∉ segment := by
  intro slash
  exact not_mem_of_mem_splitOn (List.mem_of_mem_tail member) slash

theorem slashParts_cons (path : Text) : slashParts ('/' :: path) = path.splitOn '/' := by
  simp [slashParts, List.splitOn_cons_eq_if_modifyHead]

theorem slashParts_joinPath {segments : List Text} (nonempty : segments ≠ [])
    (noSlash : ∀ segment ∈ segments, '/' ∉ segment) : slashParts (joinPath segments) = segments := by
  rw [joinPath, slashParts_cons, List.splitOn_intercalate _ noSlash nonempty]

/-- A path of plain segments is taken apart into them. -/
theorem pathSegments_joinPath {segments : List Text} (plain : ∀ segment ∈ segments, PlainSegment segment) :
    pathSegments (joinPath segments) = segments := by
  cases segments with
  | nil => rfl
  | cons segment rest =>
    have parts := slashParts_joinPath (List.cons_ne_nil segment rest) fun other member =>
      (plain other member).noSlash
    rw [pathSegments, parts, if_neg]
    intro same
    have empty : segment = [] := by simpa using congrArg List.head? same
    exact (plain segment (by simp)).nonempty empty

theorem joinPath_injective {first second : List Text} (firstPlain : ∀ segment ∈ first, PlainSegment segment)
    (secondPlain : ∀ segment ∈ second, PlainSegment segment) (same : joinPath first = joinPath second) :
    first = second := by
  rw [← pathSegments_joinPath firstPlain, same, pathSegments_joinPath secondPlain]

/-- A path that is accepted, as the segments it is normalised to. -/
theorem normalizePath_eq_ok_iff {path normalized : Text} :
    normalizePath path = .ok normalized ↔ path.head? = some '/' ∧
      ∃ output, normalizeSegments [] (slashParts path) = .ok output ∧ normalized = joinPath output := by
  unfold normalizePath
  by_cases start : path.head? = some '/'
  · simp only [start, ne_eq, not_true_eq_false, if_false, bind_eq_ok, true_and]
    constructor
    · rintro ⟨output, run, result⟩
      cases result
      exact ⟨output, run, rfl⟩
    · rintro ⟨output, run, rfl⟩
      exact ⟨output, run, rfl⟩
  · simp [start, raiseValue]

end PccGateway
