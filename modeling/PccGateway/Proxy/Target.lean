import PccGateway.Request

namespace PccGateway
open Search

/-- What is left behind the prefix, as a path again. -/
def rebasePath (target : Text) : Text :=
  if target = [] then "/".toList else if target.head? ≠ some '/' then '/' :: target else target

/-- `_proxy_target`: the target sent upstream for a route with this `strip_prefix`. -/
def proxyTarget (request : Request) (stripPrefix : Text) : Except Exn Text := do
  let target ←
    if stripPrefix = [] then .ok request.rawPath
    else if ¬ stripPrefix <+: request.rawPath then
      raiseProxy "strip-prefix-mismatch" "proxy strip prefix does not match"
    else .ok (rebasePath (request.rawPath.drop stripPrefix.length))
  return if request.queryString = [] then target else target ++ '?' :: request.queryString

/-- The path sent upstream is the routed path without the prefix, and the query is as it was. -/
def PathsAgree (request : Request) (stripPrefix : Text) : Prop :=
  ∃ result path, proxyTarget request stripPrefix = .ok result ∧ splitTarget result =
    (path, request.queryString) ∧ normalizePath path =
      .ok (joinPath ((pathSegments request.path).drop (pathSegments stripPrefix).length))

/-- A walk along `segments` from `depth` that never climbs above its start. -/
def StaysInside : Nat → List Text → Prop
  | _, [] => True
  | depth, segment :: rest =>
    if segment = [] ∨ segment = ".".toList then StaysInside depth rest
    else if segment = "..".toList then 0 < depth ∧ StaysInside (depth - 1) rest
    else StaysInside (depth + 1) rest

/-- The raw path starts with the prefix as whole segments, and what follows never climbs back into
it. -/
def StripsWhole (rawPath stripPrefix : Text) : Prop :=
  stripPrefix = "/".toList ∨ ∃ rest, rawPath = stripPrefix ++ rest ∧
    (rest = [] ∨ ∃ more, rest = '/' :: more ∧ StaysInside 0 (more.splitOn '/'))

theorem splitTarget_eq {target path query : Text} (split : splitTarget target = (path, query)) :
    '?' ∉ path := by
  simp only [splitTarget, Prod.mk.injEq] at split
  intro member
  rw [← split.1] at member
  have := List.mem_takeWhile_imp member
  simp at this

theorem splitTarget_append {path query : Text} (clean : '?' ∉ path) :
    splitTarget (if query = [] then path else path ++ '?' :: query) = (path, query) := by
  have all : ∀ c ∈ path, (c != '?') = true := fun c member => by
    simpa using fun same : c = '?' => clean (same ▸ member)
  by_cases empty : query = []
  · have kept : path.takeWhile (· != '?') = path := List.takeWhile_eq_self_iff.mpr all
    have none : path.dropWhile (· != '?') = [] := List.dropWhile_eq_nil_iff.mpr all
    simp [splitTarget, empty, kept, none]
  · simp only [empty, if_false, splitTarget]
    rw [List.takeWhile_append_of_pos all, List.dropWhile_append_of_pos all]
    simp

/-- Below a base, a walk that is accepted is accepted on its own exactly when it stays inside. -/
theorem staysInside_iff {base output segments result : List Text}
    (run : normalizeSegments (base ++ output) segments = .ok result) :
    StaysInside output.length segments ↔ ∃ own, normalizeSegments output segments = .ok own := by
  induction segments generalizing output base with
  | nil => simp [StaysInside, normalizeSegments]
  | cons segment rest ih =>
    rw [StaysInside, normalizeSegments]
    rcases normalizeSegments_cons_ok run with ⟨skip, run⟩ | ⟨rfl, _, run⟩ |
      ⟨⟨nonempty, notDot, notUp, safe⟩, run⟩
    · rw [if_pos skip, if_pos skip]
      exact ih run
    · rw [if_neg (by decide), if_pos rfl, if_neg (by decide), if_pos rfl]
      by_cases empty : output = []
      · simp [empty, raiseValue]
      · rw [if_neg empty]
        rw [List.dropLast_append_of_ne_nil empty] at run
        have := ih run
        rw [List.length_dropLast] at this
        simp only [List.length_pos_iff, empty, ne_eq, not_false_eq_true, true_and]
        exact this
    · rw [if_neg (not_or.mpr ⟨nonempty, notDot⟩), if_neg notUp,
        if_neg (not_or.mpr ⟨nonempty, notDot⟩), if_neg notUp, if_neg safe]
      rw [List.append_assoc] at run
      simpa using ih run

theorem matchValues_exact {expected : List Text} {segments : List Segment} {values : List Text}
    {params bound : List (Text × Text)}
    (found : matchValues (expected.map .exact ++ segments) values params = some bound) :
    ∃ rest, values = expected ++ rest := by
  induction expected generalizing values with
  | nil => exact ⟨values, rfl⟩
  | cons first expected ih =>
    cases values with
    | nil => simp [matchValues] at found
    | cons actual values =>
      simp only [List.map_cons, List.cons_append, matchValues] at found
      split at found
      · rename_i same
        obtain ⟨rest, rfl⟩ := ih found
        exact ⟨rest, by simp [same]⟩
      · simp at found

theorem slashParts_rebasePath {rest : Text} (nonempty : rest ≠ []) :
    slashParts (rebasePath rest) = if rest.head? = some '/' then slashParts rest else rest.splitOn '/' := by
  unfold rebasePath
  rw [if_neg nonempty]
  by_cases slash : rest.head? = some '/'
  · simp [slash]
  · rw [if_pos slash, if_neg slash, slashParts_cons]

theorem rebasePath_head (rest : Text) : (rebasePath rest).head? = some '/' := by
  unfold rebasePath
  split
  · rfl
  · split
    · rfl
    · rename_i slash
      simpa using slash

section
variable {request : Request} {stripPrefix : Text} {routed prefixed : List Text}

/-- The two paths agree when the raw path starts with the prefix and the rest is normalised to the
segments behind it. -/
theorem pathsAgree_iff (nonempty : stripPrefix ≠ [])
    (path : normalizeSegments [] (slashParts request.rawPath) = .ok (prefixed ++ routed))
    (prefixSegments : pathSegments stripPrefix = prefixed) :
    PathsAgree request stripPrefix ↔ ∃ rest, request.rawPath = stripPrefix ++ rest ∧
      normalizeSegments [] (slashParts (rebasePath rest)) = .ok routed := by
  have plain : ∀ segment ∈ prefixed ++ routed, PlainSegment segment :=
    normalizeSegments_plain (by simp) (fun _ member => slashParts_noSlash member) path
  have pathEq : request.path = joinPath (prefixed ++ routed) := by
    obtain ⟨_, output, run, same⟩ := normalizePath_eq_ok_iff.mp request.path_normal
    rw [path] at run
    cases run
    exact same
  have dropped : (pathSegments request.path).drop (pathSegments stripPrefix).length = routed := by
    rw [pathEq, pathSegments_joinPath plain, prefixSegments, List.drop_left]
  have noQuery : '?' ∉ request.rawPath := splitTarget_eq request.target_split
  have rebased {rest : Text} (split : request.rawPath = stripPrefix ++ rest) : '?' ∉ rebasePath rest := by
    have clean : '?' ∉ rest := fun member => noQuery (by rw [split]; exact List.mem_append_right _ member)
    unfold rebasePath
    split
    · decide
    · split
      · simpa using clean
      · exact clean
  have target {rest : Text} (split : request.rawPath = stripPrefix ++ rest) :
      proxyTarget request stripPrefix = .ok (if request.queryString = [] then rebasePath rest
        else rebasePath rest ++ '?' :: request.queryString) := by
    simp [proxyTarget, nonempty, split, bind, Except.bind, pure, Except.pure]
  have normal {path : Text} (start : path.head? = some '/') : normalizePath path = .ok (joinPath routed) ↔
      normalizeSegments [] (slashParts path) = .ok routed := by
    rw [normalizePath_eq_ok_iff]
    constructor
    · rintro ⟨_, output, run, same⟩
      have outputPlain := normalizeSegments_plain (by simp) (fun _ member => slashParts_noSlash member) run
      rw [joinPath_injective (fun segment member => plain segment (List.mem_append_right _ member))
        outputPlain same]
      exact run
    · intro run
      exact ⟨start, routed, run, rfl⟩
  unfold PathsAgree
  rw [dropped]
  constructor
  · rintro ⟨result, path, run, split, normalized⟩
    have here : stripPrefix <+: request.rawPath := by
      by_contra absent
      simp [proxyTarget, nonempty, absent, raiseProxy, bind, Except.bind] at run
    obtain ⟨rest, whole⟩ := here
    rw [target whole.symm] at run
    cases run
    rw [splitTarget_append (rebased whole.symm)] at split
    cases split
    exact ⟨rest, whole.symm, (normal (rebasePath_head rest)).mp normalized⟩
  · rintro ⟨rest, whole, run⟩
    exact ⟨_, rebasePath rest, target whole, splitTarget_append (rebased whole),
      (normal (rebasePath_head rest)).mpr run⟩

/-- A prefix that ends inside a segment of the raw path never yields the routed path. -/
theorem not_strips_inside {before : List Text} {last rest : Text}
    (plain : ∀ segment ∈ before ++ [last], PlainSegment segment)
    (nonempty : rest ≠ []) (inside : rest.head? ≠ some '/')
    (path : normalizeSegments [] (slashParts (joinPath (before ++ [last]) ++ rest)) =
      .ok (before ++ [last] ++ routed)) :
    normalizeSegments [] (rest.splitOn '/') ≠ .ok routed := by
  intro own
  obtain ⟨first, after, parts⟩ := List.exists_cons_of_ne_nil (List.splitOn_ne_nil '/' rest)
  have joined : rest = ['/'].intercalate (first :: after) := by rw [← parts, List.intercalate_splitOn]
  have noSlash : ∀ segment ∈ first :: after, '/' ∉ segment := fun segment member => by
    rw [← parts] at member
    exact not_mem_of_mem_splitOn member
  have filled : first ≠ [] := by
    rintro rfl
    cases after with
    | nil => exact nonempty (by simp [joined])
    | cons second after => exact inside (by simp [joined, List.intercalate_cons_cons])
  have lastPlain := plain last (by simp)
  have beforePlain : ∀ segment ∈ before, PlainSegment segment :=
    fun segment member => plain segment (by simp [member])
  have seam : joinPath (before ++ [last]) ++ rest = joinPath (before ++ (last ++ first) :: after) := by
    rw [joined, joinPath, joinPath, List.cons_append, intercalate_append_intercalate]
  rw [seam, slashParts_joinPath (by simp), normalizeSegments_plain_append beforePlain,
    List.nil_append] at path
  · have long : 2 ≤ (last ++ first).length := by
      have := List.length_pos_iff.mpr lastPlain.nonempty
      have := List.length_pos_iff.mpr filled
      rw [List.length_append]
      omega
    rcases normalizeSegments_cons_ok path with ⟨skip | skip, _⟩ | ⟨up, _⟩ | ⟨_, path⟩
    · simp [skip] at long
    · simp [skip] at long
    · -- the prefix would end in a dot segment
      cases last with
      | nil => exact lastPlain.nonempty rfl
      | cons c last =>
        have up : c = '.' ∧ last ++ first = ['.'] := by simpa using up
        rcases List.append_eq_singleton_iff.mp up.2 with ⟨rfl, _⟩ | ⟨_, empty⟩
        · exact lastPlain.notDot (by simp [up.1])
        · exact filled empty
    · rw [parts] at own
      rcases normalizeSegments_cons_ok own with ⟨skip | rfl, ownRest⟩ | ⟨_, room, _⟩ | ⟨_, ownRest⟩
      · exact filled skip
      · -- a dot behind the prefix: the segment would have to be its own prefix
        have based := normalizeSegments_base (before ++ [last ++ ".".toList]) ownRest
        rw [List.append_nil, path] at based
        simp at based
      · simp at room
      · have heights := normalizeSegments_length path ownRest
        simp at heights
        omega
  · intro segment member
    rcases List.mem_append.mp member with early | late
    · exact (beforePlain segment early).noSlash
    · rcases List.mem_cons.mp late with rfl | late
      · intro slash
        rcases List.mem_append.mp slash with slash | slash
        · exact lastPlain.noSlash slash
        · exact noSlash first (by simp) slash
      · exact noSlash segment (by simp [late])

end

/-- The path that is forwarded is the path that was routed exactly where the prefix is cut off at a
segment boundary of the raw path and the rest stays below it. What is assumed is that the request
was routed by a pattern that begins with the prefix, and that the prefix is its own normal form.
Nothing is assumed about the raw path, which may have empty segments, dots and escapes. -/
theorem proxy_target_agrees_iff (request : Request) (stripPrefix : Text) (segments later : List Segment)
    (params : List (Text × Text)) (routed : matchSegments segments request.rawPath = .ok (some params))
    (normal : normalizePath stripPrefix = .ok stripPrefix)
    (leading : segments = (pathSegments stripPrefix).map .exact ++ later) :
    PathsAgree request stripPrefix ↔ StripsWhole request.rawPath stripPrefix := by
  obtain ⟨start, prefixed, prefixRun, prefixEq⟩ := normalizePath_eq_ok_iff.mp normal
  have prefixPlain :=
    normalizeSegments_plain (by simp) (fun _ member => slashParts_noSlash member) prefixRun
  have prefixSegments : pathSegments stripPrefix = prefixed := by
    rw [prefixEq, pathSegments_joinPath prefixPlain]
  obtain ⟨rawStart, output, run, pathEq⟩ := normalizePath_eq_ok_iff.mp request.path_normal
  have outputPlain := normalizeSegments_plain (by simp) (fun _ member => slashParts_noSlash member) run
  obtain ⟨behind, rfl⟩ : ∃ behind, output = prefixed ++ behind := by
    simp only [matchSegments, request.path_normal, bind, Except.bind, pure, Except.pure,
      Except.ok.injEq, leading, prefixSegments, pathEq, pathSegments_joinPath outputPlain] at routed
    exact matchValues_exact routed
  have nonempty : stripPrefix ≠ [] := by
    rintro rfl
    simp at start
  rw [pathsAgree_iff nonempty run prefixSegments]
  rcases List.eq_nil_or_concat prefixed with rfl | ⟨before, last, split⟩
  · -- nothing to cut off
    have slash : stripPrefix = "/".toList := by rw [prefixEq]; rfl
    refine iff_of_true ?_ (.inl slash)
    obtain ⟨rest, whole⟩ : ∃ rest, request.rawPath = '/' :: rest := by
      cases raw : request.rawPath with
      | nil => simp [raw] at rawStart
      | cons c rest => exact ⟨rest, by simpa [raw] using rawStart⟩
    refine ⟨rest, by simp [slash, whole], ?_⟩
    rw [whole, slashParts_cons] at run
    by_cases empty : rest = []
    · subst empty
      exact run
    · rw [slashParts_rebasePath empty]
      split
      · rename_i again
        obtain ⟨more, rfl⟩ : ∃ more, rest = '/' :: more := by
          cases rest with
          | nil => simp at again
          | cons c more => exact ⟨more, by simpa using again⟩
        rw [slashParts_cons]
        simpa [List.splitOn_cons_eq_if_modifyHead, normalizeSegments] using run
      · simpa using run
  · rw [List.concat_eq_append] at split
    subst split
    have notSlash : stripPrefix ≠ "/".toList := by
      intro slash
      rw [slash, show pathSegments "/".toList = [] from rfl] at prefixSegments
      simp at prefixSegments
    have parts : slashParts stripPrefix = before ++ [last] := by
      rw [prefixEq, slashParts_joinPath (by simp) fun segment member =>
        (prefixPlain segment member).noSlash]
    constructor
    · rintro ⟨rest, whole, own⟩
      refine .inr ⟨rest, whole, ?_⟩
      by_cases empty : rest = []
      · exact .inl empty
      · rw [slashParts_rebasePath empty] at own
        split at own
        · rename_i again
          obtain ⟨more, rfl⟩ : ∃ more, rest = '/' :: more := by
            cases rest with
            | nil => simp at again
            | cons c more => exact ⟨more, by simpa using again⟩
          rw [slashParts_cons] at own
          refine .inr ⟨more, rfl, ?_⟩
          have based := normalizeSegments_base (before ++ [last]) own
          exact (@staysInside_iff _ [] _ _ based).mpr ⟨behind, own⟩
        · rename_i inside
          rw [whole, prefixEq] at run
          exact absurd own (not_strips_inside prefixPlain empty inside run)
    · rintro (slash | ⟨rest, whole, rfl | ⟨more, rfl, stays⟩⟩)
      · exact absurd slash notSlash
      · rw [whole, List.append_nil, prefixRun] at run
        have none : behind = [] := by simpa using run
        exact ⟨[], whole, none ▸ rfl⟩
      · refine ⟨_, whole, ?_⟩
        rw [slashParts_rebasePath (by simp)]
        simp only [List.head?_cons, if_true, slashParts_cons]
        have split : slashParts (stripPrefix ++ '/' :: more) = before ++ [last] ++ more.splitOn '/' := by
          rw [slashParts, List.splitOn_append_cons_self,
            List.tail_append_of_ne_nil (List.splitOn_ne_nil _ _)]
          exact congrArg (· ++ _) parts
        rw [whole, split, normalizeSegments_plain_append prefixPlain, List.nil_append] at run
        obtain ⟨own, ownRun⟩ := (@staysInside_iff _ [] _ _ (by simpa using run)).mp stays
        have based := normalizeSegments_base (before ++ [last]) ownRun
        rw [List.append_nil, run] at based
        have same : behind = own := by simpa using based
        rw [same, ownRun]

/-- `GET /a/b?q=1` on the route `/a/{p*}` with the prefix `/a`. -/
theorem proxy_target_agrees_below :
    let request : Request := {
      method := "GET".toList, target := "/a/b?q=1".toList, rawPath := "/a/b".toList, path := "/a/b".toList
      queryString := "q=1".toList, version := .http11, headers := [], clientIp := [],
      scheme := "http".toList
      contentLength := 0, chunkedBody := false, expectContinueHandled := false, trailers := []
      target_split := rfl, path_normal := rfl }
    matchSegments [.exact "a".toList, .tail "p".toList] request.rawPath =
      .ok (some [("p".toList, "b".toList)]) ∧
      (PathsAgree request "/a".toList ↔ StripsWhole request.rawPath "/a".toList) := by
  intro request
  exact ⟨rfl, proxy_target_agrees_iff request "/a".toList [.exact "a".toList, .tail "p".toList]
    [.tail "p".toList]
    [("p".toList, "b".toList)] rfl rfl rfl⟩

/-- `/a/../a/x` is routed as `/a/x` and forwarded as `/../a/x`, which climbs out of the upstream's root. -/
theorem proxy_target_disagrees :
    ¬ ∀ (request : Request) (stripPrefix : Text) (segments later : List Segment)
      (params : List (Text × Text)),
      matchSegments segments request.rawPath = .ok (some params) →
        normalizePath stripPrefix = .ok stripPrefix →
      segments = (pathSegments stripPrefix).map .exact ++ later → PathsAgree request stripPrefix := by
  intro always
  let request : Request := {
    method := "GET".toList, target := "/a/../a/x".toList, rawPath := "/a/../a/x".toList,
    path := "/a/x".toList
    queryString := [], version := .http11, headers := [], clientIp := [], scheme := "http".toList
    contentLength := 0, chunkedBody := false, expectContinueHandled := false, trailers := []
    target_split := rfl, path_normal := rfl }
  have agrees :=
    always request "/a".toList [.exact "a".toList, .tail "p".toList] [.tail "p".toList] _ rfl rfl rfl
  obtain ⟨result, path, run, split, normal⟩ := agrees
  rw [show proxyTarget request "/a".toList = .ok "/../a/x".toList from rfl] at run
  cases run
  rw [show splitTarget "/../a/x".toList = ("/../a/x".toList, []) from rfl] at split
  cases split
  cases normal

end PccGateway
