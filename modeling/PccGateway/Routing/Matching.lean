import PccGateway.Routing.Router

namespace PccGateway
open Search

/-- The segments that a tail value stands for. -/
def tailSegments (value : Text) : List Text := if value = [] then [] else value.splitOn '/'

/-- What a segment of a pattern stands for when every name has a value. -/
def Segment.fill (value : Text → Text) : Segment → List Text
  | exact text => [text]
  | parameter name => [value name]
  | tail name => tailSegments (value name)

/-- The pattern with every name replaced by its value, as segments of a path. -/
def fillPattern (value : Text → Text) (segments : List Segment) : List Text :=
  segments.flatMap (Segment.fill value)

/-- `params[name]`. -/
def valueOf (params : List (Text × Text)) (name : Text) : Text := (params.lookup name).getD []

theorem tailSegments_intercalate {values : List Text} (plain : ∀ value ∈ values, PlainSegment value) :
    tailSegments (['/'].intercalate values) = values := by
  unfold tailSegments
  cases values with
  | nil => rfl
  | cons value rest =>
    have filled : ['/'].intercalate (value :: rest) ≠ [] := by
      have nonempty := (plain value (by simp)).nonempty
      cases rest with
      | nil => simpa [List.intercalate] using nonempty
      | cons other rest => simp [List.intercalate, nonempty]
    rw [if_neg filled, List.splitOn_intercalate _ (fun other member =>
      (plain other member).noSlash) (by simp)]

/-- What was bound before stays in front. -/
theorem matchValues_params (segments : List Segment) (values : List Text) (params : List (Text × Text)) :
    matchValues segments values params = (matchValues segments values []).map (params ++ ·) := by
  induction segments generalizing values params with
  | nil =>
    unfold matchValues
    split <;> simp
  | cons segment segments ih =>
    cases segment with
    | tail name => simp [matchValues]
    | exact expected =>
      cases values with
      | nil => rfl
      | cons actual values =>
        unfold matchValues
        split
        · exact ih values params
        · rfl
    | parameter name =>
      cases values with
      | nil => rfl
      | cons actual values =>
        rw [matchValues, matchValues, ih values (params ++ [(name, actual)]),
          ih values ([] ++ [(name, actual)])]
        simp [Function.comp_def]

section Values
variable {segments : List Segment} {values : List Text} {params : List (Text × Text)}

theorem matchValues_exact_cons {expected actual : Text} :
    matchValues (.exact expected :: segments) (actual :: values) [] = some params ↔
      actual = expected ∧ matchValues segments values [] = some params := by
  rw [matchValues]
  split <;> simp [*]

theorem matchValues_parameter_cons {name actual : Text} :
    matchValues (.parameter name :: segments) (actual :: values) [] = some params ↔
      ∃ bound, params = (name, actual) :: bound ∧ matchValues segments values [] = some bound := by
  rw [matchValues, matchValues_params, Option.map_eq_some_iff]
  constructor
  · rintro ⟨bound, run, rfl⟩
    exact ⟨bound, rfl, run⟩
  · rintro ⟨bound, rfl, run⟩
    exact ⟨bound, run, rfl⟩

/-- A match binds the pattern's names, and the pattern filled with what they are bound to is the path. -/
theorem matchValues_fills (compiled : Compiled segments) (plain : ∀ value ∈ values, PlainSegment value)
    (run : matchValues segments values [] = some params) :
    params.map Prod.fst = parameterNames segments ∧
      (∀ value, (∀ pair ∈ params, value pair.1 = pair.2) → fillPattern value segments = values) ∧
      ∀ name, .parameter name ∈ segments → ∃ value ∈ values, (name, value) ∈ params := by
  induction segments generalizing values params with
  | nil =>
    unfold matchValues at run
    split at run
    · rename_i empty
      cases run
      exact ⟨rfl, fun _ _ => empty.symm, by simp⟩
    · cases run
  | cons segment segments ih =>
    cases segment with
    | tail name =>
      obtain rfl : segments = [] := compiled.tailLast [] name segments rfl
      cases run
      refine ⟨rfl, fun value bound => ?_, by simp⟩
      have tail := bound (name, ['/'].intercalate values) (by simp)
      simp only at tail
      simp [fillPattern, Segment.fill, tail, tailSegments_intercalate plain]
    | exact expected =>
      cases values with
      | nil => cases run
      | cons actual values =>
        obtain ⟨rfl, later⟩ := matchValues_exact_cons.mp run
        obtain ⟨names, fills, bound⟩ := ih compiled.rest (fun value member =>
          plain value (by simp [member])) later
        refine ⟨by simpa [parameterNames, List.filterMap_cons, Segment.name?] using names,
          fun value agrees => ?_, fun name member => ?_⟩
        · have rest := fills value agrees
          unfold fillPattern at rest ⊢
          rw [List.flatMap_cons, rest]
          rfl
        · obtain ⟨value, inside, found⟩ := bound name (by simpa using member)
          exact ⟨value, by simp [inside], found⟩
    | parameter name =>
      cases values with
      | nil => cases run
      | cons actual values =>
        obtain ⟨params, rfl, later⟩ := matchValues_parameter_cons.mp run
        obtain ⟨names, fills, bound⟩ := ih compiled.rest (fun value member =>
          plain value (by simp [member])) later
        refine ⟨by simpa [parameterNames, List.filterMap_cons, Segment.name?] using names,
          fun value agrees => ?_, fun other member => ?_⟩
        · have rest := fills value fun pair member => agrees pair (by simp [member])
          have first := agrees (name, actual) (by simp)
          simp only at first
          unfold fillPattern at rest ⊢
          rw [List.flatMap_cons, rest, Segment.fill, first]
          rfl
        · rcases List.mem_cons.mp member with same | later
          · cases same
            exact ⟨actual, by simp, by simp⟩
          · obtain ⟨value, inside, found⟩ := bound other later
            exact ⟨value, by simp [inside], by simp [found]⟩

/-- A path that the pattern can be filled to is matched. -/
theorem matchValues_complete {value : Text → Text} (compiled : Compiled segments)
    (fills : fillPattern value segments = values) :
    ∃ params, matchValues segments values [] = some params := by
  induction segments generalizing values with
  | nil =>
    subst fills
    exact ⟨[], rfl⟩
  | cons segment segments ih =>
    have rest := ih compiled.rest rfl
    subst fills
    unfold fillPattern at rest ⊢
    rw [List.flatMap_cons]
    cases segment with
    | tail name => exact ⟨_, rfl⟩
    | exact expected => exact rest.imp fun params run => matchValues_exact_cons.mpr ⟨rfl, run⟩
    | parameter name =>
      obtain ⟨params, run⟩ := rest
      exact ⟨_, matchValues_parameter_cons.mpr ⟨params, rfl, run⟩⟩

end Values

theorem valueOf_bound {params : List (Text × Text)} (nodup : (params.map Prod.fst).Nodup) :
    ∀ pair ∈ params, valueOf params pair.1 = pair.2 := by
  intro pair member
  induction params with
  | nil => cases member
  | cons first rest ih =>
    obtain ⟨fresh, nodup⟩ := List.nodup_cons.mp nodup
    unfold valueOf
    rw [List.lookup_cons]
    rcases List.mem_cons.mp member with rfl | later
    · simp
    · have other : pair.1 ≠ first.1 := fun same => fresh (same ▸ List.mem_map_of_mem later)
      rw [beq_false_of_ne other]
      exact ih nodup later

namespace Router
variable {letters : Letters}

/-- The route answers for the host. -/
def Admits (host : Text) (route : Route letters) : Prop := route.host = [] ∨ route.host = host

/-- The route answers for the method. -/
def Serves (method : Text) (route : Route letters) : Prop :=
  route.method = method ∨ route.method = "*".toList

/-- Some values for the names of the route's pattern make it the path with these segments. -/
def Fits (host : Text) (segments : List Text) (route : Route letters) : Prop :=
  Admits host route ∧ ∃ value, fillPattern value route.segments = segments

section Loop
variable {method path host target normalized : Text}

/-- On a path that can be normalised, a route either binds its names or does not fit. -/
theorem matchSegments_ok (accepted : normalizePath path = .ok normalized) (segments : List Segment) :
    matchSegments segments path = .ok (matchValues segments (pathSegments normalized) []) := by
  unfold matchSegments
  rw [accepted]
  rfl

theorem fits_iff {route : Route letters} {segments : List Text}
    (plain : ∀ segment ∈ segments, PlainSegment segment) :
    Fits host segments route ↔
      Admits host route ∧ ∃ params, matchValues route.segments segments [] = some params := by
  refine and_congr_right fun _ =>
    ⟨fun ⟨value, fills⟩ => matchValues_complete route.wellFormed fills, fun ⟨params, run⟩ => ?_⟩
  obtain ⟨names, fills, -⟩ := matchValues_fills route.wellFormed plain run
  exact ⟨valueOf params, fills _ (valueOf_bound (names ▸ route.wellFormed.names))⟩

/-- What the loop over the routes ends with, after `allowed` was collected. -/
def Outcome (method host target : Text) (segments : List Text) (routes : List (Route letters))
    (allowed : List Text) :
    Except Failure (RouteMatch letters) → Prop
  | .ok found => found.route ∈ routes ∧ Admits host found.route ∧ Serves method found.route ∧
      matchValues found.route.segments segments [] = some found.params
  | .error (.value _) => False
  | .error (.methodNotAllowed list) =>
    list ≠ [] ∧ list.Nodup ∧ (∀ route ∈ routes, Fits host segments route → ¬ Serves method route) ∧
      ∀ name, name ∈ list ↔ name ∈ allowed ∨ ∃ route ∈ routes, Fits host segments route ∧
      route.method = name
  | .error (.routeNotFound text) =>
    text = target ∧ allowed = [] ∧ ∀ route ∈ routes, ¬ Fits host segments route

/-- A route that does not fit changes nothing. -/
theorem Outcome.skip {segments : List Text} {routes : List (Route letters)} {allowed : List Text}
    {route : Route letters}
    {result : Except Failure (RouteMatch letters)} (misfit : ¬ Fits host segments route)
    (outcome : Outcome method host target segments routes allowed result) :
    Outcome method host target segments (route :: routes) allowed result := by
  unfold Outcome at *
  split at outcome
  · exact ⟨by simp [outcome.1], outcome.2⟩
  · exact outcome
  · obtain ⟨some, nodup, refused, same⟩ := outcome
    refine ⟨some, nodup, by simpa [misfit] using refused, fun name => ?_⟩
    rw [same]
    simp [misfit]
  · obtain ⟨text, none, absent⟩ := outcome
    exact ⟨text, none, by simpa [misfit] using absent⟩

theorem mem_collected {allowed : List Text} {method name : Text} :
    name ∈ (if method ∈ allowed then allowed else allowed ++ [method]) ↔
      name ∈ allowed ∨ name = method := by
  split
  · rename_i known
    exact ⟨.inl, fun either => either.elim id fun same => same ▸ known⟩
  · simp

theorem nodup_collected {allowed : List Text} {method : Text} (nodup : allowed.Nodup) :
    (if method ∈ allowed then allowed else allowed ++ [method]).Nodup := by
  split
  · exact nodup
  · rename_i fresh
    refine List.nodup_append.mpr ⟨nodup, by simp, ?_⟩
    rintro other old _ new rfl
    exact fresh (List.mem_singleton.mp new ▸ old)

/-- A route that fits and does not serve the method adds its own. -/
theorem Outcome.collect {segments : List Text} {routes : List (Route letters)}
    {allowed collected : List Text} {route : Route letters}
    {result : Except Failure (RouteMatch letters)} (fits : Fits host segments route)
    (refused : ¬ Serves method route)
    (same : ∀ {name}, name ∈ collected ↔ name ∈ allowed ∨ name = route.method)
    (outcome : Outcome method host target segments routes collected result) :
    Outcome method host target segments (route :: routes) allowed result := by
  unfold Outcome at *
  split at outcome
  · exact ⟨by simp [outcome.1], outcome.2⟩
  · exact outcome
  · obtain ⟨some, nodup, others, listed⟩ := outcome
    refine ⟨some, nodup, ?_, fun name => ?_⟩
    · rintro other member admissible
      rcases List.mem_cons.mp member with rfl | later
      · exact refused
      · exact others other later admissible
    · rw [listed, same]
      simp only [List.mem_cons, exists_eq_or_imp, fits, true_and, or_assoc]
      exact or_congr_right (or_congr_left eq_comm)
  · obtain ⟨-, none, -⟩ := outcome
    have own : route.method ∈ collected := same.mpr (.inr rfl)
    rw [none] at own
    cases own

theorem matchRoutes_outcome (accepted : normalizePath path = .ok normalized)
    (routes : List (Route letters)) (allowed : List Text)
    (nodup : allowed.Nodup) : Outcome method host target (pathSegments normalized) routes allowed
      (matchRoutes method path host target routes allowed) := by
  have plain : ∀ segment ∈ pathSegments normalized, PlainSegment segment := by
    obtain ⟨output, -, plain, rfl, -⟩ := normalizePath_spec accepted
    rwa [pathSegments_joinPath plain]
  induction routes generalizing allowed with
  | nil =>
    unfold matchRoutes
    split
    · rename_i some
      exact ⟨some, nodup, by simp, by simp⟩
    · rename_i none
      exact ⟨rfl, not_not.mp none, by simp⟩
  | cons route routes ih =>
    unfold matchRoutes
    rw [matchSegments_ok accepted]
    split
    · rename_i other
      have misfit : ¬ Fits host (pathSegments normalized) route := fun fits => fits.1.elim other.1 other.2
      exact (ih allowed nodup).skip misfit
    · rename_i other
      have admits : Admits host route := by
        by_contra refused
        exact other (not_or.mp refused)
      cases run : matchValues route.segments (pathSegments normalized) [] with
      | none =>
        have misfit : ¬ Fits host (pathSegments normalized) route := by
          rw [fits_iff plain, run]
          simp
        exact (ih allowed nodup).skip misfit
      | some params =>
        have fits : Fits host (pathSegments normalized) route := (fits_iff plain).mpr ⟨admits, params, run⟩
        simp only
        split
        · rename_i serves
          exact ⟨by simp, admits, serves, run⟩
        · rename_i refused
          exact Outcome.collect fits refused mem_collected (ih _ (nodup_collected nodup))

/-- The path is looked at for the first route that the host admits. -/
theorem matchRoutes_value {routes : List (Route letters)} {allowed : List Text} {error : Exn} :
    matchRoutes method path host target routes allowed = .error (.value error) ↔
      (∃ route ∈ routes, Admits host route) ∧ normalizePath path = .error error := by
  induction routes generalizing allowed with
  | nil =>
    unfold matchRoutes
    split <;> simp
  | cons route routes ih =>
    unfold matchRoutes
    split
    · rename_i other
      have refused : ¬ Admits host route := fun admits => admits.elim other.1 other.2
      simp only [ih, List.mem_cons, exists_eq_or_imp, refused, false_or]
    · rename_i other
      have admits : Admits host route := by
        by_contra refused
        exact other (not_or.mp refused)
      cases run : normalizePath path with
      | error refused => simp [matchSegments, run, admits]
      | ok normalized =>
        rw [matchSegments_ok run]
        cases matchValues route.segments (pathSegments normalized) [] with
        | none => simp [ih, run]
        | some params =>
          simp only
          split
          · simp
          · simp [ih, run]

end Loop

/-- `match` raises a `ValueError` exactly for a path without a normal form, if there is a route that
the host admits. -/
theorem matchRequest_value {letters : Letters} {router : Router letters} {method target host : Text}
    {error : Exn} :
    router.matchRequest method target host = .error (.value error) ↔
      (∃ route ∈ router.routes, Admits (normalizeHost letters host) route) ∧
        normalizePath (splitTarget target).1 = .error error := matchRoutes_value

/-- Matching is sound and complete over any table. A match is a route of the table that answers for
the host and the method, and its pattern, filled with the values that are bound, is the normal form
of the path. No route fits a path that is not found. A method is not allowed exactly when routes fit
and none of them serves it, and the methods that are told are theirs, each once. What is assumed is
that the path has a normal form; which paths have one is said by the theorem on normalisation.
Nothing is assumed about the order of the routes or about their patterns. -/
theorem route_matching {letters : Letters} (router : Router letters) (method target host normalized : Text)
    (accepted : normalizePath (splitTarget target).1 = .ok normalized) :
    (∀ found, router.matchRequest method target host = .ok found →
      found.route ∈ router.routes ∧ Admits (normalizeHost letters host) found.route ∧
      Serves (letters.upper method) found.route ∧
        found.params.map Prod.fst = parameterNames found.route.segments ∧
        fillPattern (valueOf found.params) found.route.segments = pathSegments normalized ∧
        ∀ name, .parameter name ∈ found.route.segments → valueOf found.params name ≠ [] ∧
          valueOf found.params name ≠ ".".toList ∧ valueOf found.params name ≠ "..".toList ∧ '/' ∉
            valueOf found.params name) ∧
    (∀ text, router.matchRequest method target host = .error (.routeNotFound text) →
      ∀ route ∈ router.routes, ¬ Fits (normalizeHost letters host) (pathSegments normalized) route) ∧
    ((∃ allowed, router.matchRequest method target host = .error (.methodNotAllowed allowed)) ↔
      (∃ route ∈ router.routes, Fits (normalizeHost letters host) (pathSegments normalized) route) ∧
        ∀ route ∈ router.routes, Fits (normalizeHost letters host) (pathSegments normalized) route →
        ¬ Serves (letters.upper method) route) ∧
    (∀ allowed, router.matchRequest method target host = .error (.methodNotAllowed allowed) →
      allowed.Nodup ∧ ∀ name, name ∈ allowed ↔
        ∃ route ∈ router.routes, Fits (normalizeHost letters host) (pathSegments normalized) route ∧
        route.method = name) ∧
    ∀ error, router.matchRequest method target host ≠ .error (.value error) := by
  have outcome := @matchRoutes_outcome letters (letters.upper method) _ (normalizeHost letters host)
    target _ accepted router.routes [] List.nodup_nil
  have plain : ∀ segment ∈ pathSegments normalized, PlainSegment segment := by
    obtain ⟨output, -, plain, rfl, -⟩ := normalizePath_spec accepted
    rwa [pathSegments_joinPath plain]
  unfold matchRequest
  generalize matchRoutes (letters.upper method) (splitTarget target).1 (normalizeHost letters host)
    target router.routes [] = result at outcome
  unfold Outcome at outcome
  split at outcome
  · rename_i found
    obtain ⟨member, admits, serves, run⟩ := outcome
    obtain ⟨names, fills, bound⟩ := matchValues_fills found.route.wellFormed plain run
    have agrees := valueOf_bound (names ▸ found.route.wellFormed.names)
    have fits : Fits (normalizeHost letters host) (pathSegments normalized) found.route :=
      ⟨admits, _, fills _ agrees⟩
    refine ⟨?_, nofun, ⟨nofun, fun refused => ?_⟩, nofun, nofun⟩
    · rintro _ ⟨⟩
      refine ⟨member, admits, serves, names, fills _ agrees, fun name parameter => ?_⟩
      obtain ⟨value, inside, pair⟩ := bound name parameter
      rw [agrees (name, value) pair]
      exact ⟨(plain value inside).nonempty, (plain value inside).notDot, (plain value inside).notUp,
        (plain value inside).noSlash⟩
    · exact absurd serves (refused.2 found.route member fits)
  · exact outcome.elim
  · rename_i allowed
    obtain ⟨some, nodup, refused, listed⟩ := outcome
    have methods : ∀ name, name ∈ allowed ↔ ∃ route ∈ router.routes,
        Fits (normalizeHost letters host) (pathSegments normalized) route ∧ route.method = name := by
      intro name
      rw [listed]
      simp
    refine ⟨nofun, nofun, ⟨fun _ => ⟨?_, refused⟩, fun _ => ⟨allowed, rfl⟩⟩, ?_, nofun⟩
    · obtain ⟨name, member⟩ := List.exists_mem_of_ne_nil allowed some
      obtain ⟨route, inside, fits, -⟩ := (methods name).mp member
      exact ⟨route, inside, fits⟩
    · rintro _ ⟨⟩
      exact ⟨nodup, methods⟩
  · obtain ⟨-, -, absent⟩ := outcome
    refine ⟨nofun, fun _ _ => absent, ⟨nofun, ?_⟩, nofun, nofun⟩
    rintro ⟨⟨route, member, fits⟩, -⟩
    exact absurd fits (absent route member)

/-- A table with one route, for the files below `/files`. -/
def filesRouter : Router ⟨Char.isAlphanum, upper, lower⟩ where
  routes := [{
    method := "GET".toList
    path := "/files/{dir}/{rest*}".toList
    host := []
    segments := [.exact "files".toList, .parameter "dir".toList, .tail "rest".toList]
    bindings := []
    compiled := rfl }]
  frozen := true

def isMethodNotAllowed {α : Type} : Except Failure α → Bool
  | .error (.methodNotAllowed _) => true
  | _ => false

theorem isMethodNotAllowed_iff {α : Type} {result : Except Failure α} :
    isMethodNotAllowed result = true ↔ ∃ allowed, result = .error (.methodNotAllowed allowed) := by
  rcases result with (_ | _ | _ | _) | _ <;> simp [isMethodNotAllowed]

theorem route_matching_files :
    ∃ found, filesRouter.matchRequest "get".toList "/files/./a/b/c?q".toList [] = .ok found ∧
    fillPattern (valueOf found.params) found.route.segments =
      ["files".toList, "a".toList, "b".toList, "c".toList] ∧
    ∃ allowed, filesRouter.matchRequest "PUT".toList "/files/./a/b/c?q".toList [] =
      .error (.methodNotAllowed allowed) := by
  have accepted : normalizePath (splitTarget "/files/./a/b/c?q".toList).1 =
      .ok "/files/a/b/c".toList := by decide
  have segments : pathSegments "/files/a/b/c".toList =
      ["files".toList, "a".toList, "b".toList, "c".toList] := by decide
  have matched : (filesRouter.matchRequest "get".toList "/files/./a/b/c?q".toList
      []).isOk = true := by decide
  have refused : isMethodNotAllowed
      (filesRouter.matchRequest "PUT".toList "/files/./a/b/c?q".toList []) = true := by
    decide
  have facts := (route_matching filesRouter "get".toList "/files/./a/b/c?q".toList [] _ accepted).1
  generalize filesRouter.matchRequest "get".toList "/files/./a/b/c?q".toList [] = result at matched facts
  generalize filesRouter.matchRequest "PUT".toList "/files/./a/b/c?q".toList [] = other at refused
  cases result with
  | error failure => cases matched
  | ok found =>
    obtain ⟨-, -, -, -, fills, -⟩ := facts found rfl
    rw [segments] at fills
    obtain ⟨allowed, rfl⟩ := isMethodNotAllowed_iff.mp refused
    exact ⟨found, rfl, fills, allowed, rfl⟩

end Router
end PccGateway
