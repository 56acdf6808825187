import PccGateway.Routing.Normalization

namespace PccGateway
open Search

/-- What Python says of letters. Outside ASCII that is not the router's business. -/
structure Letters where
  isAlnum : Char → Bool
  upper : Text → Text
  lower : Text → Text

/-- Strips one optional port and keeps the identity of an IPv6 host. -/
def normalizeHost (letters : Letters) (host : Text) : Text :=
  let value := letters.lower (strip host)
  if value.head? = some '[' then
    match value.idxOf? ']' with
    | none => value
    | some closing =>
      let suffix := value.drop (closing + 1)
      if suffix ≠ [] ∧ suffix.head? ≠ some ':' then value else (value.take closing).tail
  else if ':' ∈ value ∧ ':' ∉ (value.dropWhile (· != ':')).tail then value.takeWhile (· != ':')
  else value

namespace Segment

/-- The first component of a compiled segment. -/
def kind : Segment → Nat
  | exact _ => 0
  | parameter _ => 1
  | tail _ => 2

def name? : Segment → Option Text
  | exact _ => none
  | parameter name | tail name => some name

def shape : Segment → Text
  | exact text => text
  | parameter _ => "{}".toList
  | tail _ => "{*}".toList

end Segment

/-- The names that a pattern binds, in order. -/
def parameterNames (segments : List Segment) : List Text := segments.filterMap Segment.name?

/-- The loop over a route's bindings, each a parameter's name and a scalar kind. -/
def checkBindings (names : List Text) : List (Text × String) → List Text → Except Exn Unit
  | [], _ => .ok ()
  | (name, kind) :: rest, bound =>
    if name ∉ names then raiseValue "route binding names an unknown path parameter"
    else if name ∈ bound then raiseValue "route binding duplicates a path parameter"
    else if kind ∉ ["str", "int", "bool"] then raiseValue ("unsupported route scalar binding: " ++ kind)
    else checkBindings names rest (bound ++ [name])

/-- A route as far as matching reads it. Its segments are those of its path. -/
structure Route (letters : Letters) where
  method : Text
  path : Text
  host : Text
  segments : List Segment
  bindings : List (Text × String)
  compiled : compilePath letters.isAlnum path = .ok segments

namespace Route
variable {letters : Letters}

def init (letters : Letters) (method path host : Text) (bindings : List (Text × String)) :
    Except Exn (Route letters) :=
  match compiled : compilePath letters.isAlnum path with
  | .error error => .error error
  | .ok segments => do
    checkBindings (parameterNames segments) bindings []
    return {
      method := letters.upper method
      path := path
      host := normalizeHost letters host
      segments := segments
      bindings := bindings
      compiled := compiled }

def signature (route : Route letters) : Text :=
  route.host ++ '|' :: route.method ++ "|/".toList ++ ['/'].intercalate (route.segments.map Segment.shape)

/-- `sum(segment[0] for segment in route.segments)`. -/
def kindSum (route : Route letters) : Nat := (route.segments.map Segment.kind).sum

/-- The order of the sort keys `(kind sum, -len(segments))`. -/
def sortsBefore (route other : Route letters) : Bool :=
  decide (route.kindSum < other.kindSum ∨ route.kindSum = other.kindSum ∧ other.segments.length ≤
    route.segments.length)

end Route

structure Router (letters : Letters) where
  routes : List (Route letters)
  frozen : Bool

namespace Router
variable {letters : Letters}

def add (route : Route letters) (router : Router letters) : Except Exn (Router letters) :=
  if router.frozen then .error (.runtime "route table is frozen")
  else if router.routes.any (fun existing => existing.signature == route.signature) then
    raiseValue ("ambiguous route shape: " ++ String.ofList route.signature)
  else .ok { router with routes := router.routes ++ [route] }

/-- Python's sort is stable, and so is this one. -/
def freeze (router : Router letters) : Router letters where
  routes := router.routes.mergeSort Route.sortsBefore
  frozen := true

def init (routes : List (Route letters)) : Except Exn (Router letters) := do
  let router ← routes.foldlM (fun (router : Router letters) route => router.add route) ⟨[], false⟩
  return router.freeze

/-- What `match` raises: a path that cannot be normalised is a `ValueError`. -/
inductive Failure where
  | value (error : Exn)
  | methodNotAllowed (allowed : List Text)
  | routeNotFound (target : Text)

structure RouteMatch (letters : Letters) where
  route : Route letters
  params : List (Text × Text)

def matchRoutes (method path host target : Text) :
    List (Route letters) → List Text → Except Failure (RouteMatch letters)
  | [], allowed =>
    if allowed ≠ [] then .error (.methodNotAllowed allowed) else .error (.routeNotFound target)
  | route :: rest, allowed =>
    if route.host ≠ [] ∧ route.host ≠ host then matchRoutes method path host target rest allowed
    else
      match matchSegments route.segments path with
      | .error error => .error (.value error)
      | .ok none => matchRoutes method path host target rest allowed
      | .ok (some params) =>
        if route.method = method ∨ route.method = "*".toList then .ok ⟨route, params⟩
        else matchRoutes method path host target rest
          (if route.method ∈ allowed then allowed else allowed ++ [route.method])

def matchRequest (router : Router letters) (method target host : Text) :
    Except Failure (RouteMatch letters) :=
  matchRoutes (letters.upper method) (splitTarget target).1 (normalizeHost letters host) target
    router.routes []

end Router

/-- What `_compile_path` makes: names once each, and a tail only at the end. -/
structure Compiled (segments : List Segment) : Prop where
  names : (parameterNames segments).Nodup
  tailLast : ∀ before name after, segments = before ++ .tail name :: after → after = []

theorem Compiled.rest {segment : Segment} {segments : List Segment}
    (compiled : Compiled (segment :: segments)) :
    Compiled segments where
  names := by
    have names := compiled.names
    unfold parameterNames at names ⊢
    rw [List.filterMap_cons] at names
    split at names
    · exact names
    · exact (List.nodup_cons.mp names).2
  tailLast := fun before name after split =>
    compiled.tailLast (segment :: before) name after (by rw [split]; rfl)

/-- One pass of the loop of `_compile_path`: a tail ends it, and a name is new. -/
theorem compileSegments_cons_ok {isAlnum : Char → Bool} {part : Text} {parts names : List Text}
    {segments result : List Segment}
    (run : compileSegments isAlnum (part :: parts) segments names = .ok result) :
    (∃ name, name ∉ names ∧ parts = [] ∧ result = segments ++ [.tail name]) ∨
    (∃ name, name ∉ names ∧ compileSegments isAlnum parts (segments ++ [.parameter name])
      (names ++ [name]) = .ok result) ∨
    compileSegments isAlnum parts (segments ++ [.exact part]) names = .ok result := by
  unfold compileSegments at run
  generalize part.tail.dropLast = inner at run
  split at run
  · by_cases isTail : inner.getLast? = some '*'
    · simp only [isTail, if_true] at run
      split at run
      · cases run
      · rename_i named
        split at run
        · cases run
        · split at run
          · cases run
          · rename_i ended
            obtain rfl := not_not.mp ended
            cases run
            exact .inl ⟨_, (not_or.mp named).2, rfl, rfl⟩
    · simp only [isTail, if_false] at run
      split at run
      · cases run
      · rename_i named
        split at run
        · cases run
        · exact .inr (.inl ⟨_, (not_or.mp named).2, run⟩)
  · split at run
    · cases run
    · split at run
      · cases run
      · exact .inr (.inr run)

/-- What the loop adds to the segments and names that it has. -/
theorem compileSegments_adds {isAlnum : Char → Bool} {parts names : List Text}
    {segments result : List Segment}
    (run : compileSegments isAlnum parts segments names = .ok result) (nodup : names.Nodup) :
    ∃ added, result = segments ++ added ∧ (names ++ parameterNames added).Nodup ∧
      ∀ before name after, added = before ++ .tail name :: after → after = [] := by
  induction parts generalizing segments names with
  | nil =>
    cases run
    exact ⟨[], by simp, by simpa [parameterNames] using nodup, by simp⟩
  | cons part parts ih =>
    have grown {name : Text} (fresh : name ∉ names) : (names ++ [name]).Nodup := by
      refine List.nodup_append.mpr ⟨nodup, by simp, ?_⟩
      rintro other old _ new rfl
      exact fresh (List.mem_singleton.mp new ▸ old)
    have longer {segment : Segment} (other : ∀ name, segment ≠ .tail name) {more : List Segment}
        (last : ∀ before name after, more = before ++ .tail name :: after → after = []) :
        ∀ before name after, segment :: more = before ++ .tail name :: after → after = [] := by
      rintro (_ | ⟨first, before⟩) name after split
      · cases split
        exact absurd rfl (other name)
      · cases split
        exact last before name after rfl
    rcases compileSegments_cons_ok run with ⟨name, fresh, rfl, rfl⟩ | ⟨name, fresh, run⟩ | run
    · refine ⟨[.tail name], rfl, grown fresh, ?_⟩
      rintro (_ | ⟨first, before⟩) other after split
      · cases split
        rfl
      · simp at split
    · obtain ⟨added, rfl, names', last⟩ := ih run (grown fresh)
      refine ⟨.parameter name :: added, by simp, ?_, longer (by simp) last⟩
      simpa [parameterNames, List.filterMap_cons, Segment.name?] using names'
    · obtain ⟨added, rfl, names', last⟩ := ih run nodup
      refine ⟨.exact part :: added, by simp, ?_, longer (by simp) last⟩
      simpa [parameterNames, List.filterMap_cons, Segment.name?] using names'

theorem Route.wellFormed {letters : Letters} (route : Route letters) : Compiled route.segments := by
  have run := route.compiled
  unfold compilePath at run
  split at run
  · cases run
  · split at run
    · cases run
    · obtain ⟨added, same, names, last⟩ := compileSegments_adds run List.nodup_nil
      rw [List.nil_append] at same names
      exact ⟨same ▸ names, same ▸ last⟩

end PccGateway
