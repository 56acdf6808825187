import PccGateway.Lib.StableSort
import PccGateway.Routing.Matching

namespace PccGateway

/-- The three families of patterns, in the order in which they should be tried. -/
inductive RouteFamily where
  | exact
  | parameters
  | tail
  deriving DecidableEq

namespace Route
variable {letters : Letters}

def family (route : Route letters) : RouteFamily :=
  if route.segments.any (fun segment => segment.kind == 2) then .tail
  else if route.segments.any (fun segment => segment.kind == 1) then .parameters
  else .exact

/-- The length of the leading run of exact segments. -/
def exactRun (route : Route letters) : Nat :=
  (route.segments.takeWhile fun segment => segment.kind == 0).length

theorem family_exact_iff {route : Route letters} :
    route.family = .exact ↔ ∀ segment ∈ route.segments, segment.kind = 0 := by
  unfold family
  constructor
  · intro exact segment member
    split at exact
    · cases exact
    · rename_i noTail
      split at exact
      · cases exact
      · rename_i noParameter
        have tail : segment.kind ≠ 2 :=
          fun same => noTail (List.any_eq_true.mpr ⟨segment, member, by simp [same]⟩)
        have parameter : segment.kind ≠ 1 :=
          fun same => noParameter (List.any_eq_true.mpr ⟨segment, member, by simp [same]⟩)
        cases segment <;> simp_all [Segment.kind]
  · intro kinds
    have none (kind : Nat) (positive : kind ≠ 0) :
        route.segments.any (fun segment => segment.kind == kind) = false := by
      rw [List.any_eq_false]
      intro segment member
      simp [kinds segment member, positive.symm]
    simp [none 2 (by decide), none 1 (by decide)]

theorem kindSum_eq_zero_iff {route : Route letters} : route.kindSum = 0 ↔ route.family = .exact := by
  rw [family_exact_iff, kindSum, List.sum_eq_zero_iff_forall_eq_nat]
  simp

theorem exactRun_of_exact {route : Route letters} (exact : route.family = .exact) :
    route.exactRun = route.segments.length := by
  unfold exactRun
  rw [List.takeWhile_eq_self_iff.mpr]
  intro segment member
  simp [family_exact_iff.mp exact segment member]

theorem sortsBefore_trans (first second third : Route letters) (one : first.sortsBefore second = true)
    (two : second.sortsBefore third = true) : first.sortsBefore third = true := by
  simp only [sortsBefore, decide_eq_true_eq] at *
  omega

theorem sortsBefore_total (first second : Route letters) :
    (first.sortsBefore second || second.sortsBefore first) = true := by
  simp only [sortsBefore, Bool.or_eq_true, decide_eq_true_eq]
  omega

end Route

namespace Router
variable {letters : Letters}

/-- The route answers for the host and the method, and its pattern matches the path. -/
def answers (method path host : Text) (route : Route letters) : Bool :=
  decide (route.host = [] ∨ route.host = host) &&
    decide (route.method = method ∨ route.method = "*".toList) &&
    match matchSegments route.segments path with
    | .ok (some _) => true
    | _ => false

/-- A match is the first route that answers. -/
theorem matchRoutes_find {method path host target : Text} {routes : List (Route letters)}
    {allowed : List Text}
    {found : RouteMatch letters} (run : matchRoutes method path host target routes allowed = .ok found) :
    routes.find? (answers method path host) = some found.route := by
  induction routes generalizing allowed with
  | nil =>
    unfold matchRoutes at run
    split at run <;> cases run
  | cons route routes ih =>
    unfold matchRoutes at run
    rw [List.find?_cons]
    split at run
    · rename_i other
      have skipped : answers method path host route = false := by simp [answers, other.1, other.2]
      rw [skipped]
      exact ih run
    · rename_i admitted
      have admits : route.host = [] ∨ route.host = host := by
        by_contra refused
        exact admitted (not_or.mp refused)
      cases result : matchSegments route.segments path with
      | error error => simp [result] at run
      | ok values =>
        simp only [result] at run
        cases values with
        | none =>
          have skipped : answers method path host route = false := by simp [answers, result]
          rw [skipped]
          exact ih run
        | some params =>
          simp only at run
          split at run
          · rename_i serves
            have first : answers method path host route = true := by
              simp only [answers, admits, serves, result, decide_true, Bool.and_true]
            cases run
            rw [first]
          · rename_i refused
            have skipped : answers method path host route = false := by
              simp only [answers, refused, decide_false, Bool.and_false, Bool.false_and]
            rw [skipped]
            exact ih run

/-- Routes are kept in the order of their declaration, each once. -/
theorem foldlM_add {declared : List (Route letters)} {start built : Router letters}
    (run : declared.foldlM (fun (router : Router letters) route => router.add route) start = .ok built)
    (nodup : start.routes.Nodup) : built.routes = start.routes ++ declared ∧ built.routes.Nodup := by
  induction declared generalizing start with
  | nil =>
    cases run
    exact ⟨by simp, nodup⟩
  | cons route declared ih =>
    rw [List.foldlM_cons, bind_eq_ok] at run
    obtain ⟨next, added, run⟩ := run
    unfold add at added
    split at added
    · cases added
    · split at added
      · cases added
      · rename_i unambiguous
        cases added
        have fresh : route ∉ start.routes :=
          fun member => unambiguous (List.any_eq_true.mpr ⟨route, member, by simp⟩)
        have grown : (start.routes ++ [route]).Nodup := by
          refine List.nodup_append.mpr ⟨nodup, by simp, ?_⟩
          rintro other old _ new rfl
          exact fresh (List.mem_singleton.mp new ▸ old)
        obtain ⟨same, nodup'⟩ := ih run grown
        exact ⟨by simpa using same, nodup'⟩

theorem init_routes {declared : List (Route letters)} {router : Router letters}
    (built : init declared = .ok router) :
    router.routes = declared.mergeSort Route.sortsBefore ∧ declared.Nodup := by
  unfold init at built
  rw [bind_eq_ok] at built
  obtain ⟨table, run, frozen⟩ := built
  cases frozen
  obtain ⟨same, nodup⟩ := foldlM_add run List.nodup_nil
  rw [List.nil_append] at same
  exact ⟨congrArg (·.mergeSort Route.sortsBefore) same, same ▸ nodup⟩

/-- The order that routes are tried in: fewer and lower kinds, then more segments, then declared earlier. -/
def TriedBefore (declared : List (Route letters)) (route other : Route letters) : Prop :=
  route.kindSum < other.kindSum ∨ route.kindSum = other.kindSum ∧
    (other.segments.length < route.segments.length ∨
    other.segments.length = route.segments.length ∧ [route, other].Sublist declared)

/-- Of the routes that answer, this one has precedence: exact patterns before parameters before tail
captures, then the longest leading run of exact segments, then the order of declaration. -/
structure HasPrecedence (declared : List (Route letters)) (candidate : Route letters → Prop)
    (route : Route letters) : Prop where
  answers : candidate route
  exact : (∃ other, candidate other ∧ other.family = .exact) → route.family = .exact
  parameters : (∃ other, candidate other ∧ other.family = .parameters) → route.family ≠ .tail
  longest : ∀ other, candidate other → other.family = route.family → other.exactRun ≤ route.exactRun
  declared : ∀ other, candidate other → other.family = route.family →
    other.exactRun = route.exactRun → other ≠ route → [route, other].Sublist declared

theorem TriedBefore.asymm {declared : List (Route letters)} {route other : Route letters}
    (nodup : declared.Nodup)
    (before : TriedBefore declared route other) : ¬ TriedBefore declared other route := by
  intro after
  unfold TriedBefore at before after
  have tie : [route, other].Sublist declared ∧ [other, route].Sublist declared := by
    rcases before with less | ⟨same, longer | ⟨length, first⟩⟩ <;> rcases after with less' |
      ⟨same', longer' | ⟨length', second⟩⟩
    all_goals first | omega | exact ⟨first, second⟩
  exact StableSort.pair_sublist_asymm nodup tie.1 tie.2

/-- The chosen route is tried before every other that answers. -/
theorem matchRequest_tried {declared : List (Route letters)} {router : Router letters}
    (built : init declared = .ok router) {method target host : Text} {found : RouteMatch letters}
    (chosen : router.matchRequest method target host = .ok found) :
    let candidate route := route ∈ declared ∧
      answers (letters.upper method) (splitTarget target).1 (normalizeHost letters host) route = true
    candidate found.route ∧ ∀ other, candidate other → other ≠ found.route →
    TriedBefore declared found.route other := by
  obtain ⟨sorted, nodup⟩ := init_routes built
  have first := matchRoutes_find chosen
  rw [sorted] at first
  obtain ⟨member, holds, least⟩ :=
    StableSort.find?_mergeSort Route.sortsBefore_trans Route.sortsBefore_total nodup first
  refine ⟨⟨member, holds⟩, fun other candidate different => ?_⟩
  obtain ⟨before, tie⟩ := least other candidate.1 candidate.2 different
  simp only [Route.sortsBefore, decide_eq_true_eq] at before tie
  unfold TriedBefore
  by_cases equal : other.kindSum = found.route.kindSum ∧ found.route.segments.length = other.segments.length
  · exact .inr ⟨equal.1.symm, .inr ⟨equal.2.symm, tie (.inr ⟨equal.1, equal.2.le⟩)⟩⟩
  · omega

/-- An exact pattern is tried before every other, and exact patterns in the order of their declaration. -/
theorem hasPrecedence_of_exact {declared : List (Route letters)} {candidate : Route letters → Prop}
    {route other : Route letters}
    (answers : candidate route)
    (tried : ∀ other, candidate other → other ≠ route → TriedBefore declared route other)
    (also : candidate other) (exact : other.family = .exact) : HasPrecedence declared candidate route := by
  have zero : route.kindSum = 0 := by
    by_cases same : other = route
    · exact same ▸ Route.kindSum_eq_zero_iff.mpr exact
    · have before := tried other also same
      have none := Route.kindSum_eq_zero_iff.mpr exact
      unfold TriedBefore at before
      omega
  have own := Route.kindSum_eq_zero_iff.mp zero
  have ties {other : Route letters} (candidate : candidate other) (same : other.family = route.family)
      (different : other ≠ route) :
      other.segments.length < route.segments.length ∨
        other.segments.length = route.segments.length ∧ [route, other].Sublist declared := by
    have none := Route.kindSum_eq_zero_iff.mpr (same.trans own)
    have before := tried other candidate different
    unfold TriedBefore at before
    rcases before with less | ⟨-, rest⟩
    · omega
    · exact rest
  refine ⟨answers, fun _ => own, fun _ => by simp [own], fun other candidate same => ?_,
    fun other candidate same run different => ?_⟩
  · rw [Route.exactRun_of_exact own, Route.exactRun_of_exact (same.trans own)]
    by_cases different : other = route
    · exact different ▸ le_rfl
    · have := ties candidate same different
      omega
  · rw [Route.exactRun_of_exact own, Route.exactRun_of_exact (same.trans own)] at run
    rcases ties candidate same different with less | ⟨-, first⟩
    · omega
    · exact first

/-- A request is given to the route that the rule prefers exactly when that route also comes first
by the keys that `freeze` sorts by. The rule is that of its comment: exact patterns come before
parameters, and these before tail captures; the longer leading run of exact segments wins within a
family, and then the earlier declaration. It is always kept when an exact pattern answers the
request. What is assumed is that the constructor has accepted the routes and that the request was
matched. The condition is on the declared routes and on the request, not on what the router has
chosen. -/
theorem route_precedence_iff {declared : List (Route letters)} {router : Router letters}
    (built : init declared = .ok router) {method target host : Text} {found : RouteMatch letters}
    (chosen : router.matchRequest method target host = .ok found) :
    let candidate route := route ∈ declared ∧
      answers (letters.upper method) (splitTarget target).1 (normalizeHost letters host) route = true
    ((∃ other, candidate other ∧ other.family = .exact) → HasPrecedence declared candidate found.route) ∧
    (HasPrecedence declared candidate found.route ↔ ∃ route, HasPrecedence declared candidate route ∧
      ∀ other, candidate other → other ≠ route → TriedBefore declared route other) := by
  intro candidate
  obtain ⟨answers, tried⟩ := matchRequest_tried built chosen
  refine ⟨fun ⟨other, also, exact⟩ => hasPrecedence_of_exact answers tried also exact, ?_⟩
  constructor
  · exact fun precedence => ⟨found.route, precedence, tried⟩
  · rintro ⟨route, precedence, first⟩
    by_cases same : route = found.route
    · exact same ▸ precedence
    · have before := tried route precedence.answers same
      have after := first found.route answers (Ne.symm same)
      exact absurd after (before.asymm (init_routes built).2)

/-- A `GET` route for every host. -/
def getRoute (path : String) (segments : List Segment)
    (compiled : compilePath Char.isAlphanum path.toList = .ok segments) :
    Route ⟨Char.isAlphanum, upper, lower⟩ where
  method := "GET".toList
  path := path.toList
  host := []
  segments := segments
  bindings := []
  compiled := compiled

def exactRoute : Route ⟨Char.isAlphanum, upper, lower⟩ :=
  getRoute "/a/b/c" [.exact "a".toList, .exact "b".toList, .exact "c".toList] rfl

def tailRoute : Route ⟨Char.isAlphanum, upper, lower⟩ :=
  getRoute "/a/{rest*}"
  [.exact "a".toList, .tail "rest".toList] rfl

def parameterRoute : Route ⟨Char.isAlphanum, upper, lower⟩ :=
  getRoute "/{x}/{y}/{z}" [.parameter "x".toList, .parameter "y".toList, .parameter "z".toList] rfl

/-- A table whose routes are declared in the order in which they are tried. -/
theorem init_sorted {first second : Route letters} (apart : first.signature ≠ second.signature)
    (sorted : first.sortsBefore second = true) : init [first, second] = .ok ⟨[first, second], true⟩ := by
  have same : [first, second].mergeSort Route.sortsBefore = [first, second] :=
    List.mergeSort_of_pairwise (by simpa using sorted)
  have added : [first, second].foldlM (fun (router : Router letters) route => router.add route)
      ⟨[], false⟩ = .ok (⟨[first, second], false⟩ : Router letters) := by
    simp [List.foldlM_cons, add, Bind.bind, Except.bind, apart]
    rfl
  unfold init
  rw [added]
  show Except.ok (freeze _) = _
  rw [freeze, same]

theorem route_precedence_exact : ∃ router found, init [exactRoute, tailRoute] = .ok router ∧
    router.matchRequest "GET".toList "/a/b/c".toList [] = .ok found ∧ found.route.family = .exact := by
  have apart : exactRoute.signature ≠ tailRoute.signature := by decide
  have built := init_sorted apart (by decide)
  have matched : (matchRequest ⟨[exactRoute, tailRoute], true⟩ "GET".toList "/a/b/c".toList
      []).isOk = true := by decide
  have member : answers (upper "GET".toList) (splitTarget "/a/b/c".toList).1
      (normalizeHost ⟨Char.isAlphanum, upper, lower⟩ []) exactRoute = true := by
    decide
  have exact : exactRoute.family = .exact := by decide
  cases chosen : matchRequest ⟨[exactRoute, tailRoute], true⟩ "GET".toList "/a/b/c".toList [] with
  | error failure =>
    rw [chosen] at matched
    cases matched
  | ok found =>
    have precedence := (route_precedence_iff built chosen).1 ⟨exactRoute, ⟨by simp, member⟩, exact⟩
    exact ⟨_, found, built, chosen, precedence.exact ⟨exactRoute, ⟨by simp, member⟩, exact⟩⟩

/-- A pattern with a tail capture is chosen although one with parameters only answers too. -/
theorem tail_before_parameters : ∃ router found, init [tailRoute, parameterRoute] = .ok router ∧
    router.matchRequest "GET".toList "/a/b/c".toList [] = .ok found ∧ found.route.family = .tail ∧
    answers "GET".toList "/a/b/c".toList [] parameterRoute = true ∧ parameterRoute.family =
      .parameters := by
  have apart : tailRoute.signature ≠ parameterRoute.signature := by decide
  have built := init_sorted apart (by decide)
  have chosen : (matchRequest ⟨[tailRoute, parameterRoute], true⟩ "GET".toList "/a/b/c".toList
      []).toOption.map (·.route.family) = some .tail := by
    decide
  have member : answers "GET".toList "/a/b/c".toList [] parameterRoute = true := by decide
  have family : parameterRoute.family = .parameters := by decide
  cases result : matchRequest ⟨[tailRoute, parameterRoute], true⟩ "GET".toList "/a/b/c".toList [] with
  | error failure =>
    rw [result] at chosen
    cases chosen
  | ok found =>
    rw [result] at chosen
    exact ⟨_, found, built, result, Option.some.inj chosen, member, family⟩

end Router
end PccGateway
