import PccGateway.Http1.Digits
import PccGateway.Lib.Traversal
import PccGateway.Routing.Matching

namespace PccGateway
open Traversal

/-- A handler's argument. -/
inductive Scalar where
  | str (value : Text)
  | int (value : Int)
  | bool (value : Bool)
  deriving DecidableEq

/-- What `bound_values` can raise: a `KeyError`, a `RouteBindingError`, or what `int(...)` raises. -/
inductive BindingFailure where
  | key (name : Text)
  | binding (message : String)
  | value (error : Exn)
  deriving DecidableEq

def invalidInteger : BindingFailure := .binding "invalid integer route parameter"

def invalidBoolean : BindingFailure := .binding "invalid boolean route parameter"

def bindInt (raw : Text) : Except BindingFailure Int :=
  if raw = [] ∨ raw = ['-'] then .error invalidInteger
  else
    let negative : Bool := raw.head? = some '-'
    let digits := if negative then raw.tail else raw
    if digits.any (fun char => decide (char < '0' ∨ '9' < char)) then .error invalidInteger
    else
      match parseDecimal digits with
      | .error error => .error (.value error)
      | .ok n => .ok (if negative then -(n : Int) else n)

def bindBool (lower : Text → Text) (raw : Text) : Except BindingFailure Bool :=
  if lower raw ∈ ["1".toList, "true".toList, "yes".toList] then .ok true
  else if lower raw ∈ ["0".toList, "false".toList, "no".toList] then .ok false
  else .error invalidBoolean

/-- One pass of the loop of `bound_values`: what it appends. A kind that it does not know appends
nothing. -/
def bindScalar (letters : Letters) (params : List (Text × Text)) (binding : Text × String) :
    Except BindingFailure (List Scalar) :=
  match params.lookup binding.1 with
  | none => .error (.key binding.1)
  | some raw =>
    if binding.2 = "str" then .ok [.str raw]
    else if binding.2 = "int" then do
      let value ← bindInt raw
      return [.int value]
    else if binding.2 = "bool" then do
      let value ← bindBool letters.lower raw
      return [.bool value]
    else .ok []

namespace Router
variable {letters : Letters}

def RouteMatch.boundValues (found : RouteMatch letters) : Except BindingFailure (List Scalar) := do
  let values ← found.route.bindings.mapM (bindScalar letters found.params)
  return values.flatten

end Router

/-- The number that a run of digits writes. -/
def decimalValue (digits : Text) : Nat :=
  digits.foldl (fun total digit => total * 10 + (digit.toNat - 48)) 0

def Digits (text : Text) : Prop := text ≠ [] ∧ ∀ c ∈ text, '0' ≤ c ∧ c ≤ '9'

/-- A decimal numeral, its digits and its value. -/
inductive Numeral : Text → Text → Int → Prop where
  | natural {digits : Text} (plain : Digits digits) : Numeral digits digits (decimalValue digits)
  | negative {digits : Text} (plain : Digits digits) :
      Numeral ('-' :: digits) digits (-(decimalValue digits : Int))

/-- What a parameter's text says as a scalar of a kind. -/
inductive Denotes (letters : Letters) : String → Text → Scalar → Prop where
  | str (raw : Text) : Denotes letters "str" raw (.str raw)
  | int {raw digits : Text} {value : Int} (numeral : Numeral raw digits value)
      (short : digits.length ≤ 4300) :
      Denotes letters "int" raw (.int value)
  | yes {raw : Text} (spelled : letters.lower raw ∈ ["1".toList, "true".toList, "yes".toList]) :
      Denotes letters "bool" raw (.bool true)
  | no {raw : Text} (spelled : letters.lower raw ∈ ["0".toList, "false".toList, "no".toList]) :
      Denotes letters "bool" raw (.bool false)

/-- Why a parameter's text is not a scalar of a kind. -/
inductive Refuses (letters : Letters) : String → Text → BindingFailure → Prop where
  | integer {raw : Text} (none : ¬ ∃ digits value, Numeral raw digits value) :
      Refuses letters "int" raw invalidInteger
  | long {raw digits : Text} {value : Int} (numeral : Numeral raw digits value)
      (long : 4300 < digits.length) :
      Refuses letters "int" raw (.value (.value "Exceeds the limit for integer string conversion"))
  | boolean {raw : Text} (neither : letters.lower raw ∉ ["1".toList, "true".toList, "yes".toList] ++
      ["0".toList, "false".toList, "no".toList]) : Refuses letters "bool" raw invalidBoolean

section Scalars
variable {letters : Letters} {raw digits : Text} {value : Int}

theorem not_digit_any :
    (digits.any fun char => decide (char < '0' ∨ '9' < char)) = true ↔ ¬ ∀ c ∈ digits, '0' ≤ c ∧
    c ≤ '9' := by
  simp only [List.any_eq_true, decide_eq_true_eq, not_forall, not_and_or, Char.not_le, exists_prop]

/-- `int(...)` behind the checks of `bound_values`. -/
theorem bindInt_numeral (numeral : Numeral raw digits value) :
    bindInt raw = if 4300 < digits.length then
      .error (.value (.value "Exceeds the limit for integer string conversion"))
      else .ok value := by
  cases numeral with
  | natural plain =>
    obtain ⟨first, rest, rfl⟩ := List.exists_cons_of_ne_nil plain.1
    have unsigned : first ≠ '-' := by
      rintro rfl
      have digit := plain.2 '-' (by simp)
      revert digit
      decide
    have checked := mt not_digit_any.mp (not_not.mpr plain.2)
    unfold bindInt
    simp only [List.head?_cons, Option.some.injEq, unsigned, decide_false, Bool.false_eq_true, if_false]
    rw [if_neg (by simp [unsigned]), if_neg checked, parseDecimal]
    by_cases long : 4300 < (first :: rest).length
    · simp only [if_pos long]
    · simp only [if_neg long, decimalValue]
  | negative plain =>
    have checked := mt not_digit_any.mp (not_not.mpr plain.2)
    unfold bindInt
    simp only [List.head?_cons, decide_true, if_true, List.tail_cons]
    rw [if_neg (by simp [plain.1]), if_neg checked, parseDecimal]
    by_cases long : 4300 < digits.length
    · simp only [if_pos long]
    · simp only [if_neg long, decimalValue]

theorem bindInt_refused (none : ¬ ∃ digits value, Numeral raw digits value) :
    bindInt raw = .error invalidInteger := by
  unfold bindInt
  by_cases bare : raw = [] ∨ raw = ['-']
  · rw [if_pos bare]
  · rw [if_neg bare]
    by_cases negative : raw.head? = some '-'
    · obtain ⟨digits, rfl⟩ := List.head?_eq_some_iff.mp negative
      have bad : ¬ ∀ c ∈ digits, '0' ≤ c ∧ c ≤ '9' := fun plain =>
        none ⟨digits, _, .negative ⟨fun empty => bare (.inr (by rw [empty])), plain⟩⟩
      simp only [List.head?_cons, decide_true, if_true, List.tail_cons]
      rw [if_pos (not_digit_any.mpr bad)]
    · have bad : ¬ ∀ c ∈ raw, '0' ≤ c ∧ c ≤ '9' := fun plain =>
        none ⟨raw, _, .natural ⟨fun empty => bare (.inl empty), plain⟩⟩
      simp only [negative, decide_false, Bool.false_eq_true, if_false]
      rw [if_pos (not_digit_any.mpr bad)]

theorem bindInt_eq_ok_iff :
    bindInt raw = .ok value ↔ ∃ digits, Numeral raw digits value ∧ digits.length ≤ 4300 := by
  constructor
  · intro reads
    by_cases written : ∃ digits value, Numeral raw digits value
    · obtain ⟨digits, value', numeral⟩ := written
      rw [bindInt_numeral numeral] at reads
      split at reads
      · cases reads
      · cases reads
        exact ⟨digits, numeral, by omega⟩
    · rw [bindInt_refused written] at reads
      cases reads
  · rintro ⟨digits, numeral, short⟩
    rw [bindInt_numeral numeral, if_neg (by omega)]

theorem bindInt_eq_error_iff {failure : BindingFailure} :
    bindInt raw = .error failure ↔ Refuses letters "int" raw failure := by
  constructor
  · intro fails
    by_cases written : ∃ digits value, Numeral raw digits value
    · obtain ⟨digits, value, numeral⟩ := written
      rw [bindInt_numeral numeral] at fails
      split at fails
      · cases fails
        exact .long numeral ‹_›
      · cases fails
    · rw [bindInt_refused written] at fails
      cases fails
      exact .integer written
  · intro refuses
    generalize isInt : "int" = kind at refuses
    cases refuses with
    | integer none => exact bindInt_refused none
    | long numeral long => rw [bindInt_numeral numeral, if_pos long]
    | boolean => simp at isInt

theorem bindBool_eq_ok_iff {lower : Text → Text} {value : Bool} : bindBool lower raw = .ok value ↔
    value = true ∧ lower raw ∈ ["1".toList, "true".toList, "yes".toList] ∨
      value = false ∧ lower raw ∈ ["0".toList, "false".toList, "no".toList] := by
  unfold bindBool
  by_cases yes : lower raw ∈ ["1".toList, "true".toList, "yes".toList]
  · have other : lower raw ∉ ["0".toList, "false".toList, "no".toList] := by
      revert yes
      generalize lower raw = lowered
      revert lowered
      simp
    rw [if_pos yes]
    simp only [Except.ok.injEq, yes, other, and_true, and_false, or_false, eq_comm]
  · rw [if_neg yes]
    by_cases no : lower raw ∈ ["0".toList, "false".toList, "no".toList]
    · rw [if_pos no]
      simp only [Except.ok.injEq, yes, no, and_true, and_false, false_or, eq_comm]
    · rw [if_neg no]
      simp only [reduceCtorEq, yes, no, and_false, or_self]

theorem bindBool_eq_error_iff {failure : BindingFailure} :
    bindBool letters.lower raw = .error failure ↔ Refuses letters "bool" raw failure := by
  constructor
  · intro fails
    unfold bindBool at fails
    split at fails
    · cases fails
    · split at fails
      · cases fails
      · cases fails
        exact .boolean (by simp only [List.mem_append, not_or]; exact ⟨‹_›, ‹_›⟩)
  · intro refuses
    generalize isBool : "bool" = kind at refuses
    cases refuses with
    | integer | long => simp at isBool
    | boolean neither =>
      rw [List.mem_append, not_or] at neither
      unfold bindBool
      rw [if_neg neither.1, if_neg neither.2]

end Scalars

theorem checkBindings_ok {names bound : List Text} {bindings : List (Text × String)}
    (checked : checkBindings names bindings bound = .ok ()) :
    ∀ binding ∈ bindings, binding.1 ∈ names ∧ binding.2 ∈ ["str", "int", "bool"] := by
  induction bindings generalizing bound with
  | nil => simp
  | cons first rest ih =>
    obtain ⟨name, kind⟩ := first
    unfold checkBindings at checked
    split at checked
    · cases checked
    · rename_i known
      split at checked
      · cases checked
      · split at checked
        · cases checked
        · rename_i supported
          intro binding member
          rcases List.mem_cons.mp member with rfl | member
          · exact ⟨not_not.mp known, not_not.mp supported⟩
          · exact ih checked binding member

/-- The route is one that the constructor returns. -/
def Route.Built {letters : Letters} (route : Route letters) : Prop :=
  ∃ method path host, Route.init letters method path host route.bindings = .ok route

theorem Route.Built.bindings {letters : Letters} {route : Route letters} (built : route.Built) :
    ∀ binding ∈ route.bindings,
      binding.1 ∈ parameterNames route.segments ∧ binding.2 ∈ ["str", "int", "bool"] := by
  obtain ⟨method, path, host, made⟩ := built
  unfold Route.init at made
  split at made
  · cases made
  · rename_i segments compiled
    obtain ⟨⟨⟩, checked, is⟩ := bind_eq_ok.mp made
    have same : segments = route.segments := congrArg Route.segments (Except.ok.inj is)
    rw [← same]
    exact checkBindings_ok checked

namespace Router
variable {letters : Letters}

theorem matchRoutes_ok {method path host target : Text} {routes : List (Route letters)}
    {allowed : List Text}
    {found : RouteMatch letters}
    (matched : matchRoutes method path host target routes allowed = .ok found) :
    found.route ∈ routes ∧ matchSegments found.route.segments path = .ok (some found.params) := by
  induction routes generalizing allowed with
  | nil =>
    unfold matchRoutes at matched
    split at matched <;> cases matched
  | cons route rest ih =>
    have later {allowed : List Text}
      (matched : matchRoutes method path host target rest allowed = .ok found) :
        found.route ∈ route :: rest ∧ matchSegments found.route.segments path = .ok (some found.params) :=
      ⟨List.mem_cons_of_mem _ (ih matched).1, (ih matched).2⟩
    unfold matchRoutes at matched
    split at matched
    · exact later matched
    · split at matched
      · cases matched
      · exact later matched
      · rename_i params run
        split at matched
        · cases matched
          exact ⟨List.mem_cons_self, run⟩
        · exact later matched

/-- A match has a value for each parameter of its route. -/
theorem matchRequest_params {router : Router letters} {method target host : Text}
    {found : RouteMatch letters} (matched : router.matchRequest method target host = .ok found) :
    found.route ∈ router.routes ∧ found.params.map Prod.fst = parameterNames found.route.segments := by
  obtain ⟨member, run⟩ := matchRoutes_ok matched
  unfold matchSegments at run
  obtain ⟨normalized, accepted, run⟩ := bind_eq_ok.mp run
  have plain : ∀ segment ∈ pathSegments normalized, PlainSegment segment := by
    obtain ⟨output, -, plain, rfl, -⟩ := normalizePath_spec accepted
    rwa [pathSegments_joinPath plain]
  exact ⟨member, (matchValues_fills found.route.wellFormed plain (Except.ok.inj run)).1⟩

section Bound
variable {params : List (Text × Text)} {binding : Text × String} {raw : Text}

theorem bindScalar_eq_ok_iff {values : List Scalar} (present : params.lookup binding.1 = some raw)
    (supported : binding.2 ∈ ["str", "int", "bool"]) :
    bindScalar letters params binding = .ok values ↔ ∃ value, values = [value] ∧
    Denotes letters binding.2 raw value := by
  obtain ⟨name, kind⟩ := binding
  unfold bindScalar
  simp only at present supported ⊢
  rw [present]
  simp only [List.mem_cons, List.not_mem_nil, or_false] at supported
  rcases supported with rfl | rfl | rfl
  · simp only [if_true, Except.ok.injEq]
    constructor
    · rintro rfl
      exact ⟨_, rfl, .str raw⟩
    · rintro ⟨value, rfl, denotes⟩
      generalize isStr : "str" = kind at denotes
      cases denotes with
      | str => rfl
      | int | yes | no => simp at isStr
  · simp only [String.reduceEq, if_false, if_true]
    rw [bind_eq_ok]
    simp only [bindInt_eq_ok_iff]
    constructor
    · rintro ⟨value, ⟨digits, numeral, short⟩, ⟨⟩⟩
      exact ⟨_, rfl, .int numeral short⟩
    · rintro ⟨value, rfl, denotes⟩
      generalize isInt : "int" = kind at denotes
      cases denotes with
      | int numeral short => exact ⟨_, ⟨_, numeral, short⟩, rfl⟩
      | str | yes | no => simp at isInt
  · simp only [String.reduceEq, if_false, if_true]
    rw [bind_eq_ok]
    simp only [bindBool_eq_ok_iff]
    constructor
    · rintro ⟨value, ⟨rfl, spelled⟩ | ⟨rfl, spelled⟩, ⟨⟩⟩
      · exact ⟨_, rfl, .yes spelled⟩
      · exact ⟨_, rfl, .no spelled⟩
    · rintro ⟨value, rfl, denotes⟩
      generalize isBool : "bool" = kind at denotes
      cases denotes with
      | yes spelled => exact ⟨_, .inl ⟨rfl, spelled⟩, rfl⟩
      | no spelled => exact ⟨_, .inr ⟨rfl, spelled⟩, rfl⟩
      | str | int => simp at isBool

theorem bindScalar_eq_error_iff {failure : BindingFailure} (present : params.lookup binding.1 = some raw)
    (supported : binding.2 ∈ ["str", "int", "bool"]) :
    bindScalar letters params binding = .error failure ↔ Refuses letters binding.2 raw failure := by
  obtain ⟨name, kind⟩ := binding
  unfold bindScalar
  simp only at present supported ⊢
  rw [present]
  simp only [List.mem_cons, List.not_mem_nil, or_false] at supported
  rcases supported with rfl | rfl | rfl
  · simp only [if_true, reduceCtorEq, false_iff]
    intro refuses
    generalize isStr : "str" = kind at refuses
    cases refuses <;> simp at isStr
  · simp only [String.reduceEq, if_false, if_true]
    rw [bind_eq_error, ← @bindInt_eq_error_iff letters]
    simp [pure, Except.pure]
  · simp only [String.reduceEq, if_false, if_true]
    rw [bind_eq_error, ← bindBool_eq_error_iff]
    simp [pure, Except.pure]

end Bound

/-- Every binding is bound, and its kind is one of the three. -/
def Known (params : List (Text × Text)) (bindings : List (Text × String)) : Prop :=
  ∀ binding ∈ bindings,
    params.lookup binding.1 = some (valueOf params binding.1) ∧ binding.2 ∈ ["str", "int", "bool"]

theorem mapM_bindScalar_ok {params : List (Text × Text)} {bindings : List (Text × String)}
    (known : Known params bindings) {values : List Scalar} :
    (∃ lists, bindings.mapM (bindScalar letters params) = .ok lists ∧ lists.flatten = values) ↔
      List.Forall₂ (fun binding value => Denotes letters binding.2 (valueOf params binding.1) value)
        bindings values := by
  induction bindings generalizing values with
  | nil => cases values <;> simp [pure, Except.pure]
  | cons binding rest ih =>
    obtain ⟨present, supported⟩ := known binding (by simp)
    have later : Known params rest := fun other member => known other (by simp [member])
    rw [List.forall₂_cons_left_iff]
    constructor
    · rintro ⟨lists, run, rfl⟩
      obtain ⟨list, lists, first, others, rfl⟩ := mapM_cons_ok.mp run
      obtain ⟨value, rfl, denotes⟩ := (bindScalar_eq_ok_iff present supported).mp first
      exact ⟨value, lists.flatten, denotes, (ih later).mp ⟨lists, others, rfl⟩, rfl⟩
    · rintro ⟨value, values, denotes, others, rfl⟩
      obtain ⟨lists, run, rfl⟩ := (ih later).mpr others
      have first := (bindScalar_eq_ok_iff present supported).mpr ⟨value, rfl, denotes⟩
      exact ⟨[value] :: lists, mapM_cons_ok.mpr ⟨_, _, first, run, rfl⟩, rfl⟩

theorem bindScalar_total {params : List (Text × Text)} {bindings : List (Text × String)}
    (known : Known params bindings) {binding : Text × String} (member : binding ∈ bindings) :
    (∃ list, bindScalar letters params binding = .ok list) ↔ ∃ value, Denotes letters binding.2
    (valueOf params binding.1) value := by
  obtain ⟨present, supported⟩ := known binding member
  constructor
  · rintro ⟨list, run⟩
    obtain ⟨value, -, denotes⟩ := (bindScalar_eq_ok_iff present supported).mp run
    exact ⟨value, denotes⟩
  · rintro ⟨value, denotes⟩
    exact ⟨[value], (bindScalar_eq_ok_iff present supported).mpr ⟨value, rfl, denotes⟩⟩

theorem RouteMatch.known {router : Router letters} (built : ∀ route ∈ router.routes, route.Built)
    {method target host : Text}
    {found : RouteMatch letters} (matched : router.matchRequest method target host = .ok found) :
    Known found.params found.route.bindings := by
  obtain ⟨member, names⟩ := matchRequest_params matched
  intro binding inside
  obtain ⟨parameter, supported⟩ := (built found.route member).bindings binding inside
  rw [← names] at parameter
  refine ⟨?_, supported⟩
  cases looked : found.params.lookup binding.1 with
  | some raw => simp [valueOf, looked]
  | none =>
    obtain ⟨pair, present, same⟩ := List.mem_map.mp parameter
    have absent := List.lookup_eq_none_iff.mp looked pair present
    simp [same] at absent

/-- A handler gets a value for each binding of its route, in order; else the first text that is none
decides what is raised. A parameter is never missing. What is assumed is that the constructors have
accepted the routes and that the request was matched. Nothing is assumed about the values, which are
whatever the path has. -/
theorem bound_values {router : Router letters} (built : ∀ route ∈ router.routes, route.Built)
    {method target host : Text}
    {found : RouteMatch letters} (matched : router.matchRequest method target host = .ok found) :
    (∀ values, found.boundValues = .ok values ↔
      List.Forall₂ (fun binding value => Denotes letters binding.2 (valueOf found.params binding.1) value)
        found.route.bindings values) ∧
    ∀ failure, found.boundValues = .error failure ↔
      ∃ before binding after, found.route.bindings = before ++ binding :: after ∧
      (∀ earlier ∈ before, ∃ value, Denotes letters earlier.2 (valueOf found.params earlier.1) value) ∧
      Refuses letters binding.2 (valueOf found.params binding.1) failure := by
  have known := RouteMatch.known built matched
  constructor
  · intro values
    rw [← mapM_bindScalar_ok known, RouteMatch.boundValues, bind_eq_ok]
    simp only [pure, Except.pure, Except.ok.injEq]
  · intro failure
    rw [RouteMatch.boundValues, bind_eq_error, mapM_eq_error_iff]
    simp only [pure, Except.pure, reduceCtorEq, and_false, exists_false, or_false]
    constructor
    · rintro ⟨before, binding, after, split, earlier, fails⟩
      obtain ⟨present, supported⟩ := known binding (by simp [split])
      refine ⟨before, binding, after, split, fun other member => ?_,
        (bindScalar_eq_error_iff present supported).mp fails⟩
      exact (bindScalar_total known (by simp [split, member])).mp (earlier other member)
    · rintro ⟨before, binding, after, split, earlier, refuses⟩
      obtain ⟨present, supported⟩ := known binding (by simp [split])
      refine ⟨before, binding, after, split, fun other member => ?_,
        (bindScalar_eq_error_iff present supported).mpr refuses⟩
      exact (bindScalar_total known (by simp [split, member])).mpr (earlier other member)

/-- A table with one route, whose handler is called with a number and a flag. -/
def linesRouter : Router ⟨Char.isAlphanum, upper, lower⟩ where
  routes := [{
    method := "GET".toList
    path := "/lines/{first}/{wrap}".toList
    host := []
    segments := [.exact "lines".toList, .parameter "first".toList, .parameter "wrap".toList]
    bindings := [("wrap".toList, "bool"), ("first".toList, "int")]
    compiled := rfl }]
  frozen := true

theorem bound_values_lines :
    ∃ found, linesRouter.matchRequest "GET".toList "/lines/-12/Yes".toList [] = .ok found ∧
    found.boundValues = .ok [.bool true, .int (-12)] := by
  have built : ∀ route ∈ linesRouter.routes, route.Built := by
    intro route member
    obtain rfl := List.mem_singleton.mp member
    exact ⟨"GET".toList, "/lines/{first}/{wrap}".toList, [], rfl⟩
  have matched : linesRouter.matchRequest "GET".toList "/lines/-12/Yes".toList [] =
      .ok ⟨linesRouter.routes.head (by simp [linesRouter]), [("first".toList, "-12".toList),
        ("wrap".toList, "Yes".toList)]⟩ := by
    rfl
  refine ⟨_, matched, ((bound_values built matched).1 _).mpr ?_⟩
  have each : ("12".toList.all fun c => '0' ≤ c ∧ c ≤ '9') = true := by decide
  have digits : Digits "12".toList := ⟨by decide, fun c member =>
    of_decide_eq_true (List.all_eq_true.mp each c member)⟩
  exact .cons (.yes (by decide)) (.cons (.int (.negative digits) (by decide)) .nil)

end Router

end PccGateway
