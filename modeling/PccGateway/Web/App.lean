import PccGateway.Lib.Coroutine
import PccGateway.Lib.Interleaving
import PccGateway.Routing.Binding
import PccGateway.Server.Environment

namespace PccGateway
namespace Web

/-- What dispatching reads and writes of a request. Middleware may change any of it. -/
structure Incoming where
  method : Text
  target : Text
  headers : List Header
  pathParams : List (Text × Text) := []

def Incoming.header (request : Incoming) (name : String) (default : Text) : Text :=
  ((request.headers.find? fun header => lower header.1 = lower name.toList).map (·.2)).getD default

/-- What application code can raise, as far as the dispatcher tells it apart. `exit` is no `Exception`. -/
inductive WebError where
  | methodNotAllowed (allowed : List Text)
  | routeNotFound (target : Text)
  | routeBinding (message : String)
  | http (status : Int) (detail : Text)
  | typeError (message : String)
  | other (error : Exn)
  | exit (name : String)

/-- A request, by its number, with the plan of the proxy route that it matched. -/
structure ProxyDispatch where
  plan : ProxyPlan
  request : Nat

/-- A value that application code returns. What is neither a response nor bytes nor text is what
`json.dumps` makes of it. -/
inductive Value where
  | response (response : Response)
  | proxy (dispatch : ProxyDispatch)
  | bytes (data : Bytes)
  | text (value : Text)
  | object (json : Except Exn Bytes)

abbrev Outcome := Except WebError Value

def textResponse (body : Text) (status : Nat) (headers : List Header := []) : Except Exn Response :=
  Response.init status (.bytes (utf8 body))
    (headers ++ [("content-type".toList, "text/plain; charset=utf-8".toList)])

def respond : Except Exn Response → Outcome
  | .ok response => .ok (.response response)
  | .error error => .error (.other error)

/-- What `_route_request` makes of a handler's result. -/
def convert : Outcome → Outcome
  | .ok (.response response) => .ok (.response response)
  | .ok (.bytes data) => respond (Response.init 200 (.bytes data))
  | .ok (.text value) => respond (textResponse value 200)
  | .ok (.object (.ok json)) =>
    respond (Response.init 200 (.bytes json) [("content-type".toList, "application/json".toList)])
  | .ok (.object (.error error)) => .error (.other error)
  | .ok (.proxy _) => .error (.typeError "Object of type ProxyDispatch is not JSON serializable")
  | .error error => .error error

/-- What application code may change at any time: the requests, and whatever else it keeps. -/
structure World (σ : Type) where
  request : Nat → Incoming
  user : σ

/-- Middleware, a handler or an error handler. It calls `middleware_next` with a continuation, which
is named by its place among all that were made. -/
abbrev Code (σ : Type) := Program (World σ) Nat Outcome

inductive Endpoint (σ : Type) where
  | handler (run : Nat → List Scalar → Code σ)
  | proxy (target : Text) (spec : ProxySpec)

/-- `App`. A request goes by its number. -/
structure App (letters : Letters) (σ : Type) where
  router : Router letters
  endpoint : Route letters → Endpoint σ
  middleware : List (Nat → Nat → Code σ) := []
  errorHandlers : Int → Option (Nat → WebError → Code σ) := fun _ => none
  upstreams : List Text := []

structure MiddlewareNext where
  request : Nat
  index : Nat
  called : Bool := false
  deriving DecidableEq

/-- What all dispatches share. `trace` has an entry for each call of `_dispatch_middleware`: the
request and the index. -/
structure Shared (σ : Type) where
  world : World σ
  nexts : List MiddlewareNext := []
  trace : List (Nat × Nat) := []

/-- What the framework has still to do when application code returns: the end of `_route_request`, or
the `except` clauses of `dispatch`. -/
inductive Pending where
  | converting
  | answering (request : Nat)

abbrev Task (σ : Type) := Coroutine (World σ) Nat Outcome Pending

abbrev Entered (σ : Type) := Shared σ × List Pending × Control (World σ) Nat Outcome

def ofFailure : Router.Failure → WebError
  | .value error => .other error
  | .methodNotAllowed allowed => .methodNotAllowed allowed
  | .routeNotFound target => .routeNotFound target

def ofBinding : BindingFailure → WebError
  | .key _ => .other (.lookup "path parameter")
  | .binding message => .routeBinding message
  | .value error => .other error

section Dispatch
variable {letters : Letters} {σ : Type} (app : App letters σ)

def routeMatch (request : Incoming) : Except Router.Failure (Router.RouteMatch letters) :=
  app.router.matchRequest request.method request.target (request.header "host" [])

def setParams (request : Nat) (params : List (Text × Text)) (shared : Shared σ) : Shared σ :=
  { shared with
    world.request := Function.update shared.world.request request { shared.world.request request with
      pathParams := params } }

def routeRequest (request : Nat) (shared : Shared σ) : Entered σ :=
  match routeMatch app (shared.world.request request) with
  | .error failure => (shared, [], .returning (.error (ofFailure failure)))
  | .ok found =>
    let shared := setParams request found.params shared
    match app.endpoint found.route with
    | .proxy target spec =>
      if target ∉ app.upstreams then
        (shared, [], .returning (respond (textResponse "upstream unavailable".toList 503)))
      else (shared, [], .returning (.ok (.proxy ⟨{ upstream := target, spec := spec }, request⟩)))
    | .handler run =>
      match found.boundValues with
      | .error failure => (shared, [], .returning (.error (ofBinding failure)))
      | .ok values => (shared, [.converting], .running (run request values))

def dispatchMiddleware (request index : Nat) (shared : Shared σ) : Entered σ :=
  let shared := { shared with trace := shared.trace ++ [(request, index)] }
  match app.middleware[index]? with
  | none => routeRequest app request shared
  | some middleware =>
    ({ shared with nexts := shared.nexts ++ [{ request := request, index := index + 1 }] }, [],
      .running (middleware request shared.nexts.length))

def middlewareNext (next : Nat) (shared : Shared σ) : Entered σ :=
  match shared.nexts[next]? with
  | none => (shared, [], .returning (.error (.typeError "middleware_next requires MiddlewareNext")))
  | some found =>
    if found.called then
      (shared, [], .returning (.error (.other (.runtime "middleware next called more than once"))))
    else dispatchMiddleware app found.request found.index
      { shared with nexts := shared.nexts.set next { found with called := true } }

/-- The `except` clauses of `dispatch`. -/
def answer (request : Nat) : Outcome → Control (World σ) Nat Outcome
  | .ok value => .returning (.ok value)
  | .error (.methodNotAllowed allowed) => .returning (respond (textResponse "method not allowed".toList 405
      [("allow".toList, ", ".toList.intercalate allowed)]))
  | .error (.routeNotFound _) => .returning (respond (textResponse "not found".toList 404))
  | .error (.routeBinding _) => .returning (respond (textResponse "invalid route parameter".toList 400))
  | .error (.http status detail) =>
    match app.errorHandlers status with
    | some handler => .running (handler request (.http status detail))
    | none => .returning (respond (textResponse detail status.toNat))
  | .error (.exit name) => .returning (.error (.exit name))
  | .error (.typeError message) => answerOther app request (.typeError message)
  | .error (.other error) => answerOther app request (.other error)
where
  answerOther (app : App letters σ) (request : Nat) (error : WebError) : Control (World σ) Nat Outcome :=
    match app.errorHandlers 500 with
    | some handler => .running (handler request error)
    | none => .returning (respond (textResponse "internal server error".toList 500))

def host : Host (Shared σ) (World σ) Nat Outcome Pending where
  view shared := shared.world
  put world shared := { shared with world := world }
  enter := middlewareNext app
  leave
    | .converting, outcome, shared => (shared, .returning (convert outcome))
    | .answering request, outcome, shared => (shared, answer app request outcome)

/-- Calls of `dispatch` that are under way or over, one for each request. -/
structure Serving (σ : Type) where
  shared : Shared σ
  tasks : List (Task σ) := []

inductive Action where
  | dispatch
  | advance (task : Nat)

/-- A connection dispatches its request, or some dispatch goes on until application code may park. -/
def step (serving : Serving σ) : Action → Serving σ
  | .dispatch =>
    let request := serving.tasks.length
    let entered := dispatchMiddleware app request 0 serving.shared
    { shared := entered.1
      tasks := serving.tasks ++ [⟨entered.2.2, entered.2.1.map .host ++ [.host (.answering request)]⟩] }
  | .advance task =>
    match serving.tasks[task]? with
    | none => serving
    | some found =>
      let advanced := (host app).advance (serving.shared, found)
      { shared := advanced.1, tasks := serving.tasks.set task advanced.2 }

/-- `dispatch_proxy_head`: what it raises, or the plan that it returns. -/
def dispatchProxyHead (request : Nat) (shared : Shared σ) :
    Shared σ × Except WebError (Option ProxyDispatch) :=
  if app.middleware ≠ [] then (shared, .ok none)
  else
    match routeMatch app (shared.world.request request) with
    | .error (.value error) => (shared, .error (.other error))
    | .error _ => (shared, .ok none)
    | .ok found =>
      match app.endpoint found.route with
      | .handler _ => (shared, .ok none)
      | .proxy target spec =>
        if target ∉ app.upstreams then (shared, .ok none)
        else (setParams request found.params shared,
          .ok (some ⟨{ upstream := target, spec := spec }, request⟩))

end Dispatch
end Web
end PccGateway
