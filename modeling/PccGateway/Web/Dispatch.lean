import PccGateway.Web.Chain

namespace PccGateway
namespace Web
open Counting

section Halting
variable {letters : Letters} {σ : Type} {app : App letters σ} {shared : Shared σ}

/-- How many calls a continuation can still lead to. -/
def MiddlewareNext.cost (limit : Nat) (next : MiddlewareNext) : Nat :=
  if next.called then 0 else limit - next.index + 1

def cost (app : App letters σ) (shared : Shared σ) : Nat :=
  (shared.nexts.map (MiddlewareNext.cost app.middleware.length)).sum

theorem dispatchMiddleware_cost (app : App letters σ) (request index : Nat) (shared : Shared σ) :
    cost app (dispatchMiddleware app request index shared).1 ≤ cost app shared +
      (app.middleware.length - index) := by
  unfold cost
  rw [dispatchMiddleware_nexts]
  split
  · simp only [List.map_append, List.sum_append, List.map_cons, List.map_nil, List.sum_cons,
      List.sum_nil, MiddlewareNext.cost, Bool.false_eq_true, if_false]
    omega
  · omega

/-- A call of a continuation uses it up, and the one that it may make instead leads to less. -/
theorem wanes : (host app).Wanes (cost app) where
  put _ _ := rfl
  enter target shared := by
    have entered : (host app).enter target shared = middlewareNext app target shared := rfl
    rw [entered]
    unfold middlewareNext
    split
    · exact .inr ⟨Nat.le_refl _, rfl, _, rfl⟩
    · rename_i next found
      split
      · exact .inr ⟨Nat.le_refl _, rfl, _, rfl⟩
      · rename_i uncalled
        refine .inl ?_
        have spent :=
          sum_map_set (MiddlewareNext.cost app.middleware.length) found { next with called := true }
        have new := dispatchMiddleware_cost app next.request next.index
          { shared with nexts := shared.nexts.set target { next with called := true } }
        have mine : MiddlewareNext.cost app.middleware.length next = app.middleware.length -
            next.index + 1 := if_neg uncalled
        have none : MiddlewareNext.cost app.middleware.length { next with called := true } = 0 := if_pos rfl
        unfold cost at new ⊢
        simp only at new
        omega
  leave frame _ _ := by
    cases frame with
    | converting => exact Nat.le_refl _
    | answering _ => exact Nat.le_refl _

theorem step_advance {serving : Serving σ} {task : Nat} {found : Task σ}
    (there : serving.tasks[task]? = some found) :
    step app serving (.advance task) =
      { shared := ((host app).advance (serving.shared, found)).1
        tasks := serving.tasks.set task ((host app).advance (serving.shared, found)).2 } := by
  simp only [step, there]

/-- A task that alone goes on does what it does without the others. -/
theorem advance_alone {task : Nat} (n : Nat) {serving : Serving σ} {found : Task σ}
    (there : serving.tasks[task]? = some found) :
    (List.replicate n (Action.advance task)).foldl (step app) serving =
      { shared := ((host app).advance^[n] (serving.shared, found)).1
        tasks := serving.tasks.set task ((host app).advance^[n] (serving.shared, found)).2 } := by
  induction n generalizing serving found with
  | zero =>
    obtain ⟨inside, is⟩ := List.getElem?_eq_some_iff.mp there
    simp [← is]
  | succ n ih =>
    obtain ⟨inside, -⟩ := List.getElem?_eq_some_iff.mp there
    rw [List.replicate_succ, List.foldl_cons, step_advance there, ih (List.getElem?_set_self inside),
      List.set_set]
    simp only [Function.iterate_succ_apply]

/-- Every dispatch comes to an end when it is left to run, whatever continuations application code
calls and wherever it keeps them. Middleware, handlers and error handlers are finite programs here,
which may call continuations in any state; nothing else is assumed about them. How the dispatches
interleave before does not matter. -/
theorem dispatch_halts (app : App letters σ) (world : World σ) (actions : List Action) :
    let serving := actions.foldl (step app) { shared := { world := world } }
    ∀ task < serving.tasks.length, ∃ n outcome,
      ((List.replicate n (.advance task)).foldl (step app) serving).tasks[task]? =
        some ⟨.returning outcome, []⟩ := by
  intro serving task inside
  obtain ⟨found, there⟩ : ∃ found, serving.tasks[task]? = some found := ⟨_, List.getElem?_eq_getElem inside⟩
  obtain ⟨shared, outcome, n, ended⟩ := Host.halts wanes serving.shared found
  refine ⟨n, outcome, ?_⟩
  rw [advance_alone n there, ended]
  exact List.getElem?_set_self inside

/-- Middleware that hands on, and calls its continuation a second time. -/
def twiceApp : App ⟨Char.isAlphanum, upper, lower⟩ Unit where
  router := ⟨[], true⟩
  endpoint := fun _ => .proxy [] {}
  middleware := [fun _ next => .call next fun _ => .call next fun outcome => .finish outcome]

theorem dispatch_halts_twiceApp :
    ∃ n outcome, ((List.replicate n (.advance 0)).foldl (step twiceApp) (step twiceApp
      { shared := { world := { request := fun _ => ⟨[], "/".toList, [], []⟩, user := () } } }
      .dispatch)).tasks[0]? =
      some ⟨.returning outcome, []⟩ :=
  dispatch_halts twiceApp { request := fun _ => ⟨[], "/".toList, [], []⟩, user := () } [.dispatch] 0
    (by decide)

end Halting

section Answers
variable {letters : Letters} {σ : Type} {app : App letters σ}

def finalStatus : Exn := .value "final HTTP response status must be 200..599"

/-- What `dispatch` may come to: a value, or one of two things raised. -/
inductive Answered : Outcome → Prop where
  | value (value : Value) : Answered (.ok value)
  | exit (name : String) : Answered (.error (.exit name))
  | status : Answered (.error (.other finalStatus))

theorem answered_text (body : Text) (status : Nat) (headers : List Header) :
    Answered (respond (textResponse body status headers)) := by
  unfold textResponse Response.init
  split
  · exact .value _
  · exact .status

/-- No error handler raises, but for what cannot be helped. -/
def HandlersAnswer (app : App letters σ) : Prop :=
  ∀ status handler, app.errorHandlers status = some handler →
    ∀ request error, Host.Finishes Answered (handler request error)

theorem answer_good (handlers : HandlersAnswer app) (request : Nat) (outcome : Outcome) :
    Host.ControlGood Answered (answer app request outcome) := by
  have others (error : WebError) : Host.ControlGood Answered (answer.answerOther app request error) := by
    unfold answer.answerOther
    split
    · rename_i handler found
      exact handlers 500 handler found request error
    · exact answered_text _ _ _
  cases outcome with
  | ok value => exact .value value
  | error error =>
    cases error with
    | methodNotAllowed | routeNotFound | routeBinding => exact answered_text _ _ _
    | http status detail =>
      simp only [answer]
      split
      · rename_i handler found
        exact handlers status handler found request _
      · exact answered_text _ _ _
    | exit name => exact .exit name
    | typeError | other => exact others _

/-- What middleware, handlers and the router raise, `dispatch` answers: it raises itself only when
an `HttpError` has a status that no response can have, or when what was raised is no `Exception`.
What is assumed is that the error handlers of the application do not raise themselves. Nothing is
assumed about its middleware and its handlers. -/
theorem dispatch_answers (app : App letters σ) (handlers : HandlersAnswer app) (world : World σ)
    (actions : List Action) :
    let serving := actions.foldl (step app) { shared := { world := world } }
    ∀ (task : Nat) (outcome : Outcome), serving.tasks[task]? = some ⟨.returning outcome, []⟩ →
    Answered outcome := by
  intro serving task outcome found
  have guarded : ∀ task ∈ serving.tasks,
      Host.Guarded Answered (fun frame => ∃ request, frame = .answering request) task := by
    refine @Interleaving.invariant _ _ (step app) _ (fun serving : Serving σ => ∀ task ∈ serving.tasks,
      Host.Guarded Answered (fun frame => ∃ request, frame = .answering request) task) ?_ actions ?start
    case start => exact fun _ member => absurd member List.not_mem_nil
    intro serving action guarded task member
    cases action with
    | dispatch =>
      rcases List.mem_append.mp member with old | new
      · exact guarded task old
      · obtain rfl := List.mem_singleton.mp new
        exact .inr ⟨_, _, rfl, _, rfl⟩
    | advance place =>
      simp only [step] at member
      split at member
      · exact guarded task member
      · rename_i found there
        rcases List.mem_or_eq_of_mem_set member with old | rfl
        · exact guarded task old
        · refine @Host.Guarded.advance _ _ _ _ _ _ (serving.shared, found) _ _ ?_
            (guarded found (List.mem_of_getElem? there))
          rintro _ result shared ⟨request, rfl⟩
          exact answer_good handlers request result
  rcases guarded _ (List.mem_of_getElem? found) with ⟨-, good⟩ | ⟨above, last, split, -⟩
  · exact good
  · simp at split

/-- An application whose only middleware raises, and which answers one status of its own. -/
def raisingApp : App ⟨Char.isAlphanum, upper, lower⟩ Unit where
  router := Router.linesRouter
  endpoint := fun _ => .proxy [] {}
  middleware := [fun _ _ => .finish (.error (.http 700 []))]
  errorHandlers := fun status => if status = 418 then
    some fun _ _ => .finish (.ok (.text "teapot".toList)) else none

def raisingActions : List Action := .dispatch :: List.replicate 2 (.advance 0)

def raisingStart : Serving Unit :=
  { shared := { world := { request := fun _ => ⟨[], [], [], []⟩, user := () } } }

theorem dispatch_answers_raisingApp : ∃ outcome,
    (raisingActions.foldl (step raisingApp) raisingStart).tasks[0]? = some ⟨.returning outcome, []⟩ ∧
    Answered outcome := by
  have handlers : HandlersAnswer raisingApp := by
    intro status handler found request error
    simp only [raisingApp] at found
    split at found
    · cases found
      exact .finish (.value _)
    · cases found
  have ended : (raisingActions.foldl (step raisingApp) raisingStart).tasks[0]? =
      some ⟨.returning (.error (.other finalStatus)), []⟩ := rfl
  exact ⟨_, ended, dispatch_answers raisingApp handlers _ raisingActions 0 _ ended⟩

end Answers

section EarlyHead
variable {letters : Letters} {σ : Type} {app : App letters σ}

theorem routeRequest_traced (app : App letters σ) (request : Nat) (shared : Shared σ)
    (trace : List (Nat × Nat)) :
    routeRequest app request { shared with trace := trace } =
      ({ (routeRequest app request shared).1 with trace := trace },
        (routeRequest app request shared).2) := by
  unfold routeRequest
  cases routeMatch app (shared.world.request request) with
  | error failure => rfl
  | ok found =>
    simp only
    cases app.endpoint found.route with
    | handler run => cases found.boundValues <;> rfl
    | proxy target spec =>
      simp only
      split <;> rfl

/-- The task that `dispatch` of a request starts as. -/
def dispatched (app : App letters σ) (request : Nat) (shared : Shared σ) : Shared σ × Task σ :=
  ((dispatchMiddleware app request 0 shared).1,
    ⟨(dispatchMiddleware app request 0 shared).2.2,
      (dispatchMiddleware app request 0 shared).2.1.map .host ++ [.host (.answering request)]⟩)

/-- The early decision for a proxy route is the one that `dispatch` comes to: a plan exactly when
routing returns it, and then `dispatch` ends with it; an exception exactly for a path that has no
normal form, where there is a route that the host admits; else nothing has changed. What is assumed
is that there is no middleware, which may route as it likes; nothing is assumed about the routes,
the upstreams or the request. -/
theorem dispatchProxyHead_agrees (app : App letters σ) (request : Nat) (shared : Shared σ)
    (bare : app.middleware = []) :
    (∀ shared' plan, dispatchProxyHead app request shared = (shared', .ok (some plan)) ↔
      routeRequest app request shared = (shared', [], .returning (.ok (.proxy plan)))) ∧
    (∀ shared' plan, dispatchProxyHead app request shared = (shared', .ok (some plan)) →
      ∃ last, (host app).Runs (dispatched app request shared) (last, ⟨.returning (.ok (.proxy plan)), []⟩) ∧
        last.world = shared'.world) ∧
    (∀ error, (dispatchProxyHead app request shared).2 = .error error ↔
      (∃ route ∈ app.router.routes,
        Router.Admits (normalizeHost letters ((shared.world.request request).header "host" [])) route) ∧
      ∃ refused, normalizePath (splitTarget (shared.world.request request).target).1 =
        .error refused ∧ error = .other refused) ∧
    ((dispatchProxyHead app request shared).2 = .ok none →
      (dispatchProxyHead app request shared).1 = shared) := by
  have text (body : Text) (status : Nat) (plan : ProxyDispatch) :
      respond (textResponse body status) ≠ .ok (.proxy plan) := by
    unfold respond
    split <;> simp
  have decided : (∀ shared' plan, dispatchProxyHead app request shared = (shared', .ok (some plan)) ↔
        routeRequest app request shared = (shared', [], .returning (.ok (.proxy plan)))) ∧
      (∀ error, (dispatchProxyHead app request shared).2 = .error error ↔
        ∃ refused, routeMatch app (shared.world.request request) = .error (.value refused) ∧ error =
          .other refused) ∧
      ((dispatchProxyHead app request shared).2 = .ok none →
        (dispatchProxyHead app request shared).1 = shared) := by
    unfold dispatchProxyHead routeRequest
    rw [if_neg (not_not.mpr bare)]
    cases matched : routeMatch app (shared.world.request request) with
    | error failure => cases failure <;> simp [ofFailure, eq_comm]
    | ok found =>
      simp only
      cases app.endpoint found.route with
      | handler run => cases found.boundValues <;> simp
      | proxy target spec =>
        simp only
        by_cases known : target ∉ app.upstreams
        · rw [if_pos known, if_pos known]
          refine ⟨fun shared' plan => iff_of_false (by simp) fun same => ?_, fun error => by simp,
            fun _ => rfl⟩
          exact text _ _ plan (Control.returning.inj (Prod.mk.inj (Prod.mk.inj same).2).2)
        · rw [if_neg known, if_neg known]
          refine ⟨fun shared' plan => by simp, fun error => by simp, by simp⟩
  refine ⟨decided.1, fun shared' plan planned => ?_, fun error => ?_, decided.2.2⟩
  swap
  · rw [decided.2.1]
    simp only [routeMatch, Router.matchRequest_value, and_assoc, exists_and_left]
  have routed : dispatchMiddleware app request 0 shared =
      ({ shared' with trace := shared.trace ++ [(request, 0)] }, [], .returning (.ok (.proxy plan))) := by
    unfold dispatchMiddleware
    rw [bare]
    simp only [List.getElem?_nil]
    rw [routeRequest_traced, (decided.1 shared' plan).mp planned]
  refine ⟨{ shared' with trace := shared.trace ++ [(request, 0)] }, ⟨1, ?_⟩, rfl⟩
  rw [dispatched, routed]
  rfl

/-- An application with one proxy route and no middleware. -/
def proxyApp : App ⟨Char.isAlphanum, upper, lower⟩ Unit where
  router := Router.linesRouter
  endpoint := fun _ => .proxy "app".toList {}
  upstreams := ["app".toList]

def lineRequest : Shared Unit where
  world := { request := fun _ => ⟨"GET".toList, "/lines/7/no?q".toList, [], []⟩, user := () }

theorem dispatchProxyHead_agrees_proxyApp : ∃ plan last,
    (dispatchProxyHead proxyApp 0 lineRequest).2 = .ok (some plan) ∧
    (host proxyApp).Runs (dispatched proxyApp 0 lineRequest)
    (last, ⟨.returning (.ok (.proxy plan)), []⟩) := by
  have planned : dispatchProxyHead proxyApp 0 lineRequest = ((dispatchProxyHead proxyApp 0 lineRequest).1,
      .ok (some ⟨{ upstream := "app".toList, spec := {} }, 0⟩)) := rfl
  obtain ⟨last, runs, -⟩ := (dispatchProxyHead_agrees proxyApp 0 lineRequest rfl).2.1 _ _ planned
  exact ⟨_, last, congrArg Prod.snd planned, runs⟩

end EarlyHead
end Web
end PccGateway
