import PccGateway.Lib.Counting
import PccGateway.Web.App

namespace PccGateway
namespace Web
open Counting

section Chain
variable {letters : Letters} {σ : Type} {app : App letters σ} {shared : Shared σ}

/-- The indices at which a request has entered the chain, in order. -/
def entries (trace : List (Nat × Nat)) (request : Nat) : List Nat :=
  (trace.filter (·.1 = request)).map (·.2)

def progress (trace : List (Nat × Nat)) (request : Nat) : Nat := (entries trace request).length

/-- A continuation belongs to the chain: the request has come as far as to make it, and it was called
if and only if the request has come further. -/
structure Links (app : App letters σ) (trace : List (Nat × Nat)) (next : MiddlewareNext) : Prop where
  positive : 1 ≤ next.index
  short : next.index ≤ app.middleware.length
  made : next.index ≤ progress trace next.request
  called : next.called = true ↔ next.index < progress trace next.request

structure Chained (app : App letters σ) (shared : Shared σ) : Prop where
  entered : ∀ request, entries shared.trace request = List.range (progress shared.trace request)
  short : ∀ request, progress shared.trace request ≤ app.middleware.length + 1
  links : ∀ next ∈ shared.nexts, Links app shared.trace next
  distinct : (shared.nexts.map fun next => (next.request, next.index)).Nodup

/-- The request may go one step down the chain: nothing else is left that would. -/
structure Ready (app : App letters σ) (request : Nat) (shared : Shared σ) : Prop where
  entered : ∀ request, entries shared.trace request = List.range (progress shared.trace request)
  short : ∀ request, progress shared.trace request ≤ app.middleware.length + 1
  room : progress shared.trace request ≤ app.middleware.length
  others : ∀ next ∈ shared.nexts, next.request ≠ request → Links app shared.trace next
  own : ∀ next ∈ shared.nexts, next.request = request →
    1 ≤ next.index ∧ next.index ≤ app.middleware.length ∧ next.index ≤ progress shared.trace request ∧
    next.called = true
  distinct : (shared.nexts.map fun next => (next.request, next.index)).Nodup

theorem routeRequest_kept (app : App letters σ) (request : Nat) (shared : Shared σ) :
    (routeRequest app request shared).1.nexts = shared.nexts ∧
    (routeRequest app request shared).1.trace = shared.trace := by
  unfold routeRequest
  split
  · exact ⟨rfl, rfl⟩
  · simp only
    split
    · split <;> exact ⟨rfl, rfl⟩
    · split <;> exact ⟨rfl, rfl⟩

theorem dispatchMiddleware_trace (app : App letters σ) (request index : Nat) (shared : Shared σ) :
    (dispatchMiddleware app request index shared).1.trace = shared.trace ++ [(request, index)] := by
  unfold dispatchMiddleware
  simp only
  split
  · exact (routeRequest_kept app request _).2
  · rfl

theorem dispatchMiddleware_nexts (app : App letters σ) (request index : Nat) (shared : Shared σ) :
    (dispatchMiddleware app request index shared).1.nexts =
      if index < app.middleware.length then
        shared.nexts ++ [{ request := request, index := index + 1 }] else shared.nexts := by
  unfold dispatchMiddleware
  simp only
  split
  · rename_i past
    rw [if_neg (by have := List.getElem?_eq_none_iff.mp past; omega)]
    exact (routeRequest_kept app request _).1
  · rename_i inside
    rw [if_pos (List.getElem?_eq_some_iff.mp inside).1]

theorem dispatchMiddleware_entries (app : App letters σ) (request index other : Nat) (shared : Shared σ) :
    entries (dispatchMiddleware app request index shared).1.trace other =
      if other = request then entries shared.trace request ++ [index] else entries shared.trace other := by
  rw [dispatchMiddleware_trace]
  unfold entries
  rw [List.filter_append, List.map_append]
  by_cases same : other = request
  · subst same
    simp
  · have apart : request ≠ other := Ne.symm same
    simp [same, apart]

theorem dispatchMiddleware_progress (app : App letters σ) (request index other : Nat) (shared : Shared σ) :
    progress (dispatchMiddleware app request index shared).1.trace other =
      if other = request then progress shared.trace request + 1 else progress shared.trace other := by
  unfold progress
  rw [dispatchMiddleware_entries]
  split
  · simp
  · rfl

/-- One step down the chain keeps it. -/
theorem Ready.chained {request : Nat} (ready : Ready app request shared) :
    Chained app (dispatchMiddleware app request (progress shared.trace request) shared).1 := by
  have advanced :=
    fun other => dispatchMiddleware_progress app request (progress shared.trace request) other shared
  have linked (next : MiddlewareNext) (member : next ∈ shared.nexts) :
      Links app (dispatchMiddleware app request (progress shared.trace request) shared).1.trace next := by
    by_cases own : next.request = request
    · obtain ⟨positive, short, made, called⟩ := ready.own next member own
      refine ⟨positive, short, ?_, ?_⟩
      · rw [advanced, if_pos own]
        omega
      · rw [advanced, if_pos own]
        exact iff_of_true called (by omega)
    · have links := ready.others next member own
      refine ⟨links.positive, links.short, ?_, ?_⟩
      · rw [advanced, if_neg own]
        exact links.made
      · rw [advanced, if_neg own]
        exact links.called
  have room := ready.room
  constructor
  · intro other
    rw [dispatchMiddleware_entries, advanced]
    by_cases same : other = request
    · rw [if_pos same, if_pos same, ready.entered, List.range_succ]
    · rw [if_neg same, if_neg same]
      exact ready.entered other
  · intro other
    rw [advanced]
    split
    · omega
    · exact ready.short other
  · intro next member
    rw [dispatchMiddleware_nexts] at member
    split at member
    · rcases List.mem_append.mp member with old | new
      · exact linked next old
      · obtain rfl := List.mem_singleton.mp new
        refine ⟨by simp, by simpa using ‹_›, ?_, ?_⟩
        · rw [advanced, if_pos rfl]
        · rw [advanced, if_pos rfl]
          simp
    · exact linked next member
  · rw [dispatchMiddleware_nexts]
    split
    · rw [List.map_append, List.nodup_append]
      refine ⟨ready.distinct, by simp, ?_⟩
      intro pair old other new same
      obtain rfl := List.mem_singleton.mp new
      obtain ⟨next, member, is⟩ := List.mem_map.mp old
      have made := (ready.own next member (congrArg Prod.fst (is.trans same))).2.2.1
      have index : next.index = progress shared.trace request + 1 := congrArg Prod.snd (is.trans same)
      omega
    · exact ready.distinct

/-- A request that has not entered the chain may do so. -/
theorem Chained.ready_fresh (chained : Chained app shared) {request : Nat}
    (fresh : progress shared.trace request = 0) :
    Ready app request shared where
  entered := chained.entered
  short := chained.short
  room := by omega
  others next member _ := chained.links next member
  own next member own := by
    have links := chained.links next member
    have positive := links.positive
    have made := links.made
    rw [own, fresh] at made
    omega
  distinct := chained.distinct

/-- A continuation that was not called leads to where its request stands, and it is the only one that
does. -/
theorem Chained.ready_next (chained : Chained app shared) {place : Nat} {next : MiddlewareNext}
    (found : shared.nexts[place]? = some next) (uncalled : next.called = false) :
    next.index = progress shared.trace next.request ∧
      Ready app next.request
        { shared with nexts := shared.nexts.set place { next with called := true } } := by
  have links := chained.links next (List.mem_of_getElem? found)
  have made := links.made
  have atIndex : next.index = progress shared.trace next.request := by
    have not := mt links.called.mpr (by simp [uncalled])
    omega
  have same : (shared.nexts.set place { next with called := true }).map (fun next =>
      (next.request, next.index)) =
      shared.nexts.map fun next => (next.request, next.index) := map_set_same found rfl
  refine ⟨atIndex, chained.entered, chained.short, ?_, ?_, ?_, by rw [same]; exact chained.distinct⟩
  · exact atIndex ▸ links.short
  · intro other member apart
    obtain ⟨at_, here⟩ := List.mem_iff_getElem?.mp member
    rw [set_at found] at here
    split at here
    · cases here
      exact absurd rfl apart
    · exact chained.links other (List.mem_of_getElem? here)
  · intro other member own
    obtain ⟨at_, here⟩ := List.mem_iff_getElem?.mp member
    rw [set_at found] at here
    split at here
    · cases here
      exact ⟨links.positive, links.short, made, rfl⟩
    · rename_i apart
      have others := chained.links other (List.mem_of_getElem? here)
      have bound := others.made
      rw [own] at bound
      refine ⟨others.positive, others.short, bound, others.called.mpr ?_⟩
      rw [own]
      -- at the same index it would be the same continuation
      by_contra behind
      have index : other.index = next.index := by omega
      have inside : place < (shared.nexts.map fun next => (next.request, next.index)).length := by
        rw [List.length_map]
        exact (List.getElem?_eq_some_iff.mp found).1
      refine apart ((List.getElem?_inj inside chained.distinct).mp ?_)
      rw [List.getElem?_map, List.getElem?_map, found, here, Option.map_some, Option.map_some, own, index]

/-- Some requests were dispatched, and they are the ones that have entered the chain. -/
structure Tracked (app : App letters σ) (dispatched : Nat) (shared : Shared σ) :
    Prop extends Chained app shared where
  begun : ∀ request, request < dispatched ↔ 0 < progress shared.trace request

theorem tracked_keeps (dispatched : Nat) : (host app).Keeps (Tracked app dispatched) where
  put world shared tracked :=
    ⟨⟨tracked.entered, tracked.short, tracked.links, tracked.distinct⟩, tracked.begun⟩
  enter target shared tracked := by
    change Tracked app dispatched (middlewareNext app target shared).1
    unfold middlewareNext
    split
    · exact tracked
    · rename_i next found
      split
      · exact tracked
      · rename_i uncalled
        obtain ⟨atIndex, ready⟩ := tracked.toChained.ready_next found (Bool.not_eq_true _ ▸ uncalled)
        have links := tracked.links next (List.mem_of_getElem? found)
        have chained := ready.chained
        dsimp only at chained
        rw [← atIndex] at chained
        refine ⟨chained, fun request => ?_⟩
        rw [dispatchMiddleware_progress, tracked.begun]
        split
        · rename_i same
          have positive := links.positive
          have made := links.made
          rw [same]
          exact iff_of_true (by omega) (by omega)
        · rfl
  leave frame _ _ tracked := by
    cases frame with
    | converting => exact tracked
    | answering _ => exact tracked

theorem step_tracked {serving : Serving σ} (tracked : Tracked app serving.tasks.length serving.shared)
    (action : Action) :
    Tracked app (step app serving action).tasks.length (step app serving action).shared := by
  cases action with
  | dispatch =>
    have fresh : progress serving.shared.trace serving.tasks.length = 0 := by
      have begun := tracked.begun serving.tasks.length
      omega
    have chained := (tracked.toChained.ready_fresh fresh).chained
    rw [fresh] at chained
    refine ⟨chained, fun request => ?_⟩
    simp only [step, List.length_append, List.length_singleton]
    rw [dispatchMiddleware_progress]
    have begun := tracked.begun request
    split
    · omega
    · omega
  | advance task =>
    simp only [step]
    split
    · exact tracked
    · rename_i found _
      simp only [List.length_set]
      exact @Host.Keeps.advance _ _ _ _ _ _ (serving.shared, found) _ (tracked_keeps _) tracked

/-- Whatever middleware and handlers do, and however dispatches interleave: each request goes
through the middleware in order and reaches the router, if at all, once and last; a continuation is
used up by its first call. Nothing is assumed about the application: a continuation may be kept,
called twice, called for another request or never, and what middleware and handlers raise may be
anything. -/
theorem middleware_order (app : App letters σ) (world : World σ) (actions : List Action) :
    let serving := actions.foldl (step app) { shared := { world := world } }
    ∀ request, ∃ reached ≤ app.middleware.length + 1,
      entries serving.shared.trace request = List.range reached ∧
        (request < serving.tasks.length ↔ 0 < reached) ∧
      ∀ next ∈ serving.shared.nexts, next.request = request →
        (next.called = true ↔ next.index < reached) := by
  intro serving request
  have tracked : Tracked app serving.tasks.length serving.shared := by
    refine @Interleaving.invariant _ _ (step app) _ (fun serving : Serving σ =>
      Tracked app serving.tasks.length serving.shared)
      (fun _ action tracked => step_tracked tracked action) actions ?_
    exact ⟨⟨fun _ => rfl, fun _ => Nat.zero_le _, by simp, List.nodup_nil⟩, by simp [progress, entries]⟩
  refine ⟨progress serving.shared.trace request, tracked.short request, tracked.entered request,
    tracked.begun request, ?_⟩
  intro next member own
  rw [← own]
  exact (tracked.links next member).called

end Chain
end Web
end PccGateway
