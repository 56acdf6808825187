import Mathlib.Algebra.Order.BigOperators.Group.List
import Mathlib.Algebra.Order.Group.Int
import Mathlib.Logic.Relation
import PccGateway.Lib.Interleaving
import PccGateway.Lifecycle.State

namespace PccGateway
namespace GatewayLifecycle

/-- What a caller of the lifecycle may have. -/
inductive Admission where
  | connection
  | request
  | queued
  | upstream
  | buffered (amount : Int)
  deriving DecidableEq

namespace Admission

def grant : Admission → Call Bool
  | .connection => admitConnection
  | .request => admitRequest
  | .queued => queueRequest
  | .upstream => admitUpstream
  | .buffered amount => reserveBuffered amount

def release : Admission → Call Unit
  | .connection => releaseConnection
  | .request => releaseRequest
  | .queued => releaseQueuedRequest
  | .upstream => releaseUpstream
  | .buffered amount => releaseBuffered amount

end Admission

/-- The gauges that are limited. -/
inductive Gauge where
  | connections
  | requests
  | queued
  | upstream
  | buffered
  deriving DecidableEq

namespace Gauge

def read : Gauge → GatewayLifecycle → Int
  | .connections, lifecycle => lifecycle.metrics .connectionsActive
  | .requests, lifecycle => lifecycle.metrics .requestsActive
  | .queued, lifecycle => lifecycle.queuedRequests
  | .upstream, lifecycle => lifecycle.metrics .upstreamActive
  | .buffered, lifecycle => lifecycle.metrics .bufferedBytes

def limit : Gauge → AdmissionLimits → Nat
  | .connections, limits => limits.maxConnections
  | .requests, limits => limits.maxRequests
  | .queued, limits => limits.maxQueuedRequests
  | .upstream, limits => limits.maxUpstreamActive
  | .buffered, limits => limits.maxBufferedBytes

end Gauge

/-- How much of a gauge an admission takes. -/
def Admission.units : Admission → Gauge → Int
  | .connection, .connections | .request, .requests | .queued, .queued | .upstream, .upstream => 1
  | .buffered amount, .buffered => amount
  | _, _ => 0

inductive Action where
  | start
  | started
  | grant (admission : Admission)
  | release (admission : Admission)
  | beginDrain
  | finishDrain
  | fail (reason : String)

/-- What a method returns, if it returns a truth value. -/
def Action.run : Action → Call (Option Bool)
  | .start => do GatewayLifecycle.start; return none
  | .started => do GatewayLifecycle.started; return none
  | .grant admission => do return some (← admission.grant)
  | .release admission => do admission.release; return none
  | .beginDrain => do GatewayLifecycle.beginDrain; return none
  | .finishDrain => do return some (← GatewayLifecycle.finishDrain false)
  | .fail reason => do GatewayLifecycle.fail reason; return none

/-- A lifecycle with the admissions that were granted and not given back. -/
structure Admitting where
  lifecycle : GatewayLifecycle
  outstanding : List Admission := []

namespace Admitting

/-- What an action makes of the outstanding admissions. -/
def settle (outstanding : List Admission) : Action → Except Exn (Option Bool) → List Admission
  | .grant admission, .ok (some true) => admission :: outstanding
  | .release admission, .ok _ => outstanding.erase admission
  | _, _ => outstanding

def step (gateway : Admitting) (action : Action) : Admitting where
  lifecycle := (action.run gateway.lifecycle).1
  outstanding := settle gateway.outstanding action (action.run gateway.lifecycle).2

/-- Only an admission that is outstanding is released. -/
def Holds (gateway : Admitting) : Action → Prop
  | .release admission => admission ∈ gateway.outstanding
  | _ => True

instance (gateway : Admitting) : (action : Action) → Decidable (gateway.Holds action)
  | .release admission => inferInstanceAs (Decidable (admission ∈ gateway.outstanding))
  | .start | .started | .grant _ | .beginDrain | .finishDrain | .fail _ => .isTrue trivial

end Admitting

/-- The moves of the state. -/
inductive Forward : GatewayState → GatewayState → Prop
  | stay (state : GatewayState) : Forward state state
  | start : Forward .new .starting
  | started : Forward .starting .running
  | drain : Forward .running .draining
  | drainEarly : Forward .starting .draining
  | stop : Forward .draining .stopped
  | fail (state : GatewayState) : Forward state .failed

theorem Forward.rank_le {before after : GatewayState} (forward : Forward before after) :
    before.rank ≤ after.rank := by
  cases forward with
  | stay => exact le_rfl
  | fail => cases before <;> decide
  | start | started | drain | drainEarly | stop => decide

section Effects
variable {lifecycle lifecycle' : GatewayLifecycle}

/-- The gauges and the state after a call that changed them by `units`. -/
structure Shifted (units : Gauge → Int) (lifecycle lifecycle' : GatewayLifecycle) : Prop where
  limits : lifecycle'.limits = lifecycle.limits
  state : lifecycle'.state = lifecycle.state
  gauges : ∀ gauge : Gauge, gauge.read lifecycle' = gauge.read lifecycle + units gauge
  queued : lifecycle'.metrics .requestsQueued = lifecycle.metrics .requestsQueued + units .queued

theorem Shifted.none (lifecycle : GatewayLifecycle) : Shifted (fun _ => 0) lifecycle lifecycle :=
  ⟨rfl, rfl, fun _ => (Int.add_zero _).symm, (Int.add_zero _).symm⟩

theorem admitRunning_run (gauge total rejected : Metric) (limit : GatewayLifecycle → Nat)
    (lifecycle : GatewayLifecycle) :
    admitRunning gauge total rejected limit lifecycle =
      if lifecycle.state ≠ .running ∨ limit lifecycle ≤ lifecycle.metrics gauge then
        (lifecycle.add rejected 1, .ok false)
      else ((lifecycle.add total 1).add gauge 1, .ok true) := by
  unfold admitRunning
  rw [Method.bind_run]
  simp only [Method.get_run]
  split <;> rfl

theorem queueRequest_run (lifecycle : GatewayLifecycle) :
    queueRequest lifecycle =
      if lifecycle.limits.maxQueuedRequests ≤ lifecycle.queuedRequests then
        (lifecycle.add .requestsRejected 1, .ok false)
      else (add .requestsQueued 1 { lifecycle with queuedRequests := lifecycle.queuedRequests + 1 },
        .ok true) := by
  unfold queueRequest
  rw [Method.bind_run]
  simp only [Method.get_run]
  split <;> rfl

theorem admitUpstream_run (lifecycle : GatewayLifecycle) :
    admitUpstream lifecycle =
      if lifecycle.limits.maxUpstreamActive ≤ lifecycle.metrics .upstreamActive then (lifecycle, .ok false)
      else (lifecycle.add .upstreamActive 1, .ok true) := by
  unfold admitUpstream
  rw [Method.bind_run]
  simp only [Method.get_run]
  split <;> rfl

theorem reserveBuffered_run (amount : Int) (lifecycle : GatewayLifecycle) :
    reserveBuffered amount lifecycle =
      if amount < 0 then (lifecycle, .error (.value "buffer reservation cannot be negative"))
      else if lifecycle.limits.maxBufferedBytes < lifecycle.metrics .bufferedBytes + amount then
        (lifecycle, .ok false)
      else (lifecycle.add .bufferedBytes amount, .ok true) := by
  unfold reserveBuffered
  split
  · rfl
  · rw [Method.bind_run]
    simp only [Method.get_run]
    split <;> rfl

/-- Every admission is granted within its limit, or nothing is taken. -/
theorem Admission.admit_cases (admission : Admission) (lifecycle : GatewayLifecycle) :
    (∃ lifecycle', admission.grant lifecycle = (lifecycle', .ok true) ∧
      Shifted admission.units lifecycle lifecycle' ∧
      (∀ gauge, 0 ≤ admission.units gauge ∧
        (admission.units gauge ≠ 0 → gauge.read lifecycle' ≤ gauge.limit lifecycle.limits)) ∧
      (admission = .connection ∨ admission = .request → lifecycle.state = .running)) ∨
    ∃ lifecycle' result, admission.grant lifecycle = (lifecycle', result) ∧ result ≠ .ok true ∧
      Shifted (fun _ => 0) lifecycle lifecycle' := by
  cases admission with
  | connection =>
    simp only [grant, admitConnection, admitRunning_run]
    split
    · refine .inr ⟨_, _, rfl, by simp, rfl, rfl, fun gauge => ?_, by simp [add]⟩
      cases gauge <;> simp [Gauge.read, add]
    · rename_i open_
      simp only [not_or, not_not, Int.not_le] at open_
      refine .inl ⟨_, rfl, ⟨rfl, rfl, fun gauge => ?_, by simp [add, units]⟩, fun gauge => ?_,
        fun _ => open_.1⟩
      · cases gauge <;> simp [Gauge.read, add, units]
      · cases gauge <;> simp [Gauge.read, Gauge.limit, add, units]
        omega
  | request =>
    simp only [grant, admitRequest, admitRunning_run]
    split
    · refine .inr ⟨_, _, rfl, by simp, rfl, rfl, fun gauge => ?_, by simp [add]⟩
      cases gauge <;> simp [Gauge.read, add]
    · rename_i open_
      simp only [not_or, not_not, Int.not_le] at open_
      refine .inl ⟨_, rfl, ⟨rfl, rfl, fun gauge => ?_, by simp [add, units]⟩, fun gauge => ?_,
        fun _ => open_.1⟩
      · cases gauge <;> simp [Gauge.read, add, units]
      · cases gauge <;> simp [Gauge.read, Gauge.limit, add, units]
        omega
  | queued =>
    simp only [grant, queueRequest_run]
    split
    · refine .inr ⟨_, _, rfl, by simp, rfl, rfl, fun gauge => ?_, by simp [add]⟩
      cases gauge <;> simp [Gauge.read, add]
    · rename_i room
      refine .inl ⟨_, rfl, ⟨rfl, rfl, fun gauge => ?_, by simp [add, units]⟩, fun gauge => ?_, by simp⟩
      · cases gauge <;> simp [Gauge.read, add, units]
      · cases gauge <;> simp [Gauge.read, Gauge.limit, add, units]
        omega
  | upstream =>
    simp only [grant, admitUpstream_run]
    split
    · exact .inr ⟨_, _, rfl, by simp, .none lifecycle⟩
    · rename_i room
      refine .inl ⟨_, rfl, ⟨rfl, rfl, fun gauge => ?_, by simp [add, units]⟩, fun gauge => ?_, by simp⟩
      · cases gauge <;> simp [Gauge.read, add, units]
      · cases gauge <;> simp [Gauge.read, Gauge.limit, add, units]
        omega
  | buffered amount =>
    simp only [grant, reserveBuffered_run]
    split
    · exact .inr ⟨_, _, rfl, by simp, .none lifecycle⟩
    · rename_i positive
      split
      · exact .inr ⟨_, _, rfl, by simp, .none lifecycle⟩
      · rename_i room
        refine .inl ⟨_, rfl, ⟨rfl, rfl, fun gauge => ?_, by simp [add, units]⟩, fun gauge => ?_, by simp⟩
        · cases gauge <;> simp [Gauge.read, add, units]
        · cases gauge <;> simp [Gauge.read, Gauge.limit, add, units]
          omega

theorem releaseOne_run (gauge : Metric) (message : String) (lifecycle : GatewayLifecycle) :
    releaseOne gauge message lifecycle =
      if lifecycle.metrics gauge ≤ 0 then (lifecycle, .error (.runtime message))
        else (lifecycle.add gauge (-1), .ok ()) := by
  unfold releaseOne
  rw [Method.bind_run]
  simp only [Method.get_run]
  split <;> rfl

/-- A release that raises changes nothing; it raises when the gauge is short of the admission. -/
theorem Admission.release_cases (admission : Admission) (lifecycle : GatewayLifecycle) :
    (∃ lifecycle', admission.release lifecycle = (lifecycle', .ok ()) ∧
      Shifted (fun gauge => -admission.units gauge) lifecycle lifecycle') ∨
    ∃ error, admission.release lifecycle = (lifecycle, .error error) := by
  cases admission with
  | connection =>
    simp only [release, releaseConnection, releaseOne_run]
    split
    · exact .inr ⟨_, rfl⟩
    · refine .inl ⟨_, rfl, rfl, rfl, fun gauge => ?_, by simp [add, units]⟩
      cases gauge <;> simp [Gauge.read, add, units]
  | request =>
    simp only [release, releaseRequest, releaseOne_run]
    split
    · exact .inr ⟨_, rfl⟩
    · refine .inl ⟨_, rfl, rfl, rfl, fun gauge => ?_, by simp [add, units]⟩
      cases gauge <;> simp [Gauge.read, add, units]
  | queued =>
    simp only [release, releaseQueuedRequest, Method.bind_run, Method.get_run]
    split
    · exact .inr ⟨_, rfl⟩
    · refine .inl ⟨_, rfl, rfl, rfl, fun gauge => ?_, by simp [add, units]⟩
      cases gauge <;> simp [Gauge.read, add, units]
      rfl
  | upstream =>
    simp only [release, releaseUpstream, releaseOne_run]
    split
    · exact .inr ⟨_, rfl⟩
    · refine .inl ⟨_, rfl, rfl, rfl, fun gauge => ?_, by simp [add, units]⟩
      cases gauge <;> simp [Gauge.read, add, units]
  | buffered amount =>
    simp only [release, releaseBuffered, Method.bind_run, Method.get_run]
    split
    · exact .inr ⟨_, rfl⟩
    · refine .inl ⟨_, rfl, rfl, rfl, fun gauge => ?_, by simp [add, units]⟩
      cases gauge <;> simp [Gauge.read, add, units]

theorem finishDrain_run (lifecycle : GatewayLifecycle) :
    finishDrain false lifecycle =
      if lifecycle.state ≠ .draining then (lifecycle, .error (.runtime "gateway is not draining"))
      else if lifecycle.metrics .connectionsActive + lifecycle.metrics .requestsActive ≠ 0 then
        (lifecycle, .ok false)
      else ({ lifecycle with state := .stopped }, .ok true) := by
  have drained : drainActive false lifecycle =
      (lifecycle, .ok (lifecycle.metrics .connectionsActive + lifecycle.metrics .requestsActive)) := by
    simp only [drainActive, Method.bind_run, Method.get_run, Bool.false_eq_true, and_false, if_false]
    rfl
  unfold finishDrain
  rw [Method.bind_run]
  simp only [Method.get_run]
  split
  · rfl
  · rw [Method.bind_run]
    simp only [drained, and_true]
    split <;> rfl

/-- A drain ends once, with the state that says so, or the call changes nothing. -/
theorem finishDrain_cases (force : Bool) (lifecycle : GatewayLifecycle) :
    (lifecycle.state = .draining ∧ ∃ lifecycle',
      finishDrain force lifecycle = (lifecycle', .ok true) ∧ lifecycle'.state = .stopped) ∨
      ∃ result, finishDrain force lifecycle = (lifecycle, result) ∧ result ≠ .ok true := by
  cases force with
  | false =>
    rw [finishDrain_run]
    split
    · exact .inr ⟨_, rfl, by simp⟩
    · rename_i draining
      split
      · exact .inr ⟨_, rfl, by simp⟩
      · exact .inl ⟨not_not.mp draining, _, rfl, rfl⟩
  | true =>
    unfold finishDrain
    rw [Method.bind_run]
    simp only [Method.get_run]
    split
    · exact .inr ⟨_, rfl, by simp⟩
    · rename_i draining
      obtain ⟨drained, active, run⟩ : ∃ drained active, drainActive true lifecycle =
          (drained, .ok active) := by
        simp only [drainActive, Method.bind_run, Method.get_run]
        split <;> exact ⟨_, _, rfl⟩
      refine .inl ⟨not_not.mp draining, { drained with state := .stopped }, ?_, rfl⟩
      rw [Method.bind_run, run]
      simp only [Bool.true_eq_false, and_false, if_false]
      rfl

/-- What an action that admits and releases nothing does: only the state moves. -/
structure Turned (lifecycle lifecycle' : GatewayLifecycle) : Prop where
  limits : lifecycle'.limits = lifecycle.limits
  forward : Forward lifecycle.state lifecycle'.state
  metrics : lifecycle'.metrics = lifecycle.metrics
  queued : lifecycle'.queuedRequests = lifecycle.queuedRequests

theorem Turned.none (lifecycle : GatewayLifecycle) : Turned lifecycle lifecycle := ⟨rfl, .stay _, rfl, rfl⟩

theorem start_turns (lifecycle : GatewayLifecycle) : Turned lifecycle (start lifecycle).1 := by
  simp only [start, Method.bind_run, Method.get_run]
  split
  · exact .none lifecycle
  · rename_i new
    refine ⟨rfl, ?_, rfl, rfl⟩
    rw [not_not.mp new]
    exact .start

theorem started_turns (lifecycle : GatewayLifecycle) : Turned lifecycle (started lifecycle).1 := by
  simp only [started, Method.bind_run, Method.get_run]
  split
  · exact .none lifecycle
  · rename_i starting
    refine ⟨rfl, ?_, rfl, rfl⟩
    rw [not_not.mp starting]
    exact .started

theorem beginDrain_turns (lifecycle : GatewayLifecycle) : Turned lifecycle (beginDrain lifecycle).1 := by
  simp only [beginDrain, Method.bind_run, Method.get_run]
  split
  · exact .none lifecycle
  · rename_i open_
    refine ⟨rfl, ?_, rfl, rfl⟩
    rw [not_and_or, not_not, not_not] at open_
    rcases open_ with starting | running
    · rw [starting]
      exact .drainEarly
    · rw [running]
      exact .drain

theorem finishDrain_turns (lifecycle : GatewayLifecycle) :
    Turned lifecycle (finishDrain false lifecycle).1 := by
  rw [finishDrain_run]
  split
  · exact .none lifecycle
  · rename_i draining
    split
    · exact .none lifecycle
    · refine ⟨rfl, ?_, rfl, rfl⟩
      rw [not_not.mp draining]
      exact .stop

theorem fail_turns (reason : String) (lifecycle : GatewayLifecycle) :
    Turned lifecycle (fail reason lifecycle).1 :=
  ⟨rfl, .fail _, rfl, rfl⟩

/-- The object after an action. -/
theorem Action.run_fst (action : Action) (lifecycle : GatewayLifecycle) :
    (action.run lifecycle).1 =
      match action with
      | .start => (GatewayLifecycle.start lifecycle).1
      | .started => (GatewayLifecycle.started lifecycle).1
      | .grant admission => (admission.grant lifecycle).1
      | .release admission => (admission.release lifecycle).1
      | .beginDrain => (GatewayLifecycle.beginDrain lifecycle).1
      | .finishDrain => (GatewayLifecycle.finishDrain false lifecycle).1
      | .fail reason => (GatewayLifecycle.fail reason lifecycle).1 := by
  have object {α β : Type} (call : Call α) (result : α → β) :
      ((do return result (← call) : Call β) lifecycle).1 = (call lifecycle).1 := by
    rw [Method.bind_run]
    rcases call lifecycle with ⟨lifecycle', error | a⟩ <;> rfl
  cases action <;> exact object _ _

end Effects

namespace Admitting

/-- What the outstanding admissions take of a gauge. -/
def taken (gauge : Gauge) (outstanding : List Admission) : Int :=
  (outstanding.map fun admission => admission.units gauge).sum

structure Balanced (limits : AdmissionLimits) (gateway : Admitting) : Prop where
  given : gateway.lifecycle.limits = limits
  counted : ∀ gauge : Gauge, gauge.read gateway.lifecycle = taken gauge gateway.outstanding
  bounded : ∀ gauge : Gauge, gauge.read gateway.lifecycle ≤ gauge.limit limits
  positive : ∀ admission ∈ gateway.outstanding, ∀ gauge, 0 ≤ admission.units gauge
  queued : gateway.lifecycle.metrics .requestsQueued = gateway.lifecycle.queuedRequests

section Balanced
variable {limits : AdmissionLimits} {gateway : Admitting}

theorem Balanced.turned (balanced : gateway.Balanced limits) {lifecycle : GatewayLifecycle}
    (turned : Turned gateway.lifecycle lifecycle) : Balanced limits { gateway with lifecycle } := by
  have same (gauge : Gauge) : gauge.read lifecycle = gauge.read gateway.lifecycle := by
    cases gauge <;> simp [Gauge.read, turned.metrics, turned.queued]
  refine ⟨turned.limits.trans balanced.given, fun gauge => (same gauge).trans (balanced.counted gauge),
    fun gauge => (same gauge).trans_le (balanced.bounded gauge), balanced.positive, ?_⟩
  simp only [turned.metrics, turned.queued]
  exact balanced.queued

theorem Balanced.unshifted (balanced : gateway.Balanced limits) {lifecycle : GatewayLifecycle}
    (shifted : Shifted (fun _ => 0) gateway.lifecycle lifecycle) :
    Balanced limits { gateway with lifecycle } := by
  have same (gauge : Gauge) : gauge.read lifecycle = gauge.read gateway.lifecycle :=
    (shifted.gauges gauge).trans (Int.add_zero _)
  refine ⟨shifted.limits.trans balanced.given, fun gauge => (same gauge).trans (balanced.counted gauge),
    fun gauge => (same gauge).trans_le (balanced.bounded gauge), balanced.positive, ?_⟩
  have queued := same .queued
  simp only [Gauge.read] at queued
  simp only [queued, shifted.queued, Int.add_zero]
  exact balanced.queued

theorem Balanced.grant (balanced : gateway.Balanced limits) (admission : Admission) :
    (gateway.step (.grant admission)).Balanced limits := by
  rcases admission.admit_cases gateway.lifecycle with ⟨lifecycle, granted, shifted, within, -⟩ |
    ⟨lifecycle, result, refused, no, shifted⟩
  · have run : (Action.grant admission).run gateway.lifecycle = (lifecycle, .ok (some true)) := by
      simp only [Action.run, Method.bind_run, granted]
      rfl
    simp only [step, run, settle]
    refine ⟨shifted.limits.trans balanced.given, fun gauge => ?_, fun gauge => ?_, ?_, ?_⟩
    · rw [shifted.gauges, balanced.counted]
      simp only [taken, List.map_cons, List.sum_cons]
      omega
    · by_cases apart : admission.units gauge = 0
      · simp only [shifted.gauges, apart, Int.add_zero]
        exact balanced.bounded gauge
      · exact balanced.given ▸ (within gauge).2 apart
    · intro other member gauge
      rcases List.mem_cons.mp member with rfl | old
      · exact (within gauge).1
      · exact balanced.positive other old gauge
    · have queued := shifted.gauges .queued
      simp only [Gauge.read] at queued
      simp only [shifted.queued, queued, balanced.queued]
  · have run : ((Action.grant admission).run gateway.lifecycle).1 = lifecycle ∧
        ∀ answer, ((Action.grant admission).run gateway.lifecycle).2 = .ok answer → answer ≠ some true := by
      simp only [Action.run, Method.bind_run, refused]
      cases result with
      | error => exact ⟨rfl, nofun⟩
      | ok granted =>
        refine ⟨rfl, fun answer is => ?_⟩
        cases is
        simpa using no
    have same : settle gateway.outstanding (.grant admission)
        ((Action.grant admission).run gateway.lifecycle).2 = gateway.outstanding := by
      unfold settle
      split
      · rename_i granted
        exact absurd rfl (run.2 _ granted)
      · contradiction
      · rfl
    simp only [step, run.1, same]
    exact balanced.unshifted shifted

theorem Balanced.release (balanced : gateway.Balanced limits) {admission : Admission}
    (held : admission ∈ gateway.outstanding) :
    (gateway.step (.release admission)).Balanced limits := by
  rcases admission.release_cases gateway.lifecycle with ⟨lifecycle, done, shifted⟩ | ⟨error, raised⟩
  · have run : (Action.release admission).run gateway.lifecycle = (lifecycle, .ok none) := by
      simp only [Action.run, Method.bind_run, done]
      rfl
    simp only [step, run, settle]
    refine ⟨shifted.limits.trans balanced.given, fun gauge => ?_, fun gauge => ?_, ?_, ?_⟩
    · have parts := List.sum_map_erase (fun admission : Admission => admission.units gauge) held
      have counted := balanced.counted gauge
      simp only [taken] at counted ⊢
      rw [shifted.gauges]
      omega
    · have less := balanced.positive admission held gauge
      have bounded := balanced.bounded gauge
      simp only [shifted.gauges]
      omega
    · exact fun other member => balanced.positive other (List.mem_of_mem_erase member)
    · have queued := shifted.gauges .queued
      simp only [Gauge.read] at queued
      simp only [shifted.queued, queued, balanced.queued]
  · have run : (Action.release admission).run gateway.lifecycle = (gateway.lifecycle, .error error) := by
      simp only [Action.run, Method.bind_run, raised]
    simp only [step, run, settle]
    exact balanced

/-- An action that is no admission and no release only turns the state. -/
theorem step_turned (gateway : Admitting) {action : Action}
    (admits : ∀ admission, action ≠ .grant admission)
    (releases : ∀ admission, action ≠ .release admission) :
    Turned gateway.lifecycle (gateway.step action).lifecycle ∧ (gateway.step action).outstanding =
      gateway.outstanding := by
  have object := action.run_fst gateway.lifecycle
  simp only [step, object]
  cases action with
  | start => exact ⟨start_turns gateway.lifecycle, rfl⟩
  | started => exact ⟨started_turns gateway.lifecycle, rfl⟩
  | grant admission => exact absurd rfl (admits admission)
  | release admission => exact absurd rfl (releases admission)
  | beginDrain => exact ⟨beginDrain_turns gateway.lifecycle, rfl⟩
  | finishDrain => exact ⟨finishDrain_turns gateway.lifecycle, rfl⟩
  | fail reason => exact ⟨fail_turns reason gateway.lifecycle, rfl⟩

theorem Balanced.step (balanced : gateway.Balanced limits) {action : Action} (held : gateway.Holds action) :
    (gateway.step action).Balanced limits := by
  by_cases admits : ∃ admission, action = .grant admission
  · obtain ⟨admission, rfl⟩ := admits
    exact balanced.grant admission
  · by_cases releases : ∃ admission, action = .release admission
    · obtain ⟨admission, rfl⟩ := releases
      exact balanced.release held
    · obtain ⟨turned, same⟩ := @step_turned gateway action (fun admission is => admits ⟨admission, is⟩)
        fun admission is => releases ⟨admission, is⟩
      have after := balanced.turned turned
      rw [← same] at after
      exact after

theorem step_forward (gateway : Admitting) (action : Action) :
    Forward gateway.lifecycle.state (gateway.step action).lifecycle.state := by
  by_cases admits : ∃ admission, action = .grant admission
  · obtain ⟨admission, rfl⟩ := admits
    simp only [Admitting.step, Action.run_fst]
    rcases admission.admit_cases gateway.lifecycle with ⟨_, run, shifted, -⟩ | ⟨_, _, run, -, shifted⟩
    · rw [run, shifted.state]
      exact .stay _
    · rw [run, shifted.state]
      exact .stay _
  · by_cases releases : ∃ admission, action = .release admission
    · obtain ⟨admission, rfl⟩ := releases
      simp only [Admitting.step, Action.run_fst]
      rcases admission.release_cases gateway.lifecycle with ⟨_, run, shifted⟩ | ⟨_, run⟩
      · rw [run, shifted.state]
        exact .stay _
      · rw [run]
        exact .stay _
    · exact (gateway.step_turned (fun admission is => admits ⟨admission, is⟩)
        fun admission is => releases ⟨admission, is⟩).1.forward

theorem run_rank (gateway : Admitting) (actions : List Action) :
    gateway.lifecycle.state.rank ≤ (actions.foldl Admitting.step gateway).lifecycle.state.rank :=
  @Interleaving.invariant _ _ Admitting.step gateway
    (fun later => gateway.lifecycle.state.rank ≤ later.lifecycle.state.rank)
    (fun later action le => le.trans (step_forward later action).rank_le) actions le_rfl

theorem admit_running {lifecycle : GatewayLifecycle} {admission : Admission}
    (scope : admission = .connection ∨ admission = .request)
    (granted : ((Action.grant admission).run lifecycle).2 = .ok (some true)) :
    lifecycle.state = .running := by
  simp only [Action.run, Method.bind_run] at granted
  rcases admission.admit_cases lifecycle with ⟨_, -, -, -, running⟩ | ⟨_, result, run, no, -⟩
  · exact running scope
  · rw [run] at granted
    cases result with
    | error => cases granted
    | ok answer =>
      cases granted
      exact absurd rfl no

/-- A drain has ended, and no connection or request is there. -/
structure Quiet (gateway : Admitting) : Prop where
  past : GatewayState.stopped.rank ≤ gateway.lifecycle.state.rank
  connections : .connection ∉ gateway.outstanding
  requests : .request ∉ gateway.outstanding

theorem Quiet.step (quiet : gateway.Quiet) (action : Action) : (gateway.step action).Quiet := by
  have absent {admission : Admission} (scope : admission = .connection ∨ admission = .request)
      (none_ : admission ∉ gateway.outstanding) : admission ∉ (gateway.step action).outstanding := by
    simp only [Admitting.step, settle]
    split
    · rename_i other granted
      rw [List.mem_cons, not_or]
      refine ⟨?_, none_⟩
      rintro rfl
      have running := admit_running scope granted
      have past := quiet.past
      rw [running] at past
      revert past
      decide
    · exact fun member => none_ (List.mem_of_mem_erase member)
    · exact none_
  exact ⟨quiet.past.trans (step_forward gateway action).rank_le, absent (.inl rfl) quiet.connections,
    absent (.inr rfl) quiet.requests⟩

end Balanced

/-- The gauge that an admission takes of. -/
def gauge : Admission → Gauge
  | .connection => .connections
  | .request => .requests
  | .queued => .queued
  | .upstream => .upstream
  | .buffered _ => .buffered

theorem taken_eq_count {limited : Gauge} (units : limited ≠ .buffered) (outstanding : List Admission) :
    taken limited outstanding = outstanding.countP fun admission => decide (gauge admission = limited) := by
  induction outstanding with
  | nil => rfl
  | cons admission outstanding ih =>
    simp only [taken, List.map_cons, List.sum_cons, List.countP_cons] at ih ⊢
    rw [ih]
    cases admission <;> cases limited <;> simp_all [Admission.units, gauge, Int.add_comm]

/-- However the methods of a lifecycle are interleaved, as long as an admission is released by one
that has it: every gauge is what the outstanding admissions take and within its limit, connections
and requests are only admitted while the gateway runs, the state only goes forward, and a drain that
ends finds no connection and no request, and none is admitted from then on. What is assumed is only
that: an action which releases comes from one that has the admission. The limits are any, and so is
the order in which the gateway starts, drains, fails and ends its drain. -/
theorem lifecycle_admission (limits : AdmissionLimits) (actions : List Action)
    (held : Interleaving.Along step Holds actions { lifecycle := { limits } }) :
    let gateway := actions.foldl step { lifecycle := { limits } }
    (∀ limited : Gauge, 0 ≤ limited.read gateway.lifecycle ∧ limited.read gateway.lifecycle ≤
      limited.limit limits ∧ limited.read gateway.lifecycle = taken limited gateway.outstanding ∧
      (limited ≠ .buffered → limited.read gateway.lifecycle =
        gateway.outstanding.countP fun admission => decide (gauge admission = limited))) ∧
    gateway.lifecycle.metrics .requestsQueued = gateway.lifecycle.queuedRequests ∧
    (∀ admission : Admission, admission = .connection ∨ admission = .request →
      ((Action.grant admission).run gateway.lifecycle).2 = .ok (some true) →
        gateway.lifecycle.state = .running) ∧
    (∀ action, Forward gateway.lifecycle.state (gateway.step action).lifecycle.state) ∧
    (∀ later : List Action, gateway.lifecycle.state.rank ≤
      (later.foldl step gateway).lifecycle.state.rank) ∧
    ((Action.finishDrain.run gateway.lifecycle).2 = .ok (some true) →
      .connection ∉ gateway.outstanding ∧ .request ∉ gateway.outstanding ∧
      ∀ later : List Action, let after := later.foldl step (gateway.step .finishDrain)
        .connection ∉ after.outstanding ∧ .request ∉ after.outstanding ∧
        ∀ admission : Admission, admission = .connection ∨ admission = .request →
          ((Action.grant admission).run after.lifecycle).2 ≠ .ok (some true)) := by
  intro gateway
  have start : Balanced limits { lifecycle := { limits } } := by
    refine ⟨rfl, fun gauge => ?_, fun gauge => ?_, by simp, rfl⟩
    · cases gauge <;> rfl
    · cases gauge <;> exact Int.natCast_nonneg _
  have balanced : gateway.Balanced limits := Interleaving.invariant_along (fun _ _ held balanced =>
    balanced.step held) held start
  have positive (limited : Gauge) : 0 ≤ limited.read gateway.lifecycle := by
    rw [balanced.counted]
    refine List.sum_nonneg fun units member => ?_
    obtain ⟨admission, among, rfl⟩ := List.mem_map.mp member
    exact balanced.positive admission among limited
  have counts (limited : Gauge) (units : limited ≠ .buffered) :=
    (balanced.counted limited).trans (taken_eq_count units gateway.outstanding)
  refine ⟨fun limited => ⟨positive limited, balanced.bounded limited, balanced.counted limited,
    counts limited⟩, balanced.queued,
    fun admission => admit_running, step_forward gateway, run_rank gateway, fun finishes => ?_⟩
  have run : finishDrain false gateway.lifecycle =
      ({ gateway.lifecycle with state := .stopped }, .ok true) ∧
      gateway.lifecycle.metrics .connectionsActive + gateway.lifecycle.metrics .requestsActive = 0 := by
    simp only [Action.run, Method.bind_run, finishDrain_run] at finishes ⊢
    split at finishes
    · rename_i run
      split at run
      · cases run
      · split at run
        · cases run
          cases finishes
        · rename_i draining active
          rw [if_neg draining, if_neg active]
          exact ⟨rfl, not_not.mp active⟩
    · cases finishes
  have none_ (admission : Admission) (scope : admission = .connection ∨ admission = .request) :
      admission ∉ gateway.outstanding := by
    intro member
    have connections := positive .connections
    have requests := positive .requests
    have zero : (gauge admission).read gateway.lifecycle = 0 := by
      rcases scope with rfl | rfl <;> simp only [gauge, Gauge.read] at connections requests ⊢ <;> omega
    have units : gauge admission ≠ .buffered := by rcases scope with rfl | rfl <;> decide
    rw [counts _ units] at zero
    have some_ : 0 < gateway.outstanding.countP fun other => decide (gauge other = gauge admission) :=
      List.countP_pos_iff.mpr ⟨admission, member, by simp⟩
    omega
  have quiet : (gateway.step .finishDrain).Quiet := by
    refine ⟨?_, none_ _ (.inl rfl), none_ _ (.inr rfl)⟩
    simp only [step, Action.run_fst, run.1]
    exact le_rfl
  refine ⟨none_ _ (.inl rfl), none_ _ (.inr rfl), fun later => ?_⟩
  have after : (later.foldl step (gateway.step .finishDrain)).Quiet :=
    Interleaving.invariant (fun _ action quiet => quiet.step action) later quiet
  refine ⟨after.connections, after.requests, fun admission scope granted => ?_⟩
  have running := admit_running scope granted
  have past := after.past
  rw [running] at past
  revert past
  decide

/-- A connection with a request comes and goes around the start of a drain; five bytes stay reserved. -/
def drained : List Action :=
  [.start, .started, .grant .connection, .grant .request, .grant .connection, .grant (.buffered 5),
    .release .request, .beginDrain, .grant .request, .finishDrain, .release .connection]

/-- The limits of that gateway. -/
def narrow : AdmissionLimits where
  maxConnections := 1
  maxBufferedBytes := 8

theorem lifecycle_admission_drained :
    (drained.foldl step { lifecycle := { limits := narrow } }).outstanding = [.buffered 5] ∧
    Gauge.buffered.read (drained.foldl step { lifecycle := { limits := narrow } }).lifecycle = 5 ∧
    ((Action.grant .connection).run
      (step (drained.foldl step { lifecycle := { limits := narrow } }) .finishDrain).lifecycle).2 ≠
        .ok (some true) := by
  have outstanding : (drained.foldl step { lifecycle := { limits := narrow } }).outstanding =
      [.buffered 5] := by decide
  have admission := lifecycle_admission narrow drained (by decide)
  refine ⟨outstanding, (admission.1 .buffered).2.2.1.trans (by rw [outstanding]; rfl), ?_⟩
  exact (admission.2.2.2.2.2 (by decide)).2.2 [] |>.2.2 .connection (.inl rfl)

end Admitting
end GatewayLifecycle
end PccGateway
