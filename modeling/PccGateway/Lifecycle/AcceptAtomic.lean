import PccGateway.Lifecycle.AcceptRun

namespace PccGateway
namespace Accepting
open Generations

section Others
variable {run : Lifetime}

theorem publishStart_same (store : Generations) : (publishStart store).1.lifecycle = store.lifecycle := by
  simp only [publishStart, Method.bind_run, Method.get_run]
  split
  · rfl
  · split <;> rfl

/-- A call of the lifetime that goes on takes no reference and admits nothing. -/
theorem proceed_same (call : Call) : (run.proceed call).holders = run.holders ∧
    (run.proceed call).store.lifecycle = run.store.lifecycle := by
  cases call with
  | constructing generationId config resources retained =>
    cases resources with
    | cons => exact ⟨rfl, rfl⟩
    | nil =>
      simp only [Lifetime.proceed, install, Method.bind_run, Method.get_run, Method.modify_run]
      by_cases running : run.store.lifecycle.state = .running <;>
        simp [running, Method.bind_run, Lifetime.goes]
  | retiring generation retirer =>
    simp only [Lifetime.proceed, retire]
    cases run.store.generations[generation]? with
    | none => exact ⟨rfl, rfl⟩
    | some found =>
      by_cases retired : found.retired = true
      · simp [retired, Lifetime.goes]
      · by_cases gone : found.released = true ∨ found.references ≤ 0
        · simp [retired, gone, Lifetime.goes]
        · simp [retired, gone, Lifetime.goes, put]
  | releasing resources publishes =>
    cases resources with
    | cons => exact ⟨rfl, rfl⟩
    | nil => cases publishes <;> exact ⟨rfl, rfl⟩
  | collecting => exact ⟨rfl, rfl⟩
  | attaching => exact ⟨rfl, rfl⟩
  | attached generation retained =>
    simp only [Lifetime.proceed, attach]
    cases run.store.generations[generation]? with
    | none => exact ⟨rfl, rfl⟩
    | some found => cases attachable : found.attachable <;> simp [attachable, Lifetime.goes, put]
  | rejecting => exact ⟨rfl, rfl⟩

theorem finishDrain_same : (run.finishDrain false).holders = run.holders ∧
    (run.finishDrain false).store.lifecycle.metrics .connectionsActive = run.store.lifecycle.metrics
    .connectionsActive := by
  simp only [Lifetime.finishDrain, Generations.finishDrain, onLifecycle, Method.on, Method.bind_run,
    GatewayLifecycle.finishDrain_run]
  by_cases draining : run.store.lifecycle.state ≠ .draining
  · simp [draining]
  · by_cases active : run.store.lifecycle.metrics .connectionsActive + run.store.lifecycle.metrics
      .requestsActive ≠ 0
    · simp [draining, active]
    · simp [draining, active, Lifetime.goes]

/-- What the rest of the gateway does leaves the holders and the admitted connections. -/
theorem step_same {action : Generations.Action} (other : exclusive action = false) :
    (run.step action).holders = run.holders ∧
      (run.step action).store.lifecycle.metrics .connectionsActive = run.store.lifecycle.metrics
      .connectionsActive := by
  cases action with
  | lifecycle action =>
    have turned := @GatewayLifecycle.Admitting.step_turned ⟨run.store.lifecycle, []⟩ action
    cases action with
    | finishDrain => exact finishDrain_same
    | grant admission =>
      refine ⟨rfl, ?_⟩
      have units : admission.units .connections = 0 := by
        cases admission with
        | connection => cases other
        | request | queued | upstream | buffered => rfl
      have object := GatewayLifecycle.Action.run_fst (.grant admission) run.store.lifecycle
      simp only [Lifetime.step, onLifecycle, Method.on, object]
      rcases admission.admit_cases run.store.lifecycle with ⟨_, returns, shifted, -⟩ |
        ⟨_, _, returns, -, shifted⟩
      · rw [returns]
        simpa [GatewayLifecycle.Gauge.read, units] using shifted.gauges .connections
      · rw [returns]
        simpa [GatewayLifecycle.Gauge.read] using shifted.gauges .connections
    | release admission =>
      refine ⟨rfl, ?_⟩
      have units : admission.units .connections = 0 := by
        cases admission with
        | connection => cases other
        | request | queued | upstream | buffered => rfl
      have object := GatewayLifecycle.Action.run_fst (.release admission) run.store.lifecycle
      simp only [Lifetime.step, onLifecycle, Method.on, object]
      rcases admission.release_cases run.store.lifecycle with ⟨_, returns, shifted⟩ | ⟨_, returns⟩
      · rw [returns]
        simpa [GatewayLifecycle.Gauge.read, units] using shifted.gauges .connections
      · rw [returns]
    | start | started | beginDrain | fail =>
      exact ⟨rfl, congrFun (turned (by simp) (by simp)).1.metrics .connectionsActive⟩
  | finishDrain force =>
    cases force with
    | true => cases other
    | false => exact finishDrain_same
  | acquireGeneration => cases other
  | retain => cases other
  | release => cases other
  | attachResource generation resource =>
    simp only [Lifetime.step, attachCheck]
    split
    · cases run.store.generations[generation]? with
      | none => exact ⟨rfl, rfl⟩
      | some found => cases attachable : found.attachable <;> simp [attachable, Lifetime.goes]
    · exact ⟨rfl, rfl⟩
  | publish config resources =>
    have lifecycle := publishStart_same run.store
    simp only [Lifetime.step]
    split
    · rename_i returns
      rw [returns] at lifecycle
      exact ⟨rfl, congrArg (fun lifecycle => lifecycle.metrics .connectionsActive) lifecycle⟩
    · rename_i returns
      rw [returns] at lifecycle
      exact ⟨rfl, congrArg (fun lifecycle => lifecycle.metrics .connectionsActive) lifecycle⟩
  | collectRetired => exact ⟨rfl, rfl⟩
  | proceed place =>
    simp only [Lifetime.step]
    split
    · exact ⟨rfl, rfl⟩
    · rename_i call _
      obtain ⟨holders, lifecycle⟩ := @proceed_same { run with calls := run.calls.eraseIdx place } call
      exact ⟨holders, by rw [lifecycle]⟩

/-- An action of the lifecycle retires nothing. -/
theorem lifecycle_retired (action : GatewayLifecycle.Action) :
    (run.step (.lifecycle action)).store.generations = run.store.generations := by
  cases action with
  | finishDrain =>
    simp only [Lifetime.step, Lifetime.finishDrain, Generations.finishDrain, onLifecycle, Method.on,
      Method.bind_run, GatewayLifecycle.finishDrain_run]
    by_cases draining : run.store.lifecycle.state ≠ .draining
    · simp [draining]
    · by_cases active : run.store.lifecycle.metrics .connectionsActive + run.store.lifecycle.metrics
        .requestsActive ≠ 0
      · simp [draining, active]
      · simp [draining, active, Lifetime.goes]
  | start | started | grant | release | beginDrain | fail => rfl

end Others

/-- A call that begins has nothing yet. -/
theorem acceptOnce_begins (server : GatewayServer) (listenerFd : Int)
    (accepted : Option (SocketOutcome × Int)) :
    ∃ call : Accept, server.acceptOnce listenerFd accepted =
      { server with calls := server.calls ++ [call] } ∧
      Fits call false false ∧ call.shares = (false, none, none) := by
  unfold GatewayServer.acceptOnce
  dsimp only
  generalize (if listenerFd < 0 then server.listenerFd else listenerFd) = listener
  split
  · exact ⟨_, rfl, .unaccepted (by simp), rfl⟩
  · split
    · exact ⟨_, rfl, .unaccepted (by simp), rfl⟩
    · split
      · exact ⟨_, rfl, .unaccepted (by simp), rfl⟩
      · split
        · exact ⟨_, rfl, .unaccepted (by simp), rfl⟩
        · rename_i real
          simp only [not_or, Int.not_lt] at real
          exact ⟨_, rfl, .accepted real.2 (.inl rfl), rfl⟩

/-- A connection may be taken out of its owners. -/
theorem Fits.disown {call : Accept} {listed owned less : Bool} (fits : Fits call listed owned)
    (fewer : less = true → owned = true) :
    Fits call listed less := by
  cases less with
  | true =>
    obtain rfl := fewer rfl
    exact fits
  | false =>
    have before := fits
    cases fits with
    | serving real shut at_ => exact .serving real shut (at_.imp_left fun at_ => ⟨at_.1, rfl⟩)
    | _ => exact before

namespace Balanced
variable {server : GatewayServer} (balanced : Balanced server)
include balanced

theorem lifetime {action : Generations.Action} (other : exclusive action = false) :
    Balanced { server with lifetime := server.lifetime.step action } := by
  obtain ⟨holders, active⟩ := @step_same server.lifetime action other
  have sums := balanced.sums
  refine ⟨⟨sums.kept.step action, active.trans sums.active, fun id => ?_, sums.tls, sums.ranged⟩,
    balanced.fits, balanced.ranged, balanced.nodup⟩
  rw [holders]
  exact sums.holders id

theorem replaceTls {id : Nat} {old new : TlsGeneration} (is : server.tlsGenerations[id]? = some old)
    (same : new.references - new.others = old.references - old.others)
    (destroyed : new.destroyed = true ↔ new.references = 0) :
    Balanced { server with tlsGenerations := server.tlsGenerations.set id new } := by
  have sums := balanced.sums
  refine ⟨⟨sums.kept, sums.active, sums.holders, fun other found is' => ?_, ?_⟩, balanced.fits,
    balanced.ranged, balanced.nodup⟩
  · rw [Counting.set_at is] at is'
    split at is'
    · rename_i mine
      subst mine
      cases is'
      have before := (sums.tls id old is).1
      exact ⟨by simp only; omega, destroyed⟩
    · exact sums.tls other found is'
  · rw [List.length_set]
    exact sums.ranged

theorem tlsStep (action : TlsAction) : Balanced (server.tlsStep action) := by
  have sums := balanced.sums
  cases action with
  | publish foreign =>
    refine ⟨⟨sums.kept, sums.active, sums.holders, fun id generation is => ?_,
      fun call member id has => ?_⟩, balanced.fits, balanced.ranged, balanced.nodup⟩
    · rcases Counting.concat_at.mp is with old | ⟨rfl, rfl⟩
      · exact sums.tls id generation old
      · have none_ : server.calls.countP
            (fun call => decide (call.channel = some server.tlsGenerations.length)) = 0 := by
          refine List.countP_eq_zero.mpr fun call member => ?_
          intro has
          exact Nat.lt_irrefl _ (sums.ranged call member _ (of_decide_eq_true has))
        simp [GatewayServer.tlsStep, none_]
    · simp only [GatewayServer.tlsStep, List.length_append]
      exact Nat.lt_add_right _ (sums.ranged call member id has)
  | retain tls =>
    simp only [GatewayServer.tlsStep]
    split
    · rename_i generation retained
      obtain ⟨old, is, retains⟩ := Option.bind_eq_some_iff.mp retained
      simp only [TlsGeneration.retain] at retains
      split at retains
      · cases retains
      · rename_i live
        cases retains
        obtain ⟨references, destroyed⟩ := sums.tls tls old is
        refine balanced.replaceTls is ?_ ?_
        · simp only
          omega
        · simp only [not_or, Int.not_le, Bool.not_eq_true] at live
          simp only [live.2, Bool.false_eq_true, false_iff]
          omega
    · exact balanced
  | release tls =>
    simp only [GatewayServer.tlsStep]
    split
    · exact balanced
    · rename_i old is
      split
      · rename_i less others released has
        simp only [TlsGeneration.release] at released
        split at released
        · cases released
        · cases released
          refine balanced.replaceTls is ?_ ?_
          · simp only
            omega
          · exact decide_eq_true_iff
      · exact balanced
  | close =>
    exact ⟨⟨sums.kept, sums.active, sums.holders, sums.tls, sums.ranged⟩, balanced.fits,
      balanced.ranged, balanced.nodup⟩

theorem acceptOnce (listenerFd : Int) (accepted : Option (SocketOutcome × Int)) :
    Balanced (server.acceptOnce listenerFd accepted) := by
  have sums := balanced.sums
  obtain ⟨call, begun, fits, shares⟩ := acceptOnce_begins server listenerFd accepted
  obtain ⟨admission, reference, channel⟩ : call.admission = false ∧ call.reference = none ∧
      call.channel = none := by
    simpa [Accept.shares] using shares
  have fresh (place : Nat) (member : place ∈ server.connections ∨ place ∈ server.connectionOwners) :
      place ≠ server.calls.length :=
    Nat.ne_of_lt (balanced.ranged place member)
  rw [begun]
  refine ⟨⟨sums.kept, ?_, fun id => ?_, fun id generation is => ?_, fun other member id has => ?_⟩,
    fun place other is => ?_, fun place member => ?_, balanced.nodup⟩
  · simpa [admission] using sums.active
  · simpa [reference] using sums.holders id
  · simpa [channel] using sums.tls id generation is
  · rcases List.mem_append.mp member with old | new
    · exact sums.ranged other old id has
    · rw [List.mem_singleton.mp new, channel] at has
      cases has
  · rcases Counting.concat_at.mp is with old | ⟨rfl, rfl⟩
    · exact balanced.fits place other old
    · rw [decide_eq_false fun member => fresh _ (.inl member) rfl, decide_eq_false fun member =>
        fresh _ (.inr member) rfl]
      exact fits
  · rw [List.length_append]
    exact Nat.lt_add_right _ (balanced.ranged place member)

theorem reap (place : Nat) :
    Balanced { server with connectionOwners := server.connectionOwners.erase place } := by
  have sums := balanced.sums
  refine ⟨⟨sums.kept, sums.active, sums.holders, sums.tls, sums.ranged⟩, fun other call found => ?_,
    fun other member => ?_, balanced.nodup⟩
  · refine (balanced.fits other call found).disown fun owned => ?_
    exact decide_eq_true (List.mem_of_mem_erase (of_decide_eq_true owned))
  · exact balanced.ranged other (member.imp_right List.mem_of_mem_erase)

theorem step (action : Action) (orderly : server.orderly action = true) :
    Balanced (server.step action) := by
  cases action with
  | acceptOnce listenerFd accepted => exact balanced.acceptOnce listenerFd accepted
  | proceed place answer =>
    simp only [GatewayServer.step]
    split
    · exact balanced
    · rename_i call found
      obtain ⟨new, moves⟩ := proceed_moves balanced found answer
      exact balanced.moves found moves
  | close place =>
    simp only [GatewayServer.step]
    split
    · exact balanced
    · rename_i call found
      split
      · rename_i started
        have late : call.unclosed = false := by simpa [GatewayServer.orderly, found] using orderly
        obtain ⟨new, moves⟩ := close_moves balanced found started.1 started.2 late
        exact balanced.moves found moves
      · exact balanced
  | finish place =>
    simp only [GatewayServer.step]
    split
    · exact balanced
    · rename_i call found
      split
      · rename_i started
        have late : call.unremoved = false := by simpa [GatewayServer.orderly, found] using orderly
        obtain ⟨new, moves, -⟩ := finish_moves balanced found started late
        exact balanced.moves found moves
      · exact balanced
  | settle place =>
    simp only [GatewayServer.step]
    split
    · exact balanced
    · rename_i call found
      obtain ⟨new, moves, -⟩ := settle_moves balanced found
      exact balanced.moves found moves
  | reap place => exact balanced.reap place
  | lifetime action =>
    simp only [GatewayServer.step]
    split
    · exact balanced
    · rename_i other
      exact balanced.lifetime (by simpa using other)
  | tls action => exact balanced.tlsStep action

end Balanced

theorem init_balanced (config : Nat) (limits : AdmissionLimits) (listenerFd : Int)
    (lazyResolver nativeDns tlsManager : Bool) :
    Balanced (.init config limits listenerFd lazyResolver nativeDns tlsManager) := by
  refine ⟨⟨Lifetime.init_kept config limits, rfl, fun id => rfl, fun id generation is => ?_, ?_⟩,
    fun place call is => ?_, ?_, List.nodup_nil⟩
  · simp [GatewayServer.init] at is
  · simp [GatewayServer.init]
  · simp [GatewayServer.init] at is
  · simp [GatewayServer.init]

section Read
variable {call : Accept} {listed owned : Bool} (fits : Fits call listed owned)
include fits

/-- A call that ended and did not return 1 has left nothing. -/
theorem Fits.ended {returned : Option Int} (at_ : call.point = .ended returned) (no : returned ≠ some 1) :
    call.shares = (false, none, none) ∧ listed = false ∧ owned = false ∧ call.closes = if 0 ≤
      call.fd then 1 else 0 := by
  cases fits with
  | unaccepted => exact ⟨rfl, rfl, rfl, rfl⟩
  | refused real | unwound real | failed real => exact ⟨rfl, rfl, rfl, (if_pos real).symm⟩
  | serving real shut is =>
    rcases is with ⟨rfl, -⟩ | rfl
    · cases at_
    · cases at_
      exact absurd rfl no
  | accepted real is | acquired real is => rcases is with rfl | rfl <;> cases at_
  | channelled real is => rcases is with rfl | rfl | rfl | rfl <;> cases at_
  | _ => cases at_

/-- A connection that was accepted has what `_connection_finished` has not released. -/
theorem Fits.accepted_one (at_ : call.point = .ended (some 1)) :
    call.started = true ∧ listed = decide (call.finishing = .pending) ∧ call.admission =
      call.finishing.admits ∧
      call.generation.isSome = true ∧ call.reference =
        (if call.finishing.refers then call.generation else none) ∧
      call.generationReleases = (if call.finishing.refers then 0 else 1) ∧
      call.connectionReleases = if call.finishing.admits then 0 else 1 := by
  cases fits with
  | serving => exact ⟨rfl, rfl, rfl, rfl, rfl, rfl, rfl⟩
  | unaccepted no | refused real no =>
    cases at_
    exact absurd rfl no
  | accepted real is | acquired real is => rcases is with rfl | rfl <;> cases at_
  | channelled real is => rcases is with rfl | rfl | rfl | rfl <;> cases at_
  | _ => cases at_

end Read

/-- A step of the call at `place`, or of the lifecycle: a drain, a failure, admissions of requests and
bytes. -/
def Action.alone (place : Nat) : Action → Bool
  | .proceed other _ => decide (other = place)
  | .lifetime (.lifecycle _) => true
  | _ => false

/-- The server before the last call began, and while it was under way. -/
structure Beside (before after : GatewayServer) : Prop where
  calls : ∃ call, after.calls = before.calls ++ [call]
  connections : after.connections.filter (fun other => decide (other ≠ before.calls.length)) =
    before.connections
  owners : after.connectionOwners.filter (fun other => decide (other ≠ before.calls.length)) =
    before.connectionOwners
  retired : after.lifetime.store.generations.map (fun generation => generation.retired) =
    before.lifetime.store.generations.map fun generation => generation.retired
  others : after.tlsGenerations.map (fun generation => generation.others) =
    before.tlsGenerations.map fun generation => generation.others

section Alone
variable {before after : GatewayServer}

theorem Beside.acceptOnce (balanced : Balanced before) (listenerFd : Int)
    (accepted : Option (SocketOutcome × Int)) :
    Beside before (before.acceptOnce listenerFd accepted) := by
  obtain ⟨call, begun, -⟩ := acceptOnce_begins before listenerFd accepted
  rw [begun]
  refine ⟨⟨call, rfl⟩, ?_, ?_, rfl, rfl⟩
  · refine List.filter_eq_self.mpr fun other member => decide_eq_true ?_
    exact Nat.ne_of_lt (balanced.ranged other (.inl member))
  · refine List.filter_eq_self.mpr fun other member => decide_eq_true ?_
    exact Nat.ne_of_lt (balanced.ranged other (.inr member))

theorem Beside.step (beside : Beside before after) (balanced : Balanced after) {action : Action}
    (alone : action.alone before.calls.length = true) : Beside before (after.step action) := by
  obtain ⟨call, calls⟩ := beside.calls
  cases action with
  | proceed place answer =>
    obtain rfl : place = before.calls.length := of_decide_eq_true alone
    have found : after.calls[before.calls.length]? = some call := by simp [calls]
    simp only [GatewayServer.step, found]
    obtain ⟨new, moves⟩ := proceed_moves balanced found answer
    refine ⟨⟨new, ?_⟩, moves.connections.trans beside.connections, moves.owners.trans beside.owners,
      moves.retired.trans beside.retired, moves.others.trans beside.others⟩
    rw [moves.calls, calls]
    simp
  | lifetime action =>
    cases action with
    | lifecycle action =>
      simp only [GatewayServer.step]
      split
      · exact beside
      · have retired := congrArg (List.map fun generation : GatewayGeneration => generation.retired)
          (@lifecycle_retired after.lifetime action)
        exact ⟨beside.calls, beside.connections, beside.owners, retired.trans beside.retired, beside.others⟩
    | _ => cases alone
  | _ => cases alone

/-- The call and the lifecycle close and finish nothing. -/
theorem orderly_of_alone {server : GatewayServer} {place : Nat} {action : Action}
    (alone : action.alone place = true) :
    server.orderly action = true := by
  cases action with
  | proceed | lifetime => rfl
  | _ => cases alone

theorem Beside.run (actions : List Action)
    (alone : ∀ action ∈ actions, action.alone before.calls.length = true)
    (beside : Beside before after) (balanced : Balanced after) :
    Beside before (actions.foldl GatewayServer.step after) ∧
    Balanced (actions.foldl GatewayServer.step after) := by
  induction actions generalizing after with
  | nil => exact ⟨beside, balanced⟩
  | cons action rest ih =>
    have first := beside.step balanced (alone action List.mem_cons_self)
    have next := balanced.step action (orderly_of_alone (alone action List.mem_cons_self))
    exact ih (fun other member => alone other (List.mem_cons_of_mem _ member)) first next

/-- When the call has ended and did not return 1, everything is as it was. -/
theorem Beside.restored (beside : Beside before after) (first : Balanced before)
    (last : Balanced after) {call : Accept}
    {returned : Option Int} (found : after.calls[before.calls.length]? = some call)
    (at_ : call.point = .ended returned) (no : returned ≠ some 1) :
    after.connections = before.connections ∧ after.connectionOwners = before.connectionOwners ∧
      after.lifetime.store.lifecycle.metrics .connectionsActive =
        before.lifetime.store.lifecycle.metrics .connectionsActive ∧
      after.lifetime.store.generations.map (fun generation => generation.references) =
        before.lifetime.store.generations.map (fun generation => generation.references) ∧
      after.tlsGenerations.map (fun generation => generation.references) =
        before.tlsGenerations.map fun generation => generation.references := by
  obtain ⟨shares, unlisted, unowned, -⟩ := (last.fits _ call found).ended at_ no
  obtain ⟨admission, reference, channel⟩ : call.admission = false ∧ call.reference = none ∧
      call.channel = none := by
    simpa [Accept.shares] using shares
  obtain ⟨same, calls⟩ := beside.calls
  obtain rfl : same = call := by simpa [calls] using found
  refine ⟨?_, ?_, ?_, List.ext_getElem? fun id => ?_, List.ext_getElem? fun id => ?_⟩
  · rw [← beside.connections]
    refine (List.filter_eq_self.mpr fun other member => decide_eq_true ?_).symm
    rintro rfl
    exact of_decide_eq_false unlisted member
  · rw [← beside.owners]
    refine (List.filter_eq_self.mpr fun other member => decide_eq_true ?_).symm
    rintro rfl
    exact of_decide_eq_false unowned member
  · rw [last.sums.active, first.sums.active, calls]
    simp [admission]
  · have flags := congrArg (fun flags => flags[id]?) beside.retired
    have holders : after.lifetime.holders.count id = before.lifetime.holders.count id := by
      rw [last.sums.holders, first.sums.holders, calls]
      simp [reference]
    simp only [List.getElem?_map] at flags ⊢
    cases is : after.lifetime.store.generations[id]? with
    | none =>
      rw [is] at flags
      rw [Option.map_eq_none_iff.mp flags.symm]
    | some generation =>
      obtain ⟨old, was, retired⟩ := Option.map_eq_some_iff.mp ((congrArg _ is).symm.trans flags).symm
      have now := (last.sums.kept.referenced id generation is).references
      have then_ := (first.sums.kept.referenced id old was).references
      rw [was, Option.map_some, Option.map_some, now, then_, holders, retired]
  · have same := congrArg (fun others => others[id]?) beside.others
    have count : after.calls.countP (fun call => decide (call.channel = some id)) =
        before.calls.countP fun call => decide (call.channel = some id) := by
      rw [calls]
      simp [channel]
    simp only [List.getElem?_map] at same ⊢
    cases is : after.tlsGenerations[id]? with
    | none =>
      rw [is] at same
      rw [Option.map_eq_none_iff.mp same.symm]
    | some generation =>
      obtain ⟨old, was, others⟩ := Option.map_eq_some_iff.mp ((congrArg _ is).symm.trans same).symm
      rw [was, Option.map_some, Option.map_some, (last.sums.tls id generation is).1,
        (first.sums.tls id old was).1, count, others]

end Alone

section Finish
variable {server : GatewayServer} {place : Nat} {call : Accept} (balanced : Balanced server)
  (found : server.calls[place]? = some call)
include balanced found

theorem settle_next : ∃ call', (server.step (.settle place)).calls[place]? = some call' ∧
    call'.finishing = call.finishing.next := by
  obtain ⟨new, moves, next⟩ := settle_moves balanced found
  refine ⟨new, ?_, next⟩
  simp only [GatewayServer.step, found, moves.calls, Counting.set_at found, if_true]

/-- `_connection_finished`, called for a connection that is in the list, runs to its end. -/
theorem finish_settles (started : call.started = true) (late : call.unremoved = false)
    (member : place ∈ server.connections) :
    ∃ call', ([.finish place, .settle place, .settle place, .settle place].foldl GatewayServer.step
      server).calls[place]? = some call' ∧ call'.finishing = .finished := by
  obtain ⟨first, moves, begun⟩ := finish_moves balanced found started late
  have at_ : (server.step (.finish place)).calls[place]? = some first := by
    simp only [GatewayServer.step, found, started, if_true, moves.calls, Counting.set_at found]
  have balanced₁ := balanced.step (.finish place) (by simp [GatewayServer.orderly, found, late])
  have balanced₂ := balanced₁.step (.settle place) rfl
  have balanced₃ := balanced₂.step (.settle place) rfl
  obtain ⟨second, at₂, next₂⟩ := settle_next balanced₁ at_
  obtain ⟨third, at₃, next₃⟩ := settle_next balanced₂ at₂
  obtain ⟨last, at₄, next₄⟩ := settle_next balanced₃ at₃
  refine ⟨last, at₄, ?_⟩
  rw [next₄, next₃, next₂, begun member]
  rfl

end Finish

/-- However many calls of `accept_once` are under way, wherever they fail and whatever the gateway
does between their sections: the counters are what is outstanding for the calls, and what the
publishers of the generations have. A call that has ended without returning 1 has nothing outstanding,
its connection is in no ledger and its descriptor, if there was one, was passed to `transport.close`
once; if only the lifecycle changed meanwhile, the counters and the ledgers are as before the call.
One that has returned 1 has its admission and its reference until `_connection_finished` runs, which
releases each of them once; called again it does nothing.

`spawn_connection` may raise although it has started the thread. What is assumed then is that the
thread comes late: it closes the connection only after the rollback has begun to, and calls
`_connection_finished` only after the rollback has taken the connection out of the list. Nothing is
assumed about the order of anything else, nor about what raises. -/
theorem accept_atomic (config : Nat) (limits : AdmissionLimits) (listenerFd : Int)
    (lazyResolver nativeDns tlsManager : Bool) (actions : List Action)
    (orderly : Interleaving.Along GatewayServer.step (fun server action =>
      server.orderly action = true) actions
      (.init config limits listenerFd lazyResolver nativeDns tlsManager)) :
    let server := actions.foldl GatewayServer.step
      (.init config limits listenerFd lazyResolver nativeDns tlsManager)
    server.lifetime.store.lifecycle.metrics .connectionsActive = (server.calls.countP fun call =>
      call.admission) ∧
    (∀ (id : Nat) (generation : GatewayGeneration), server.lifetime.store.generations[id]? =
      some generation → generation.references =
        (if generation.retired then 0 else 1) + server.calls.countP fun call =>
          decide (call.reference = some id)) ∧
    (∀ (id : Nat) (generation : TlsGeneration), server.tlsGenerations[id]? = some generation →
      generation.references = generation.others + server.calls.countP fun call =>
        decide (call.channel = some id)) ∧
    (∀ place call returned, server.calls[place]? = some call → call.point = .ended returned →
      returned ≠ some 1 →
      call.shares = (false, none, none) ∧ place ∉ server.connections ∧ place ∉ server.connectionOwners ∧
        call.closes = if 0 ≤ call.fd then 1 else 0) ∧
    (∀ listener accepted, ∀ more : List Action, (∀ action ∈ more, action.alone server.calls.length = true) →
      let after := more.foldl GatewayServer.step (server.step (.acceptOnce listener accepted))
      ∀ call returned, after.calls[server.calls.length]? = some call → call.point = .ended returned →
      returned ≠ some 1 →
        after.connections = server.connections ∧ after.connectionOwners = server.connectionOwners ∧
        after.lifetime.store.lifecycle.metrics .connectionsActive =
          server.lifetime.store.lifecycle.metrics .connectionsActive ∧
        after.lifetime.store.generations.map (fun generation => generation.references) =
          server.lifetime.store.generations.map (fun generation => generation.references) ∧
        after.tlsGenerations.map (fun generation => generation.references) =
          server.tlsGenerations.map fun generation => generation.references) ∧
    (∀ place call, server.calls[place]? = some call → call.point = .ended (some 1) →
      (place ∈ server.connections ↔ call.finishing = .pending) ∧
      (call.finishing = .pending → call.admission = true ∧ call.generation.isSome = true ∧
        call.reference = call.generation ∧
        ∃ call', ([.finish place, .settle place, .settle place, .settle place].foldl
          GatewayServer.step server).calls[place]? = some call' ∧ call'.finishing = .finished) ∧
      (call.finishing = .finished → call.admission = false ∧ call.reference = none ∧
        call.generationReleases = 1 ∧ call.connectionReleases = 1) ∧
      call.generationReleases ≤ 1 ∧ call.connectionReleases ≤ 1) ∧
    ∀ place, place ∉ server.connections → server.step (.finish place) = server := by
  intro server
  have balanced : Balanced server :=
    Interleaving.invariant_along (fun _ action orderly balanced => balanced.step action orderly) orderly
      (init_balanced config limits listenerFd lazyResolver nativeDns tlsManager)
  have sums := balanced.sums
  refine ⟨sums.active, fun id generation is => ?_, fun id generation is => (sums.tls id generation is).1,
    fun place call returned found at_ no => ?_, fun listener accepted more alone => ?_,
    fun place call found at_ => ?_, fun place absent => ?_⟩
  · rw [(sums.kept.referenced id generation is).references, sums.holders]
  · obtain ⟨shares, unlisted, unowned, closes⟩ := (balanced.fits place call found).ended at_ no
    exact ⟨shares, of_decide_eq_false unlisted, of_decide_eq_false unowned, closes⟩
  · intro after call returned found at_ no
    have begun : Beside server (server.step (.acceptOnce listener accepted)) :=
      .acceptOnce balanced listener accepted
    obtain ⟨beside, last⟩ := begun.run more alone (balanced.step _ rfl)
    exact beside.restored balanced last found at_ no
  · obtain ⟨started, listed, admission, generation, reference, generationReleases, connectionReleases⟩ :=
      (balanced.fits place call found).accepted_one at_
    have among : place ∈ server.connections ↔ call.finishing = .pending := decide_eq_decide.mp listed
    refine ⟨among, fun pending => ?_, fun finished => ?_, ?_, ?_⟩
    · rw [pending] at admission reference
      have late : call.unremoved = false := by simp [Accept.unremoved, at_]
      exact ⟨admission, generation, reference,
        finish_settles balanced found started late (among.mpr pending)⟩
    · rw [finished] at admission reference generationReleases connectionReleases
      exact ⟨admission, reference, generationReleases, connectionReleases⟩
    · rw [generationReleases]
      split <;> decide
    · rw [connectionReleases]
      split <;> decide
  · simp only [GatewayServer.step]
    split
    · rfl
    · simp only [GatewayServer.connectionFinished, if_neg absent, ite_self]

/-- A server that runs accepts a descriptor, and the call comes to its spawn. -/
def opened : List Action :=
  [.lifetime (.lifecycle .start), .lifetime (.lifecycle .started), .acceptOnce 3 (some (.progress, 7)),
    .proceed 0 {}, .proceed 0 {}, .proceed 0 {}, .proceed 0 {}, .proceed 0 {}]

/-- The thread was started although the spawn raised, and comes late. -/
theorem accept_atomic_late_thread :
    let actions := opened ++ [.proceed 0 { raises := true, spawned := true }, .proceed 0 {},
      .finish 0, .proceed 0 {}, .close 0,
      .proceed 0 {}, .proceed 0 {}, .proceed 0 {}, .proceed 0 {}, .proceed 0 {}]
    let server := actions.foldl GatewayServer.step (.init 0 {} 3 false false false)
    server.lifetime.store.lifecycle.metrics .connectionsActive = server.calls.countP fun call =>
      call.admission :=
  (accept_atomic 0 {} 3 false false false _ (by decide)).1

/-- The second of two connections: its thread is started by a `spawn_connection` that then raises, and
is done when the rollback begins. The rollback releases the generation and the admission again, which
are those of the first connection. -/
theorem accept_released_twice :
    let first : List Action := opened ++ [.proceed 0 {}, .proceed 0 {}]
    let before := first.foldl GatewayServer.step (.init 0 {} 3 false false false)
    let actions : List Action := [.acceptOnce 3 (some (.progress, 8)), .proceed 1 {}, .proceed 1 {},
      .proceed 1 {}, .proceed 1 {},
      .proceed 1 {}, .proceed 1 { raises := true, spawned := true }, .close 1, .close 1, .close 1,
      .close 1, .finish 1, .settle 1,
      .settle 1, .settle 1, .proceed 1 {}, .proceed 1 {}, .proceed 1 {}, .proceed 1 {}]
    let after := actions.foldl GatewayServer.step before
    (before.calls.map (fun call => call.point) = [.ended (some 1)] ∧
      before.lifetime.store.lifecycle.metrics .connectionsActive = 1 ∧
      before.lifetime.store.generations.map (fun generation => generation.references) = [2]) ∧
    after.calls.map (fun call => call.point) = [.ended (some 1), .ended none] ∧
    after.calls.map (fun call => (call.generationReleases, call.connectionReleases)) = [(0, 0), (2, 2)] ∧
    after.lifetime.store.lifecycle.metrics .connectionsActive = 0 ∧
    after.lifetime.store.generations.map (fun generation => generation.references) = [1] := by
  decide

/-- A drain begins between the admission and the generation: the descriptor is closed and nothing is
left. -/
example :
    let server := [.lifetime (.lifecycle .start), .lifetime (.lifecycle .started),
      .acceptOnce 3 (some (.progress, 7)), .proceed 0 {},
      .lifetime (.lifecycle .beginDrain), .proceed 0 {}, .proceed 0 {}, .proceed 0 {}, .proceed 0 {},
      .proceed 0 {}].foldl
        GatewayServer.step (.init 0 {} 3 false false false)
    server.calls.map (fun call => (call.point, call.closes)) = [(.ended none, 1)] ∧
      server.lifetime.store.lifecycle.metrics .connectionsActive = 0 := by
  decide

end Accepting
end PccGateway
