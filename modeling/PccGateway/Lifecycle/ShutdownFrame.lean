import PccGateway.Lifecycle.Shutdown

namespace PccGateway
namespace Shutdown
open Method (get modify Evolves Ends Keeps Fixes)
open Thread (attempt when settle)

/-- What the server sees while it waits for its owners moves it along `R`. -/
structure Waits (R : GatewayServer → GatewayServer → Prop) : Prop where
  lands : ∀ server answer rest, server.answers = answer :: rest →
    R server (answer.landed.foldl land { server with answers := rest })
  lifecycle : ∀ server lifecycle, R server { server with store := { server.store with lifecycle } }
  seesAccept : ∀ server, R server { server with alive := false }
  seesConnection : ∀ server connection, R server { server with observed := connection :: server.observed }
  forgets : ∀ server connection, connection ∈ server.observed → R server (forget server connection)

namespace Waits
variable {R : GatewayServer → GatewayServer → Prop} [IsPreorder GatewayServer R] (waits : Waits R)
include waits

theorem external : Evolves R external := by
  intro server
  unfold Shutdown.external
  split
  · exact refl_of R server
  · rename_i answer rest found
    exact waits.lands server answer rest found

theorem locked : Evolves R locked := by
  intro server
  unfold Shutdown.locked
  split
  · exact refl_of R server
  · rename_i answer rest found
    exact waits.lands server answer rest found

omit [IsPreorder GatewayServer R] in
theorem onLifecycle {α : Type} (section_ : GatewayLifecycle.Call α) :
    Evolves R (onStore (Generations.onLifecycle section_)) :=
  .call fun server => waits.lifecycle server (section_ server.store.lifecycle).1

theorem ignore : Evolves R (do let _ ← Shutdown.external; return ()) :=
  .bind waits.external fun _ => .pure ()

theorem nowMs : Evolves R nowMs := .bind waits.external fun _ => .pure _

theorem acceptOutcome : Evolves R acceptOutcome := by
  refine .bind waits.external fun answer => .bind (.modify fun server => ?_) fun _ => .pure _
  cases answer.outcome.terminal with
  | true =>
    simp only [Bool.not_true, Bool.and_false]
    exact waits.seesAccept server
  | false =>
    simp only [Bool.not_false, Bool.and_true]
    exact refl_of R server

theorem connectionOutcome (connection : Nat) : Evolves R (connectionOutcome connection) := by
  refine .bind waits.external fun answer => .bind (.modify fun server => ?_) fun _ => .pure _
  cases answer.outcome.terminal with
  | true => exact waits.seesConnection server connection
  | false => exact refl_of R server

theorem connectionSnapshot :
    Evolves R connectionSnapshot := .bind waits.locked fun _ => .bind .get fun _ => .pure _

theorem connectionOwnerSnapshot :
    Evolves R connectionOwnerSnapshot := .bind waits.locked fun _ => .bind .get fun _ => .pure _

omit [IsPreorder GatewayServer R] in
theorem fail (reason : String) : Evolves R (fail reason) := waits.onLifecycle _

theorem acceptFailure (failure : Option (Exn × String)) : Evolves R (acceptFailure failure) := by
  cases failure with
  | none => exact .pure none
  | some failure => exact .bind .get fun _ => .bind (.when (waits.fail _)) fun _ => .pure _

theorem observeAccept (deadline : Int) (fuel : Nat) : Evolves R (observeAccept deadline fuel) := by
  refine .loop (fun _ => .bind (.attempt waits.acceptOutcome) fun outcome => ?_) fuel ()
  match outcome with
  | .error error => exact .pure _
  | .ok outcome =>
    refine .ite (.pure _) (.bind (.attempt waits.nowMs) fun now => ?_)
    match now with
    | .error error => exact .pure _
    | .ok now =>
      refine .ite (.pure _) (.bind (.attempt waits.external) fun waited => ?_)
      cases waited <;> exact .pure _

/-- `_stop_accept_owner`, for what does not depend on the handle of the accept owner. -/
theorem stopAcceptOwner (retires : ∀ server, R server { server with acceptThread := none }) :
    Evolves R stopAcceptOwner := by
  have retireAccept (outcome : Outcome) : Evolves R (retireAccept outcome) := by
    have forget : Evolves R (modify fun server => { server with acceptThread := none } : Call Unit) :=
      .modify retires
    cases outcome with
    | pending => exact .pure none
    | cancelled => exact .bind forget fun _ => .pure none
    | unknown value => exact .bind forget fun _ => .pure _
    | returned =>
      exact .bind forget fun _ => .bind (.attempt waits.external) fun result => by
        cases result <;> exact .pure _
    | raised =>
      exact .bind forget fun _ => .bind (.attempt waits.external) fun result => by
        cases result <;> exact .pure _
  refine .bind .get fun server => ?_
  cases server.acceptThread with
  | none => exact .pure none
  | some _ =>
    refine .bind (.attempt waits.external) fun cancelled => .bind (.attempt waits.nowMs) fun now => ?_
    cases now with
    | error error => exact waits.acceptFailure _
    | ok now =>
      refine .bind (.bind .get fun _ => .pure _) fun fuel =>
        .bind (waits.observeAccept _ fuel) fun observed => ?_
      exact .bind (retireAccept observed.1) fun _ => waits.acceptFailure _

theorem inspect (connection : Nat) : Evolves R (inspect connection) := by
  refine .bind .get fun server =>
    .ite (.pure _) (.bind (.attempt (waits.connectionOutcome connection)) fun outcome => ?_)
  match outcome with
  | .error error => exact .pure _
  | .ok (.unknown value) => exact .pure _
  | .ok .pending | .ok .returned | .ok .raised | .ok .cancelled => exact .pure _

theorem inspectAll (connections : List Nat) : Evolves R (inspectAll connections) := by
  induction connections with
  | nil => exact .pure _
  | cons connection rest ih => exact .bind (waits.inspect connection) fun _ => .bind ih fun _ => .pure _

theorem signalOwners (connections : List Nat) : Evolves R (signalOwners connections) := by
  induction connections with
  | nil => exact .pure 0
  | cons connection rest ih =>
    exact .bind .get fun _ => .ite ih (.bind (.attempt waits.external) fun _ => .bind ih fun _ => .pure _)

theorem forceCloseConnections : Evolves R forceCloseConnections :=
  .bind waits.connectionSnapshot fun connections => .bind (waits.signalOwners connections) fun _ =>
    .when (waits.onLifecycle _)

end Waits

/-- What lands, one event after another. -/
theorem landed_invariant {P : GatewayServer → Prop} {events : List Event}
    (each : ∀ event ∈ events, ∀ server, P server → P (land server event))
    {server : GatewayServer} (start : P server) : P (events.foldl land server) := by
  induction events generalizing server with
  | nil => exact start
  | cons event events ih =>
    exact ih (fun other member => each other (List.mem_cons_of_mem _ member))
      (each event List.mem_cons_self server start)

/-- No event says anything about what the server has seen. -/
theorem land_sight (server : GatewayServer) (event : Event) :
    (land server event).alive = server.alive ∧ (land server event).acceptThread = server.acceptThread ∧
    (land server event).observed = server.observed ∧ (land server event).answers = server.answers := by
  cases event with
  | accepts connection | owns connection thread =>
    simp only [land]
    split <;> exact ⟨rfl, rfl, rfl, rfl⟩
  | leaves connection | closes connection | counts metrics => exact ⟨rfl, rfl, rfl, rfl⟩
  | refers references =>
    simp only [land]
    split <;> exact ⟨rfl, rfl, rfl, rfl⟩

/-- The accept owner is still there after what lands, or is still not. -/
theorem landed_sight (server : GatewayServer) (events : List Event) :
    (events.foldl land server).alive = server.alive ∧ (events.foldl land server).acceptThread =
    server.acceptThread ∧
    (events.foldl land server).observed = server.observed ∧ (events.foldl land server).answers =
    server.answers := by
  refine @landed_invariant
    (fun after => after.alive = server.alive ∧ after.acceptThread = server.acceptThread ∧
    after.observed = server.observed ∧ after.answers =
      server.answers) events (fun event _ after same => ?_) server ⟨rfl, rfl, rfl, rfl⟩
  obtain ⟨alive, thread, observed, answers⟩ := land_sight after event
  exact ⟨alive.trans same.1, thread.trans same.2.1, observed.trans same.2.2.1, answers.trans same.2.2.2⟩

/-- The server sees more and more. -/
def Sees (before after : GatewayServer) : Prop := before.observed ⊆ after.observed

instance : IsPreorder GatewayServer Sees where
  refl := fun _ _ member => member
  trans := fun _ _ _ first second _ member => second (first member)

theorem forget_observed (server : GatewayServer) (connection : Nat) :
    (forget server connection).observed = server.observed := by
  unfold forget
  split <;> rfl

theorem Sees.waits : Waits Sees where
  lands := by
    intro server answer rest _ connection member
    rw [(landed_sight { server with answers := rest } answer.landed).2.2.1]
    exact member
  lifecycle := fun _ _ _ member => member
  seesAccept := fun _ _ member => member
  seesConnection := fun _ _ _ member => List.mem_cons_of_mem _ member
  forgets := fun server connection _ _ member => by rwa [forget_observed]

/-- A connection that is found to be terminal has been seen. -/
theorem inspect_seen (connection : Nat) (server : GatewayServer) :
    Ends (inspect connection) server (fun found after => found.1 = true → connection ∈ after.observed)
      (fun _ _ => True) := by
  unfold inspect
  simp only [Method.ends_bind, Method.ends_get]
  refine .ite (fun _ => by simp) fun _ => ?_
  simp only [Method.ends_bind, Thread.ends_attempt, connectionOutcome, Method.ends_modify, Method.ends_pure]
  refine (Sees.waits.external.ends).mono (fun answer after _ => ?_) fun halt after _ => ?_
  · cases answer.outcome with
    | pending => rintro ⟨⟩
    | unknown value => simp
    | returned | raised | cancelled => exact fun _ => List.mem_cons_self
  · cases halt with
    | raised error => simp
    | parked => trivial
    | unfinished => trivial

theorem inspectAll_seen (connections : List Nat) (server : GatewayServer) :
    Ends (inspectAll connections) server
      (fun found after => ∀ connection ∈ found.1, connection ∈ after.observed) (fun _ _ => True) := by
  induction connections generalizing server with
  | nil => exact nofun
  | cons connection rest ih =>
    unfold inspectAll
    simp only [Method.ends_bind, Method.ends_pure]
    refine (inspect_seen connection server).mono (fun found after seen => ?_) fun _ _ _ => trivial
    refine ((ih after).and (Sees.waits.inspectAll rest).ends).mono (fun others last both => ?_)
      fun _ _ _ => trivial
    intro other member
    split at member
    · rename_i terminal
      rcases List.mem_cons.mp member with rfl | later
      · exact both.2 (seen terminal)
      · exact both.1 other later
    · exact both.1 other member

namespace Waits
variable {R : GatewayServer → GatewayServer → Prop} [IsPreorder GatewayServer R] (waits : Waits R)
include waits

theorem forgetAll (terminal : List Nat) (server : GatewayServer)
    (seen : ∀ connection ∈ terminal, connection ∈ server.observed) :
    R server (terminal.foldl forget server) := by
  induction terminal generalizing server with
  | nil => exact refl_of R server
  | cons connection rest ih =>
    refine trans_of R (waits.forgets server connection (seen connection List.mem_cons_self))
      (ih _ fun other member => ?_)
    rw [forget_observed]
    exact seen other (List.mem_cons_of_mem _ member)

theorem reapConnectionOwners : Evolves R reapConnectionOwners := by
  refine .bind waits.connectionOwnerSnapshot fun owners => Method.evolves_iff.mpr fun server => ?_
  rw [Method.ends_bind]
  refine ((inspectAll_seen owners server).and (waits.inspectAll owners).ends).mono
    (fun found after both => ?_) fun _ _ both => both.2
  obtain ⟨seen, moved⟩ := both
  rw [Method.ends_bind]
  have rest : ∀ last, R server last → Ends (do
      let left ← Shutdown.connectionOwnerSnapshot; return (left.isEmpty, found.2)) last
      (fun _ => R server) (fun _ => R server) := fun last reached =>
    (Evolves.bind waits.connectionOwnerSnapshot fun _ => .pure _).ends.mono (fun _ _ moved =>
      trans_of R reached moved)
      fun _ _ moved => trans_of R reached moved
  refine Thread.ends_when (fun _ => ?_) fun _ => rest after moved
  rw [Method.ends_bind]
  refine (waits.locked.ends.and Sees.waits.locked.ends).mono (fun _ next both => ?_) fun _ _ both =>
    trans_of R moved both.1
  refine rest _ (trans_of R moved
    (trans_of R both.1 (waits.forgetAll found.1 next fun connection member => ?_)))
  exact both.2 (seen connection member)

theorem awaitConnectionOwners : Evolves R awaitConnectionOwners := by
  refine .bind .get fun server => .bind waits.nowMs fun _ =>
    .bind (.bind .get fun _ => .pure _) fun fuel => .loop (fun first => ?_) fuel none
  refine .bind waits.reapConnectionOwners fun _ => .bind waits.connectionSnapshot fun _ => .ite (.pure _) ?_
  exact .bind waits.nowMs fun _ => .ite (.pure _) (.bind waits.external fun _ => .pure _)

theorem waitForConnections : Evolves R waitForConnections :=
  .bind waits.connectionSnapshot fun _ => .bind (.when waits.forceCloseConnections) fun _ =>
    waits.awaitConnectionOwners

theorem reportConnections (first : Option Exn) (terminal : Bool) :
    Evolves R (reportConnections first terminal) := by
  cases terminal with
  | true => exact .pure _
  | false => exact .bind .get fun _ => .bind (.when (waits.fail _)) fun _ => .pure _

theorem settleOwners (stops : Evolves R Shutdown.stopAcceptOwner) : Evolves R settleOwners := by
  refine .bind .get fun server => .bind (.attempt (.when (waits.onLifecycle _))) fun drained =>
      .bind stops fun accept =>
    .bind (.attempt waits.waitForConnections) fun awaited => ?_
  cases awaited with
  | ok found => exact waits.reportConnections _ _
  | error error => exact waits.reportConnections _ _

end Waits
end Shutdown
end PccGateway
