import PccGateway.Lifecycle.ShutdownRun
import PccGateway.Control.Owner
import PccGateway.Lib.Caught

namespace PccGateway
namespace ControlLoop
open PccGateway.Control (GatewayControlError GatewayControlPoll)
open Method (get modify Ends Evolves Keeps Fixes)
open Thread (attempt when settle)
open Shutdown (GatewayServer Quiescent Watched external connectionSnapshot connectionOwnerSnapshot)

/-- What a pass of the loop finds. -/
structure Round where
  /-- `process_control.poll`. -/
  poll : Except GatewayControlError GatewayControlPoll := .ok ⟨0, rfl⟩
  /-- What the factory of replacements returns or raises. -/
  replacement : Except Exn (Option Reload.GatewayConfig) := .ok none
  meanwhile : Reload.Meanwhile := {}

/-- The server as `run` has it: also with what a reload replaces, and with the passes to come. -/
structure Controlled where
  server : GatewayServer
  config : Reload.GatewayConfig
  listener : Reload.ListenerConfig
  tlsGenerationReloads : Int := 0
  reloadFactory : Bool := true
  reloadRequested : Int := 0
  rounds : List Round := []
  /-- What `_shutdown_all` has returned. -/
  teardown : Option (Option Exn) := none

abbrev Call (α : Type) := Thread Controlled Exn α

def onServer {α : Type} (call : Shutdown.Call α) : Call α :=
  Method.on Controlled.server (fun server loop => { loop with server }) call

/-- What a reload sees of the server. -/
def gatewayOf (loop : Controlled) : Reload.GatewayServer :=
  ⟨loop.server.store, loop.config, loop.listener, loop.server.tlsManager, loop.tlsGenerationReloads⟩

def putGateway (gateway : Reload.GatewayServer) (loop : Controlled) : Controlled :=
  { loop with
    server := { loop.server with store := gateway.store, tlsManager := gateway.tlsManager }
    config := gateway.config
    listener := gateway.listener
    tlsGenerationReloads := gateway.tlsGenerationReloads }

def onReload {α : Type} (call : Reload.Call α) : Call α := Thread.call (Method.on gatewayOf putGateway call)

def nextRound : Call Round := fun loop =>
  match loop.rounds with
  | [] => (loop, .error .unfinished)
  | round :: rest => ({ loop with rounds := rest }, .ok round)

/-- The exception of a `GatewayControlError`. -/
def controlError (error : GatewayControlError) : Exn :=
  .runtime ("gateway process control " ++ error.operation ++ " failed (" ++ toString error.errorCode ++ ")")

def pollControl (round : Round) : Call (Option GatewayControlPoll) := do
  let loop ← get
  if loop.server.processControlInstalled then
    match round.poll with
    | .error error => Thread.raise (controlError error)
    | .ok poll => return some poll
  else return none

/-- What a pass does when a reload is requested. -/
def reload (round : Round) : Call Unit := do
  modify fun loop => { loop with reloadRequested := loop.reloadRequested + 1 }
  let loop ← get
  when (loop.reloadFactory = true) do
    match round.replacement with
    | .error error => Thread.raise error
    | .ok none => return ()
    | .ok (some config) =>
      let _ ← onReload (Reload.reload round.meanwhile config)
      return ()

/-- `_fail_accept_owner`. -/
def failAcceptOwner (reason : String) (error : Option Exn) : Shutdown.Call Unit := do
  Shutdown.fail reason
  Thread.raise (error.getD (.runtime reason))

/-- `_check_accept_owner`. -/
def checkAcceptOwner : Shutdown.Call Unit := do
  let server ← get
  match server.acceptThread with
  | none =>
    when (server.store.lifecycle.state = .running) (failAcceptOwner "gateway accept owner is missing" none)
  | some _ =>
    match ← attempt Shutdown.acceptOutcome with
    | .error error =>
      failAcceptOwner ("gateway accept owner health check failed: " ++ error.message) (some error)
    | .ok .pending => return ()
    | .ok .returned =>
      let server ← get
      when (server.store.lifecycle.state = .running)
        (failAcceptOwner "gateway accept owner returned while server is running" none)
    | .ok .raised =>
      match ← attempt external with
      | .error error =>
        failAcceptOwner ("gateway accept owner exception inspection failed: " ++ error.message) (some error)
      | .ok answer =>
        let detail := (answer.error.map Exn.message).getD ""
        failAcceptOwner ("gateway accept owner raised" ++ if detail = "" then "" else ": " ++ detail)
          answer.error
    | .ok .cancelled => failAcceptOwner "gateway accept owner was cancelled" none
    | .ok (.unknown value) =>
      failAcceptOwner ("gateway accept owner reported unknown outcome " ++ toString value) none

/-- Whether the drain of the gateway is over. -/
def drained : Shutdown.Call Bool := do
  let server ← get
  if server.store.lifecycle.state = .draining then Shutdown.driveDrain else return false

/-- The end of a pass: the drain, and the wait for the next one. -/
def driveAndWait : Shutdown.Call (Thread.Pass Unit Unit) := do
  let isOver ← drained
  if isOver then return .done ()
  else
    let _ ← external
    return .again ()

/-- One pass of the loop of `run`. -/
def pass : Call (Thread.Pass Unit Unit) := do
  let loop ← get
  if loop.server.store.lifecycle.state ≠ .running ∧ loop.server.store.lifecycle.state ≠ .draining then
    return .done ()
  else
    let (_, ownerError) ← onServer Shutdown.reapConnectionOwners
    Thread.raiseFirst ownerError
    let round ← nextRound
    let control ← pollControl round
    when (control.any GatewayControlPoll.reloadRequested = true) (reload round)
    when (control.any GatewayControlPoll.stopRequested = true) (onServer Shutdown.requestStop)
    onServer checkAcceptOwner
    onServer driveAndWait

/-- Whether something is left for which a failed teardown is to be seen. -/
def retained : Shutdown.Call Bool := do
  let server ← get
  if server.poolStarted ∨ server.acceptThread ≠ none then return true
  else
    let connections ← connectionSnapshot
    if connections ≠ [] then return true
    else
      let owners ← connectionOwnerSnapshot
      return decide (owners ≠ [])

/-- How `run` ends, after the error of its loop and that of the teardown. -/
def conclude (runError : Option Exn) : Option Exn → Call Int
  | none => do
    Thread.raiseFirst runError
    let loop ← get
    return if loop.server.store.lifecycle.state = .stopped then 0 else -1
  | some cleanup => do
    let left ← onServer retained
    Thread.raise (if left then cleanup else runError.getD cleanup)

/-- `run` behind its start. -/
def serve (fuel : Nat) : Call Int := do
  let runError := match ← attempt (Thread.loop (fun _ => pass) fuel ()) with
    | .ok _ => none
    | .error error => some error
  let cleanup ← onServer Shutdown.shutdownAll
  modify fun loop => { loop with teardown := some cleanup }
  conclude runError cleanup

def run (fuel : Nat) : Call Int := do
  onServer Shutdown.start
  serve fuel

/-- No owner is left, and no carriers for one. -/
def Cleared (server : GatewayServer) : Prop := Quiescent server ∧ server.poolStarted = false

section Teardown

theorem quiescent_modify {change : GatewayServer → GatewayServer}
    (quiescent : ∀ server, Quiescent server → Quiescent (change server))
    (pool : ∀ server, (change server).poolStarted = server.poolStarted) :
    Evolves (Keeps Cleared) (modify change : Shutdown.Call Unit) :=
  .modify fun server cleared => ⟨quiescent server cleared.1, (pool server).trans cleared.2⟩

theorem waits_and {P Q : GatewayServer → Prop} (first : Shutdown.Waits (Keeps P))
    (second : Shutdown.Waits (Keeps Q)) :
    Shutdown.Waits (Keeps fun server => P server ∧ Q server) where
  lands := fun server answer rest found both =>
    ⟨first.lands server answer rest found both.1, second.lands server answer rest found both.2⟩
  lifecycle := fun server lifecycle both =>
    ⟨first.lifecycle server lifecycle both.1, second.lifecycle server lifecycle both.2⟩
  seesAccept := fun server both => ⟨first.seesAccept server both.1, second.seesAccept server both.2⟩
  seesConnection := fun server connection both =>
    ⟨first.seesConnection server connection both.1, second.seesConnection server connection both.2⟩
  forgets := fun server connection seen both =>
    ⟨first.forgets server connection seen both.1, second.forgets server connection seen both.2⟩

theorem pool_waits : Shutdown.Waits (Keeps fun server : GatewayServer => server.poolStarted = false) where
  lands := fun server answer rest found pool =>
    (congrArg Shutdown.Account.poolStarted
      (Shutdown.account_waits.lands server answer rest found)).trans pool
  lifecycle := fun _ _ pool => pool
  seesAccept := fun _ pool => pool
  seesConnection := fun _ _ pool => pool
  forgets := fun server connection seen pool =>
    (congrArg Shutdown.Account.poolStarted
      (Shutdown.account_waits.forgets server connection seen)).trans pool

theorem cleared_waits : Shutdown.Waits (Keeps Cleared) := waits_and Shutdown.quiescent_waits pool_waits

theorem onStore_cleared {α : Type} (section_ : Generations.Section α) :
    Evolves (Keeps Cleared) (Shutdown.onStore section_) :=
  .call fun _ cleared => cleared

theorem retireGeneration_cleared (id : Nat) : Evolves (Keeps Cleared) (Shutdown.retireGeneration id) :=
  .bind (onStore_cleared _) fun _ =>
    .bind (quiescent_modify (fun _ same => same) fun _ => rfl) fun _ => .when cleared_waits.ignore

theorem finishDrain_cleared : Evolves (Keeps Cleared) Shutdown.finishDrain := by
  refine .bind (onStore_cleared _) fun found => ?_
  cases found with
  | none => exact .pure false
  | some current => exact .bind (retireGeneration_cleared current) fun _ => .pure true

/-- What is torn down behind the carriers leaves no owner behind. -/
theorem teardown_cleared :
    Evolves (Keeps Cleared)
      (settle [Shutdown.closeListener, Shutdown.settleClosedConnections, Shutdown.endDrain,
    Shutdown.retireUnlessStopped, Shutdown.shutdownApp, Shutdown.closeTls, Shutdown.uninstall]) := by
  refine .settle_cons ?_
    (.settle_cons ?_ (.settle_cons ?_ (.settle_cons ?_ (.settle_cons ?_ (.settle_cons ?_
    (.settle_cons ?_ .settle_nil))))))
  · exact .bind .get fun _ => .when (.bind (quiescent_modify (fun _ same => same) fun _ => rfl) fun _ =>
      .bind (quiescent_modify (fun _ same => same) fun _ => rfl) fun _ => cleared_waits.ignore)
  · exact .bind cleared_waits.connectionSnapshot fun _ =>
      .bind cleared_waits.connectionOwnerSnapshot fun _ => .when (.raise _)
  · exact .bind .get fun _ => .when (.bind finishDrain_cleared fun _ => .when (cleared_waits.fail _))
  · exact .bind .get fun _ => .when (.bind .get fun _ => .when (retireGeneration_cleared _))
  · exact .bind .get fun _ => .when (.bind (quiescent_modify (fun _ same => same) fun _ => rfl) fun _ =>
      .ensuring cleared_waits.ignore (quiescent_modify (fun _ same => same) fun _ => rfl))
  · exact .bind .get fun _ => .forSome fun _ => .when (.bind (quiescent_modify (fun _ same =>
      same) fun _ => rfl) fun _ => cleared_waits.ignore)
  · exact .bind .get fun _ => .when (.bind cleared_waits.external fun _ =>
      quiescent_modify (fun _ same => same) fun _ => rfl)

theorem stop_quiescent : Evolves (Keeps Quiescent) Shutdown.stop := by
  intro server quiescent
  have kept := Shutdown.quiescent_waits.external server quiescent
  unfold Shutdown.stop
  generalize external server = result at kept
  obtain ⟨after, halt | answer⟩ := result <;> exact kept

theorem stopCarriers_cleared (message : String) {server : GatewayServer} (quiescent : Quiescent server) :
    Ends (Shutdown.stopCarriers message) server (fun stopped after => stopped = none → Cleared after)
      (fun _ _ => True) := by
  simp only [Shutdown.stopCarriers, Method.ends_bind, Method.ends_get]
  refine .ite (fun _ => ?_) fun unstarted _ => ⟨quiescent, Bool.eq_false_iff.mpr unstarted⟩
  simp only [Method.ends_bind, Thread.ends_attempt]
  refine (Method.evolves_keeps_iff.mp stop_quiescent server quiescent).mono
    (fun answer after quiescent => ?_) fun halt after _ => ?_
  · exact .ite (fun _ => by simp) fun _ _ => ⟨quiescent, rfl⟩
  · cases halt with
    | raised error => simp
    | parked | unfinished => trivial

theorem teardownAll_cleared (first : Option Exn) {server : GatewayServer} (quiescent : Quiescent server) :
    Ends (Shutdown.teardown first) server (fun error after => error = none → Cleared after)
      (fun _ _ => True) := by
  have idle : Evolves (Keeps Quiescent) (settle (List.replicate server.config.proxyPools do
      let _ ← external; return ())) := by
    generalize server.config.proxyPools = count
    induction count with
    | zero => exact .settle_nil
    | succ count ih => exact .settle_cons Shutdown.quiescent_waits.ignore ih
  simp only [Shutdown.teardown, Method.ends_bind, Method.ends_get]
  refine (Method.evolves_keeps_iff.mp idle server quiescent).mono (fun error after quiescent => ?_)
    fun _ _ _ => trivial
  refine (stopCarriers_cleared _ quiescent).mono (fun stopped after cleared => ?_) fun _ _ _ => trivial
  cases stopped with
  | some error => simp
  | none =>
    rw [Method.ends_bind]
    exact (Method.evolves_keeps_iff.mp teardown_cleared after (cleared rfl)).mono
      (fun _ _ cleared _ => cleared) fun _ _ _ => trivial

/-- Without an error `_shutdown_all` has left nothing. -/
theorem shutdownAll_cleared {server : GatewayServer} (watched : Watched server) :
    Ends Shutdown.shutdownAll server
      (fun error after => Watched after ∧ (error = none → Cleared after)) (fun _ _ => True) := by
  have cleared : Ends Shutdown.shutdownAll server (fun error after => error = none → Cleared after)
      (fun _ _ => True) := by
    unfold Shutdown.shutdownAll
    refine Method.ends_bind.mpr ((Shutdown.settleOwners_quiescent watched).mono
      (fun found after both => ?_) fun _ _ _ => trivial)
    obtain ⟨first, terminal⟩ := found
    simp only [Method.ends_bind, Method.ends_get]
    refine .ite (fun _ => by simp) fun settled => ?_
    obtain ⟨absent, terminal⟩ := not_or.mp settled
    exact teardownAll_cleared first (both.2 (Bool.eq_true_of_not_eq_false terminal) (not_not.mp absent))
  have kept := Method.evolves_keeps_iff.mp Shutdown.shutdownAll_watched server watched
  exact (kept.and cleared).mono (fun _ _ both => both) fun _ _ _ => trivial

end Teardown

section Passes

/-- No accept owner is known, and no carriers run. -/
def Idle (server : GatewayServer) : Prop :=
  Watched server ∧ server.acceptThread = none ∧ server.poolStarted = false

theorem absent_waits : Shutdown.Waits (Keeps fun server : GatewayServer => server.acceptThread = none) where
  lands := fun server answer rest found absent =>
    (Shutdown.thread_waits.lands server answer rest found).trans absent
  lifecycle := fun _ _ absent => absent
  seesAccept := fun _ absent => absent
  seesConnection := fun _ _ absent => absent
  forgets := fun server connection seen absent =>
    (Shutdown.thread_waits.forgets server connection seen).trans absent

theorem idle_waits :
    Shutdown.Waits (Keeps Idle) := waits_and Shutdown.watched_waits (waits_and absent_waits pool_waits)

/-- Without an accept owner no connection comes. -/
theorem vacated_waits :
    Shutdown.Waits (Keeps fun server : GatewayServer =>
      server.alive = false ∧ server.connections = []) where
  lands := by
    intro server answer rest _ vacated
    refine @Shutdown.landed_invariant (fun server => server.alive = false ∧ server.connections = [])
      answer.landed
      (fun event _ server vacated => ?_) { server with answers := rest } vacated
    obtain ⟨gone, connections⟩ := vacated
    refine ⟨(Shutdown.land_sight server event).1.trans gone, ?_⟩
    rcases Shutdown.land_ledgers server event with ⟨here, -⟩ | ⟨here, -⟩ | ⟨fewer, -⟩
    · exact absurd (gone.symm.trans here) Bool.false_ne_true
    · exact absurd (gone.symm.trans here) Bool.false_ne_true
    · exact List.subset_nil.mp (connections ▸ fewer)
  lifecycle := fun _ _ vacated => vacated
  seesAccept := fun _ vacated => ⟨rfl, vacated.2⟩
  seesConnection := fun _ _ vacated => vacated
  forgets := by
    intro server connection _ vacated
    unfold Shutdown.forget
    split <;> exact vacated

theorem ownerSnapshot_shows (server : GatewayServer) :
    Ends connectionOwnerSnapshot server (fun found after => after.connectionOwners = found)
      (fun _ _ => True) := by
  unfold connectionOwnerSnapshot
  rw [Method.ends_bind]
  exact Ends.mono absent_waits.locked.ends (fun _ _ _ => rfl) fun _ _ _ => trivial

theorem onServer_keeps {α : Type} {P : GatewayServer → Prop} {call : Shutdown.Call α}
    (keeps : Evolves (Keeps P) call) :
    Evolves (Keeps fun loop : Controlled => P loop.server) (onServer call) := fun loop => keeps loop.server

theorem onReload_watched {α : Type} (call : Reload.Call α) :
    Evolves (Keeps fun loop : Controlled => Watched loop.server) (onReload call) :=
  .call fun _ watched => ⟨watched.absent, watched.seen, watched.known⟩

theorem ends_on {σ τ ε α : Type} {part : σ → τ} {put : τ → σ → σ} {call : Method τ ε α} {s : σ}
    {ok : α → σ → Prop} {bad : ε → σ → Prop} :
    Ends (Method.on part put call) s ok bad ↔
      Ends call (part s) (fun a t => ok a (put t s)) (fun error t => bad error (put t s)) := by
  unfold Ends Method.on
  rcases call (part s) with ⟨t, error | a⟩ <;> rfl

theorem ends_onServer {α : Type} {call : Shutdown.Call α} {loop : Controlled} {ok : α → Controlled → Prop}
    {bad : Halt Exn → Controlled → Prop} : Ends (onServer call) loop ok bad ↔
      Ends call loop.server (fun a server => ok a { loop with server })
        (fun halt server => bad halt { loop with server }) := ends_on

theorem failAcceptOwner_watched (reason : String) (error : Option Exn) :
    Evolves (Keeps Watched) (failAcceptOwner reason error) :=
  .bind (Shutdown.watched_waits.fail reason) fun _ => .raise _

theorem checkAcceptOwner_watched : Evolves (Keeps Watched) checkAcceptOwner := by
  refine .bind .get fun server => ?_
  cases server.acceptThread with
  | none => exact .when (failAcceptOwner_watched _ _)
  | some thread =>
    refine .bind (.attempt Shutdown.watched_waits.acceptOutcome) fun found => ?_
    rcases found with error | (_ | _ | _ | _ | value)
    · exact failAcceptOwner_watched _ _
    · exact .pure ()
    · exact .bind .get fun _ => .when (failAcceptOwner_watched _ _)
    · refine .bind (.attempt Shutdown.watched_waits.external) fun inspected => ?_
      cases inspected <;> exact failAcceptOwner_watched _ _
    · exact failAcceptOwner_watched _ _
    · exact failAcceptOwner_watched _ _

theorem driveAndWait_watched : Evolves (Keeps Watched) driveAndWait :=
  .bind (.bind .get fun _ => .ite Shutdown.driveDrain_watched (.pure _)) fun _ =>
    .ite (.pure _) (.bind Shutdown.watched_waits.external fun _ => .pure _)

theorem pass_watched : Evolves (Keeps fun loop : Controlled => Watched loop.server) pass := by
  have round : Evolves (Keeps fun loop : Controlled => Watched loop.server) nextRound := by
    intro loop watched
    unfold nextRound
    split <;> exact watched
  have reload (round : Round) :
      Evolves (Keeps fun loop : Controlled => Watched loop.server) (reload round) := by
    refine .bind (.modify fun _ watched => watched) fun _ => .bind .get fun _ => .when ?_
    rcases round.replacement with error | (_ | config)
    · exact .raise _
    · exact .pure ()
    · exact .bind (onReload_watched _) fun _ => .pure ()
  have poll (round : Round) :
      Evolves (Keeps fun loop : Controlled => Watched loop.server) (pollControl round) := by
    refine .bind .get fun _ => .ite ?_ (.pure none)
    cases round.poll with
    | error error => exact .raise _
    | ok poll => exact .pure _
  exact .bind .get fun _ =>
      .ite (.pure _) (.bind (onServer_keeps Shutdown.watched_waits.reapConnectionOwners) fun _ =>
    .bind (.raiseFirst _) fun _ => .bind round fun found => .bind (poll found) fun _ =>
        .bind (.when (reload found)) fun _ =>
      .bind (.when (onServer_keeps Shutdown.requestStop_watched)) fun _ =>
          .bind (onServer_keeps checkAcceptOwner_watched) fun _ =>
        onServer_keeps driveAndWait_watched)

/-- What is not retained is not there, although connections may leave between the two looks. -/
theorem retained_cleared {server : GatewayServer} (watched : Watched server) :
    Ends retained server (fun left after => left = false → Cleared after) (fun _ _ => True) := by
  unfold retained
  rw [Method.ends_bind, Method.ends_get]
  refine .ite (fun _ => by simp) fun none_ => ?_
  obtain ⟨pool, absent⟩ := not_or.mp none_
  have idle : Idle server := ⟨watched, not_not.mp absent, Bool.eq_false_iff.mpr pool⟩
  rw [Method.ends_bind]
  refine ((Method.evolves_keeps_iff.mp idle_waits.connectionSnapshot server idle).and
    (Shutdown.connectionSnapshot_shows server)).mono
    (fun connections after both => ?_) fun _ _ _ => trivial
  obtain ⟨idle, shown⟩ := both
  refine .ite (fun _ => by simp) fun empty => ?_
  have empty : connections = [] := not_not.mp empty
  have vacated : after.alive = false ∧ after.connections = [] := ⟨idle.1.absent idle.2.1, shown.trans empty⟩
  rw [Method.ends_bind]
  refine ((Method.evolves_keeps_iff.mp (waits_and idle_waits vacated_waits).connectionOwnerSnapshot
    after ⟨idle, vacated⟩).and
    (ownerSnapshot_shows after)).mono (fun owners last all => ?_) fun _ _ _ => trivial
  obtain ⟨⟨⟨watched, absent, pool⟩, gone, connections⟩, owned⟩ := all
  intro left
  have owners : last.connectionOwners = [] := by simpa [← owned] using left
  refine ⟨⟨absent, gone, fun connection member => ?_, connections, owners⟩, pool⟩
  exact (watched.seen connection member).resolve_left (owners ▸ List.not_mem_nil)

end Passes

section Caught
open Thread (Caught)

theorem locked_caught : Caught Shutdown.locked := by
  intro server
  unfold Ends Shutdown.locked
  cases server.answers with
  | nil =>
    intro error raised
    cases raised
  | cons answer rest => trivial

theorem fail_caught (reason : String) : Caught (Shutdown.fail reason) := fun _ => trivial

theorem snapshot_caught :
    Caught connectionSnapshot := .bind locked_caught fun _ => .bind .get fun _ => .pure _

theorem acceptFailure_caught (failure : Option (Exn × String)) :
    Caught (Shutdown.acceptFailure failure) := by
  rcases failure with _ | failure
  · exact .pure none
  · exact .bind .get fun _ => .bind (.when (fail_caught _)) fun _ => .pure _

theorem observeAccept_caught (deadline : Int) (fuel : Nat) :
    Caught (Shutdown.observeAccept deadline fuel) := by
  refine .loop (fun _ => .bind (.attempt _) fun found => ?_) fuel ()
  cases found with
  | error error => exact .pure _
  | ok outcome =>
    refine .ite (.pure _) (.bind (.attempt _) fun clock => ?_)
    cases clock with
    | error error => exact .pure _
    | ok now =>
      refine .ite (.pure _) (.bind (.attempt _) fun waited => ?_)
      cases waited <;> exact .pure _

theorem retireAccept_caught (outcome : Shutdown.Outcome) : Caught (Shutdown.retireAccept outcome) := by
  cases outcome with
  | pending => exact .pure none
  | cancelled | unknown value => exact .bind (.modify _) fun _ => .pure _
  | returned | raised =>
    refine .bind (.modify _) fun _ => .bind (.attempt _) fun inspected => ?_
    cases inspected <;> exact .pure _

theorem stopAcceptOwner_caught : Caught Shutdown.stopAcceptOwner := by
  refine .bind .get fun server => ?_
  cases server.acceptThread with
  | none => exact .pure none
  | some thread =>
    refine .bind (.attempt _) fun cancelled => .bind (.attempt _) fun clock => ?_
    cases clock with
    | error error => exact acceptFailure_caught _
    | ok now =>
      exact .bind (.bind .get fun _ => .pure _) fun fuel => .bind (observeAccept_caught _ fuel) fun seen =>
        .bind (retireAccept_caught _) fun _ => acceptFailure_caught _

theorem settleOwners_caught : Caught Shutdown.settleOwners := by
  have report (first : Option Exn) (terminal : Bool) :
      Caught (Shutdown.reportConnections first terminal) := by
    cases terminal with
    | true => exact .pure _
    | false => exact .bind .get fun _ => .bind (.when (fail_caught _)) fun _ => .pure _
  refine .bind .get fun _ => .bind (.attempt _) fun drained =>
    .bind stopAcceptOwner_caught fun accept => .bind (.attempt _) fun waited => ?_
  cases waited with
  | ok found => exact report _ _
  | error error => exact report _ _

theorem stopCarriers_caught (message : String) : Caught (Shutdown.stopCarriers message) := by
  refine .bind .get fun _ => .ite (.bind (.attempt _) fun stopped => ?_) (.pure none)
  cases stopped with
  | error error => exact .pure _
  | ok answer => exact .ite (.pure _) (.bind (.modify _) fun _ => .pure _)

theorem retained_caught : Caught retained :=
  .bind .get fun _ => .ite (.pure _) (.bind snapshot_caught fun _ =>
      .ite (.pure _) (.bind (.bind locked_caught fun _ => .bind .get fun _ =>
    .pure _) fun _ => .pure _))

/-- Whatever `_shutdown_all` meets it returns. -/
theorem shutdownAll_caught : Caught Shutdown.shutdownAll := by
  refine .bind settleOwners_caught fun found => .bind .get fun _ => .ite (.pure _) ?_
  refine .bind .get fun _ => .bind (.settle _) fun idle => .bind (stopCarriers_caught _) fun stopped => ?_
  cases stopped with
  | some error => exact .pure _
  | none => exact .bind (.settle _) fun _ => .pure _

end Caught

theorem conclude_hides_nothing {loop : Controlled} {cleanup : Option Exn} (watched : Watched loop.server)
    (cleared : cleanup = none → Cleared loop.server) (torn : loop.teardown = some cleanup)
    (runError : Option Exn) :
    Ends (conclude runError cleanup) loop
      (fun status last => Cleared last.server ∧ (status = 0 ↔ last.server.store.lifecycle.state = .stopped))
      (fun halt last => ∀ error, halt = .raised error → last.teardown = some (some error) ∨
        Cleared last.server) := by
  cases cleanup with
  | none =>
    unfold conclude
    rw [Method.ends_bind]
    cases runError with
    | none =>
      refine ⟨cleared rfl, ?_⟩
      split <;> simp_all
    | some error => exact fun _ _ => .inr (cleared rfl)
  | some cleanup =>
    unfold conclude
    rw [Method.ends_bind, ends_onServer]
    refine ((retained_cleared watched).and (retained_caught loop.server)).mono (fun left after both => ?_)
      fun halt after both error raised => ?_
    · rintro error ⟨⟩
      cases left with
      | true => exact .inl torn
      | false => exact .inr (both.1 rfl)
    · exact absurd raised (both.2 error)

/-- A server as it is made, with all that its run will meet. -/
def init (server : Shutdown.Config) (object : Nat) (limits : AdmissionLimits) (resources : List Retained)
    (tlsManager : Option Reload.TlsGenerationManager) (answers : List Shutdown.Answer)
    (spawning : Shutdown.Spawn)
    (config : Reload.GatewayConfig) (listener : Reload.ListenerConfig) (reloadFactory : Bool)
    (rounds : List Round) : Controlled where
  server := { Shutdown.init server object limits resources tlsManager with answers, spawning }
  config := config
  listener := listener
  reloadFactory := reloadFactory
  rounds := rounds

/-- How `run` may end. An error of a start that fails is one of its own. -/
structure HidesNothing (fuel : Nat) (loop : Controlled) : Prop where
  returned : Ends (run fuel) loop
    (fun status last => Cleared last.server ∧
      (status = 0 ↔ last.server.store.lifecycle.state = .stopped)) (fun _ _ => True)
  raised : Ends (onServer Shutdown.start) loop
    (fun _ started => Ends (serve fuel) started (fun _ _ => True)
      (fun halt last => ∀ error, halt = .raised error → last.teardown = some (some error) ∨
        Cleared last.server))
    (fun _ _ => True)

theorem serve_hides_nothing {started : Controlled} (watched : Watched started.server) (fuel : Nat) :
    Ends (serve fuel) started
      (fun status last => Cleared last.server ∧ (status = 0 ↔ last.server.store.lifecycle.state = .stopped))
      (fun halt last => ∀ error, halt = .raised error → last.teardown = some (some error) ∨
        Cleared last.server) := by
  have kept := Method.evolves_keeps_iff.mp
    (Evolves.attempt (Evolves.loop (fun _ => pass_watched) fuel ())) started watched
  unfold serve
  rw [Method.ends_bind]
  refine (kept.and (Thread.Caught.attempt _ _)).mono (fun served after both => ?_) fun halt after both
      error raised =>
    absurd raised (both.2 error)
  rw [Method.ends_bind, ends_onServer]
  refine ((shutdownAll_cleared both.1).and (shutdownAll_caught _)).mono (fun cleanup last both => ?_)
      fun halt last both error raised =>
    absurd raised (both.2 error)
  obtain ⟨⟨watched, cleared⟩, -⟩ := both
  exact conclude_hides_nothing watched cleared rfl _

/-- `run` hides nothing that it has not torn down. It returns only when no owner is left and no
carriers, with 0 exactly when the gateway has stopped; and when it raises behind a start that
succeeds, that is the error of the teardown, or nothing is left either. What is assumed of the
scheduler is that it tells one of its four outcomes. Passes, signals, reloads and owners are any, as
often as the fuel admits. -/
theorem run_hides_nothing (server : Shutdown.Config) (object : Nat) (limits : AdmissionLimits)
    (resources : List Retained)
    (tlsManager : Option Reload.TlsGenerationManager) (answers : List Shutdown.Answer)
    (spawning : Shutdown.Spawn) (known : Shutdown.Known answers) (config : Reload.GatewayConfig)
    (listener : Reload.ListenerConfig) (reloadFactory : Bool) (rounds : List Round) (fuel : Nat) :
    HidesNothing fuel (init server object limits resources tlsManager answers spawning config listener
      reloadFactory rounds) := by
  have fresh : Watched { Shutdown.init server object limits resources tlsManager with answers, spawning } :=
    ⟨fun _ => rfl, by simp [Shutdown.init], known⟩
  have starts := Method.evolves_keeps_iff.mp (onServer_keeps Shutdown.start_watched)
    (init server object limits resources tlsManager answers spawning config listener reloadFactory
      rounds) fresh
  constructor
  · unfold run
    rw [Method.ends_bind]
    exact starts.mono (fun _ started watched =>
      (serve_hides_nothing watched fuel).mono (fun _ _ good => good) fun _ _ _ => trivial)
      fun _ _ _ => trivial
  · exact starts.mono (fun _ started watched =>
      (serve_hides_nothing watched fuel).mono (fun _ _ _ => trivial) fun _ _ seen => seen)
      fun _ _ _ => trivial

/-- A gateway that is asked to stop in its first pass. -/
theorem run_hides_nothing_stopped :
    HidesNothing 3 (init {} 0 {} [] none (Shutdown.startAnswers ++ List.replicate 12 Shutdown.returns)
      {} (Reload.tlsGateway 0) (Reload.tlsListener 0) true [{ poll := .ok ⟨1, rfl⟩ }]) := by
  have known : Shutdown.Known (Shutdown.startAnswers ++ List.replicate 12 Shutdown.returns) := by
    simp [Shutdown.Known, Shutdown.startAnswers, Shutdown.returns]
  exact run_hides_nothing {} 0 {} [] none _ {} known _ _ true _ 3

end ControlLoop
end PccGateway
