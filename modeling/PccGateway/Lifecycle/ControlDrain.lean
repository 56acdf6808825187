import PccGateway.Lifecycle.ControlLoop

namespace PccGateway
namespace ControlLoop
open PccGateway.Control (GatewayControlPoll)
open Method (get modify Ends Evolves)
open Thread (attempt when)
open Shutdown (GatewayServer Answer external connectionOwnerSnapshot)

/-- The part of a pass in front of the drain. -/
def reachDrain : Call Unit := do
  let (_, ownerError) ← onServer Shutdown.reapConnectionOwners
  Thread.raiseFirst ownerError
  let round ← nextRound
  let control ← pollControl round
  when (control.any GatewayControlPoll.reloadRequested = true) (reload round)
  when (control.any GatewayControlPoll.stopRequested = true) (onServer Shutdown.requestStop)
  onServer checkAcceptOwner

/-- The clock as `_drive_drain` reads it in the pass that begins here, if the pass gets there and
there is an active connection. -/
def drainClock (loop : Controlled) : Option Int :=
  match reachDrain loop with
  | (reached, .ok ()) =>
    if reached.server.store.lifecycle.state = .draining ∧
        reached.server.store.lifecycle.metrics .connectionsActive ≠ 0 then
      (Shutdown.nowMs reached.server).2.toOption
    else none
  | (_, .error _) => none

/-- What `_drive_drain` reads in the next passes, as long as one goes on to the other. -/
def drainClocks : Nat → Controlled → List Int
  | 0, _ => []
  | passes + 1, loop =>
    (drainClock loop).toList ++
      match pass loop with
      | (after, .ok (.again ())) => drainClocks passes after
      | _ => []

/-- A reading of the clock before the deadline of the drain. -/
def early (server : GatewayServer) (now : Int) : Bool :=
  decide (now - server.drainStartedMs < server.config.drainTimeoutMs)

/-- Only answers have been used up, and the drain is the same. -/
structure Still (before after : GatewayServer) : Prop where
  config : after.config = before.config
  started : after.drainStartedMs = before.drainStartedMs
  state : after.store.lifecycle.state = before.store.lifecycle.state
  answers : after.answers <:+ before.answers

instance : IsPreorder GatewayServer Still where
  refl := fun _ => ⟨rfl, rfl, rfl, List.suffix_rfl⟩
  trans := fun _ _ _ first second => ⟨second.config.trans first.config, second.started.trans first.started,
    second.state.trans first.state, second.answers.trans first.answers⟩

theorem Still.early {before after : GatewayServer} (still : Still before after) :
    early after = early before := by
  funext now
  rw [ControlLoop.early, ControlLoop.early, still.config, still.started]

theorem land_still (server : GatewayServer) (event : Shutdown.Event) :
    Still server (Shutdown.land server event) := by
  have answers := (Shutdown.land_sight server event).2.2.2
  cases event with
  | accepts connection | owns connection thread =>
    simp only [Shutdown.land]
    split <;> exact ⟨rfl, rfl, rfl, List.suffix_rfl⟩
  | leaves connection | closes connection | counts metrics => exact ⟨rfl, rfl, rfl, List.suffix_rfl⟩
  | refers references =>
    refine ⟨?_, ?_, ?_, answers ▸ List.suffix_rfl⟩
    all_goals
      simp only [Shutdown.land]
      split <;> rfl

theorem landed_still (events : List Shutdown.Event) (server : GatewayServer) :
    Still server (events.foldl Shutdown.land server) :=
  @Shutdown.landed_invariant (Still server) events (fun event _ after still =>
    trans_of Still still (land_still after event)) server
    (refl_of Still server)

/-- The answer that is used up is not left. -/
theorem answered_still {server : GatewayServer} {answer : Answer} {rest : List Answer}
    (found : server.answers = answer :: rest) :
    Still server (answer.landed.foldl Shutdown.land { server with answers := rest }) := by
  have landed := landed_still answer.landed { server with answers := rest }
  exact ⟨landed.config, landed.started, landed.state,
    landed.answers.trans (found ▸ List.suffix_cons answer rest)⟩

theorem external_still : Evolves Still external := by
  intro server
  unfold Shutdown.external
  split
  · exact refl_of Still server
  · rename_i answer rest found
    exact answered_still found

theorem locked_still : Evolves Still Shutdown.locked := by
  intro server
  unfold Shutdown.locked
  split
  · exact refl_of Still server
  · rename_i answer rest found
    exact answered_still found

theorem acceptOutcome_still : Evolves Still Shutdown.acceptOutcome :=
  .bind external_still fun _ => .bind (.modify fun _ => ⟨rfl, rfl, rfl, List.suffix_rfl⟩) fun _ => .pure _

theorem reapConnectionOwners_still : Evolves Still Shutdown.reapConnectionOwners := by
  have snapshot : Evolves Still connectionOwnerSnapshot := .bind locked_still fun _ =>
    .bind .get fun _ => .pure _
  have inspect (connection : Nat) : Evolves Still (Shutdown.inspect connection) := by
    refine .bind .get fun _ => .ite (.pure _) (.bind (.attempt (.bind external_still fun _ =>
      .bind (.modify fun _ => ⟨rfl, rfl, rfl, List.suffix_rfl⟩) fun _ => .pure _)) fun found => ?_)
    rcases found with error | (_ | _ | _ | _ | value) <;> exact .pure _
  have inspectAll (connections : List Nat) : Evolves Still (Shutdown.inspectAll connections) := by
    induction connections with
    | nil => exact .pure _
    | cons connection rest ih => exact .bind (inspect connection) fun _ => .bind ih fun _ => .pure _
  have forgets (terminal : List Nat) (server : GatewayServer) :
      Still server (terminal.foldl Shutdown.forget server) := by
    induction terminal generalizing server with
    | nil => exact refl_of Still server
    | cons connection rest ih =>
      refine trans_of Still (b := Shutdown.forget server connection) ?_ (ih _)
      unfold Shutdown.forget
      split
      · exact ⟨rfl, rfl, rfl, List.suffix_rfl⟩
      · exact refl_of Still server
  exact .bind snapshot fun owners => .bind (inspectAll owners) fun found =>
      .bind (.when (.bind locked_still fun _ =>
    .modify (forgets found.1))) fun _ => .bind snapshot fun _ => .pure _

theorem checkAcceptOwner_still (server : GatewayServer) :
    Ends checkAcceptOwner server (fun _ after => Still server after) (fun _ _ => True) := by
  unfold checkAcceptOwner
  rw [Method.ends_bind, Method.ends_get]
  cases server.acceptThread with
  | none => exact Thread.ends_when (fun _ => trivial) fun _ => refl_of Still server
  | some thread =>
    rw [Method.ends_bind]
    refine Ends.mono ((Evolves.attempt acceptOutcome_still).ends) (fun found after still => ?_)
      fun _ _ _ => trivial
    rcases found with error | (_ | _ | _ | _ | value)
    · trivial
    · exact still
    · rw [Method.ends_bind, Method.ends_get]
      exact Thread.ends_when (fun _ => trivial) fun _ => still
    · rw [Method.ends_bind]
      refine Ends.mono (external_still.attempt.ends) (fun inspected _ _ => ?_) fun _ _ _ => trivial
      cases inspected <;> trivial
    · trivial
    · trivial

theorem ends_anyhow {α : Type} (call : Shutdown.Call α) (server : GatewayServer) :
    Ends call server (fun _ _ => True) (fun _ _ => True) := by
  unfold Ends
  split <;> trivial

/-- A drain that goes on has read the clock before its deadline. -/
theorem drained_early {server : GatewayServer} (draining : server.store.lifecycle.state = .draining) :
    Ends drained server (fun isOver after =>
      isOver = false → Still server after ∧ server.store.lifecycle.metrics .connectionsActive ≠ 0 ∧
      ∃ now, (Shutdown.nowMs server).2 = .ok now ∧ early server now = true) (fun _ _ => True) := by
  unfold drained
  rw [Method.ends_bind, Method.ends_get, if_pos draining]
  unfold Shutdown.driveDrain
  rw [Method.ends_bind, Method.ends_get, if_neg (not_not.mpr draining)]
  refine .ite (fun _ => ?_) fun active => ?_
  · rw [Method.ends_bind]
    exact (ends_anyhow _ server).mono (fun _ _ _ => by simp) fun _ _ _ => trivial
  rw [Method.ends_bind]
  have read : Ends Shutdown.nowMs server
      (fun now after => Still server after ∧ (Shutdown.nowMs server).2 = .ok now)
      (fun _ _ => True) := by
    have still : Evolves Still Shutdown.nowMs := .bind external_still fun _ => .pure _
    have moved := still server
    unfold Ends
    split
    · rename_i run
      rw [run] at moved ⊢
      exact ⟨moved, rfl⟩
    · trivial
  refine read.mono (fun now after both => ?_) fun _ _ _ => trivial
  refine .ite (fun _ => ?_) fun isEarly _ =>
    ⟨both.1, active, now, both.2, decide_eq_true (not_le.mp isEarly)⟩
  rw [Method.ends_bind]
  refine (ends_anyhow _ after).mono (fun _ last _ => ?_) fun _ _ _ => trivial
  rw [Method.ends_bind, Method.ends_get, Method.ends_bind]
  exact (ends_anyhow _ last).mono (fun _ _ _ => by simp) fun _ _ _ => trivial

theorem driveAndWait_early {server : GatewayServer} (draining : server.store.lifecycle.state = .draining) :
    Ends driveAndWait server (fun next after =>
      next = .again () → Still server after ∧ server.store.lifecycle.metrics .connectionsActive ≠ 0 ∧
      ∃ now, (Shutdown.nowMs server).2 = .ok now ∧ early server now = true) (fun _ _ => True) := by
  unfold driveAndWait
  rw [Method.ends_bind]
  refine (drained_early draining).mono (fun isOver after goes => ?_) fun _ _ _ => trivial
  refine .ite (fun _ => by simp) fun going => ?_
  obtain ⟨still, read⟩ := goes (Bool.eq_false_iff.mpr going)
  rw [Method.ends_bind]
  exact Ends.mono external_still.ends (fun _ last later _ => ⟨trans_of Still still later, read⟩)
    fun _ _ _ => trivial

theorem nextRound_server (loop : Controlled) :
    Ends nextRound loop (fun _ after => after.server = loop.server) (fun _ _ => True) := by
  unfold Ends nextRound
  cases loop.rounds <;> trivial

theorem pollControl_server (round : Round) (loop : Controlled) :
    Ends (pollControl round) loop (fun _ after => after.server = loop.server) (fun _ _ => True) := by
  unfold pollControl
  rw [Method.ends_bind, Method.ends_get]
  refine .ite (fun _ => ?_) fun _ => rfl
  cases round.poll with
  | error error => trivial
  | ok poll => rfl

/-- While the gateway drains no generation is replaced: a reload that has something to publish raises. -/
theorem reload_draining {loop : Controlled} (draining : loop.server.store.lifecycle.state = .draining)
    (round : Round) :
    Ends (reload round) loop (fun _ after => after.server = loop.server) (fun _ _ => True) := by
  have refused (config : Reload.GatewayConfig) (loop : Controlled)
      (draining : loop.server.store.lifecycle.state = .draining)
      {ok : Nat → Controlled → Prop} : Ends (onReload (Reload.reload round.meanwhile config)) loop ok
        (fun _ _ => True) := by
    have unaccepted (listener : Reload.ListenerConfig)
        (accepts : Reload.Accepts (gatewayOf loop) config listener) : False := by
      have running := accepts.running
      rw [show (gatewayOf loop).store = loop.server.store from rfl, draining] at running
      cases running
    obtain ⟨after, error, run⟩ := @Reload.reload_refused (gatewayOf loop) round.meanwhile config unaccepted
    unfold onReload
    rw [Thread.ends_call, ends_on]
    unfold Ends
    rw [run]
    trivial
  unfold reload
  rw [Method.ends_bind, Method.ends_modify, Method.ends_bind, Method.ends_get]
  refine Thread.ends_when (fun _ => ?_) fun _ => rfl
  rcases round.replacement with error | (_ | config)
  · trivial
  · rfl
  · exact Method.ends_bind.mpr (refused config { loop with
      reloadRequested := loop.reloadRequested + 1 } draining)

/-- The part of a pass in front of the drain leaves a drain as it is. -/
theorem reachDrain_still {loop : Controlled} (draining : loop.server.store.lifecycle.state = .draining) :
    Ends reachDrain loop (fun _ reached => Still loop.server reached.server) (fun _ _ => True) := by
  unfold reachDrain
  rw [Method.ends_bind, ends_onServer]
  refine Ends.mono reapConnectionOwners_still.ends (fun found reaped still => ?_) fun _ _ _ => trivial
  obtain ⟨terminal, _ | ownerError⟩ := found
  · have draining : reaped.store.lifecycle.state = .draining := still.state.trans draining
    rw [Method.ends_bind]
    unfold Thread.raiseFirst
    rw [Method.ends_pure, Method.ends_bind]
    refine (nextRound_server _).mono (fun round first same => ?_) fun _ _ _ => trivial
    have draining : first.server.store.lifecycle.state = .draining := same ▸ draining
    rw [Method.ends_bind]
    refine (pollControl_server round first).mono (fun control polled polledSame => ?_) fun _ _ _ => trivial
    have same : polled.server = reaped := polledSame.trans same
    have draining : polled.server.store.lifecycle.state = .draining := polledSame ▸ draining
    rw [Method.ends_bind]
    have reloads : Ends (when (control.any GatewayControlPoll.reloadRequested = true) (reload round)) polled
        (fun _ after => after.server = polled.server) (fun _ _ => True) :=
      Thread.ends_when (fun _ => reload_draining draining round) fun _ => rfl
    refine reloads.mono (fun _ reloaded reloadedSame => ?_) fun _ _ _ => trivial
    have same : reloaded.server = reaped := reloadedSame.trans same
    have draining : reloaded.server.store.lifecycle.state = .draining := reloadedSame ▸ draining
    rw [Method.ends_bind]
    have stops : Ends (when (control.any GatewayControlPoll.stopRequested = true)
        (onServer Shutdown.requestStop)) reloaded
        (fun _ after => after.server = reloaded.server) (fun _ _ => True) := by
      refine Thread.ends_when (fun _ => ?_) fun _ => rfl
      rw [ends_onServer]
      unfold Shutdown.requestStop
      rw [Method.ends_bind, Method.ends_get]
      exact Thread.ends_when (fun running => by simp [draining] at running) fun _ => rfl
    refine stops.mono (fun _ told toldSame => ?_) fun _ _ _ => trivial
    have same : told.server = reaped := toldSame.trans same
    rw [ends_onServer]
    refine (checkAcceptOwner_still told.server).mono (fun _ checked checkedStill => ?_) fun _ _ _ => trivial
    exact trans_of Still (same ▸ still) checkedStill
  · trivial

/-- A pass of a drain is that part, and then the drain. -/
theorem pass_run {loop : Controlled} (draining : loop.server.store.lifecycle.state = .draining) :
    pass loop = (reachDrain >>= fun _ => onServer driveAndWait) loop := by
  have assoc : (reachDrain >>= fun _ => onServer driveAndWait) = (do
      let (_, ownerError) ← onServer Shutdown.reapConnectionOwners
      Thread.raiseFirst ownerError
      let round ← nextRound
      let control ← pollControl round
      when (control.any GatewayControlPoll.reloadRequested = true) (reload round)
      when (control.any GatewayControlPoll.stopRequested = true) (onServer Shutdown.requestStop)
      onServer checkAcceptOwner
      onServer driveAndWait : Call (Thread.Pass Unit Unit)) := by
    unfold reachDrain
    simp only [Method.bind_assoc]
  rw [assoc]
  unfold pass
  rw [Method.bind_run, Method.get_run]
  dsimp only
  rw [if_neg (by simp [draining])]

/-- A pass of a drain goes on only when the clock that `_drive_drain` reads in it is before the deadline. -/
theorem pass_early {loop : Controlled} (draining : loop.server.store.lifecycle.state = .draining) :
    Ends pass loop (fun next after => next = .again () → Still loop.server after.server ∧
      ∃ now, drainClock loop = some now ∧ early loop.server now = true) (fun _ _ => True) := by
  have reaches := reachDrain_still draining
  unfold Ends
  rw [pass_run draining, Method.bind_run]
  unfold drainClock
  unfold Ends at reaches
  generalize reachDrain loop = result at reaches ⊢
  obtain ⟨reached, halt | ⟨⟩⟩ := result
  · trivial
  have drain : Ends (onServer driveAndWait) reached (fun next after => next = .again () →
      Still reached.server after.server ∧ reached.server.store.lifecycle.metrics .connectionsActive ≠ 0 ∧
      ∃ now, (Shutdown.nowMs reached.server).2 = .ok now ∧
        early reached.server now = true) (fun _ _ => True) :=
    ends_onServer.mpr (driveAndWait_early (reaches.state.trans draining))
  refine Ends.mono drain (fun next after goes again => ?_) fun _ _ _ => trivial
  obtain ⟨still, active, now, reads, isEarly⟩ := goes again
  refine ⟨trans_of Still reaches still, now, ?_, reaches.early ▸ isEarly⟩
  simp only [reaches.state.trans draining, active, ne_eq, not_false_eq_true, and_self, if_true, reads]
  rfl

/-- The drain comes to an end: a pass goes on only when the clock that `_drive_drain` reads in it is
before the deadline, so as many passes as there are such readings, and one more, are enough for the
loop of `run`. Nothing is assumed of signals, reload requests, connections and the accept owner, nor
that the clock goes forward. -/
theorem drain_ends {loop : Controlled} (draining : loop.server.store.lifecycle.state = .draining) :
    (∀ after, pass loop = (after, .ok (.again ())) →
      ∃ now, drainClock loop = some now ∧ now - loop.server.drainStartedMs <
        loop.server.config.drainTimeoutMs) ∧
    ∀ fuel, (drainClocks fuel loop).countP (early loop.server) < fuel → ∀ more,
      Thread.loop (fun _ => pass) (fuel + more) () loop = Thread.loop (fun _ => pass) fuel () loop := by
  constructor
  · intro after run
    obtain ⟨_, now, reads, isEarly⟩ := (pass_early draining).returned run rfl
    exact ⟨now, reads, of_decide_eq_true isEarly⟩
  · intro fuel enough more
    induction fuel generalizing loop with
    | zero => exact absurd enough (Nat.not_lt_zero _)
    | succ fuel ih =>
      have goes := pass_early draining
      unfold drainClocks at enough
      rw [Nat.succ_add]
      unfold Thread.loop
      rw [Method.bind_run, Method.bind_run]
      unfold Ends at goes
      generalize pass loop = result at goes enough
      obtain ⟨after, halt | next⟩ := result
      · rfl
      cases next with
      | done result => rfl
      | again state =>
        obtain ⟨still, now, reads, isEarly⟩ := goes rfl
        refine ih (still.state.trans draining) ?_
        rw [reads] at enough
        simp only [Option.toList_some, List.singleton_append, List.countP_cons_of_pos isEarly] at enough
        rw [still.early]
        exact Nat.lt_of_succ_lt_succ enough

/-- A gateway that has drained since 0 with a connection that does not end. The locks and the waits
answer 0; the clock is read before the deadline and then behind it. -/
def drainingLoop : Controlled where
  server := { Shutdown.init {} 0 {} [] none with
    store := { Generations.init 0 {} with
      lifecycle := { limits := {}, state := .draining, metrics := fun metric =>
        if metric = .connectionsActive then 1 else 0 } }
    drainStartedMs := 0
    answers := [{}, {}, { value := 10000 }, {}, {}, {}, { value := 50000 }, {}] }
  config := Reload.tlsGateway 0
  listener := Reload.tlsListener 0
  rounds := List.replicate 3 {}

theorem drain_ends_late : drainClocks 7 drainingLoop = [10000, 50000] ∧
    Thread.loop (fun _ => pass) (2 + 5) () drainingLoop = Thread.loop (fun _ => pass) 2 () drainingLoop :=
  ⟨by decide +kernel, (@drain_ends drainingLoop rfl).2 2 (by decide +kernel) 5⟩

end ControlLoop
end PccGateway
