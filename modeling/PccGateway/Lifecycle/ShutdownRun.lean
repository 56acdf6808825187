import PccGateway.Lifecycle.ShutdownOrder

namespace PccGateway
namespace Shutdown
open Method (get modify Evolves Ends Keeps Fixes)
open Thread (attempt when settle Settles)

section Sight

/-- The parts of a server that tell what it knows about its owners. -/
def sight (server : GatewayServer) : Option Nat × Bool × List Nat × List Nat × List Nat × List Answer :=
  (server.acceptThread, server.alive, server.owned, server.connectionOwners, server.observed,
    server.answers)

theorem Watched.same {before after : GatewayServer} (same : sight after = sight before)
    (watched : Watched before) : Watched after := by
  simp only [sight, Prod.mk.injEq] at same
  obtain ⟨thread, alive, owned, owners, observed, answers⟩ := same
  refine ⟨?_, ?_, ?_⟩
  · rw [thread, alive]
    exact watched.absent
  · rw [owned, owners, observed]
    exact watched.seen
  · rw [answers]
    exact watched.known

theorem watched_modify {change : GatewayServer → GatewayServer}
    (same : ∀ server, sight (change server) = sight server) :
    Evolves (Keeps Watched) (modify change : Call Unit) := .modify fun server => Watched.same (same server)

theorem onStore_watched {α : Type} (section_ : Generations.Section α) :
    Evolves (Keeps Watched) (onStore section_) :=
  .call fun _ watched => ⟨watched.absent, watched.seen, watched.known⟩

theorem closeListener_watched : Evolves (Keeps Watched) closeListener :=
  .bind .get fun _ => .when (.bind (watched_modify fun _ => rfl) fun _ =>
      .bind (watched_modify fun _ => rfl) fun _ =>
    watched_waits.ignore)

theorem shutdownApp_watched : Evolves (Keeps Watched) shutdownApp :=
  .bind .get fun _ => .when (.bind (watched_modify fun _ => rfl) fun _ =>
    .ensuring watched_waits.ignore (watched_modify fun _ => rfl))

theorem retireGeneration_watched (id : Nat) : Evolves (Keeps Watched) (retireGeneration id) :=
  .bind (onStore_watched _) fun _ => .bind (watched_modify fun _ => rfl) fun _ => .when watched_waits.ignore

theorem retireCurrent_watched :
    Evolves (Keeps Watched) retireCurrent := .bind .get fun _ => .when (retireGeneration_watched _)

theorem closeTls_watched : Evolves (Keeps Watched) closeTls :=
  .bind .get fun _ => .forSome fun _ => .when (.bind (watched_modify fun _ => rfl) fun _ =>
    watched_waits.ignore)

theorem uninstall_watched : Evolves (Keeps Watched) uninstall :=
  .bind .get fun _ => .when (.bind watched_waits.external fun _ => watched_modify fun _ => rfl)

theorem settleClosedConnections_watched : Evolves (Keeps Watched) settleClosedConnections :=
  .bind watched_waits.connectionSnapshot fun _ => .bind watched_waits.connectionOwnerSnapshot fun _ =>
    .when (.raise _)

theorem finishDrain_watched : Evolves (Keeps Watched) finishDrain := by
  refine .bind (onStore_watched _) fun found => ?_
  cases found with
  | none => exact .pure false
  | some current => exact .bind (retireGeneration_watched current) fun _ => .pure true

theorem endDrain_watched : Evolves (Keeps Watched) endDrain :=
  .bind .get fun _ => .when (.bind finishDrain_watched fun _ => .when (watched_waits.fail _))

theorem stop_watched : Evolves (Keeps Watched) stop := by
  intro server watched
  have kept := watched_waits.external server watched
  unfold stop
  generalize external server = result at kept
  obtain ⟨after, halt | answer⟩ := result
  · exact ⟨kept.absent, kept.seen, kept.known⟩
  · exact ⟨kept.absent, kept.seen, kept.known⟩

theorem stopCarriers_watched (message : String) : Evolves (Keeps Watched) (stopCarriers message) := by
  refine .bind .get fun _ => .ite (.bind (.attempt stop_watched) fun result => ?_) (.pure none)
  cases result with
  | error error => exact .pure _
  | ok answer => exact .ite (.pure _) (.bind (watched_modify fun _ => rfl) fun _ => .pure none)

theorem settle_watched {steps : List (Call Unit)} (each : ∀ step ∈ steps, Evolves (Keeps Watched) step) :
    Evolves (Keeps Watched) (settle steps) := by
  induction steps with
  | nil => exact .settle_nil
  | cons step rest ih =>
    exact .settle_cons (each step List.mem_cons_self) (ih fun other member =>
      each other (List.mem_cons_of_mem _ member))

theorem shutdownAll_watched : Evolves (Keeps Watched) shutdownAll := by
  refine .bind settleOwners_watched fun found => .bind .get fun _ => .ite (.pure _) ?_
  refine .bind .get fun _ => .bind (settle_watched fun step member => ?_) fun idle =>
    .bind (stopCarriers_watched _) fun stopped => ?_
  · cases List.eq_of_mem_replicate member
    exact watched_waits.ignore
  · cases stopped with
    | some error => exact .pure _
    | none =>
      refine .bind (settle_watched fun step member => ?_) fun _ => .pure _
      simp only [List.mem_cons, List.not_mem_nil, or_false] at member
      rcases member with rfl | rfl | rfl | rfl | rfl | rfl | rfl
      · exact closeListener_watched
      · exact settleClosedConnections_watched
      · exact endDrain_watched
      · exact .bind .get fun _ => .when retireCurrent_watched
      · exact shutdownApp_watched
      · exact closeTls_watched
      · exact uninstall_watched

theorem rollbackStart_watched : Evolves (Keeps Watched) rollbackStart := by
  have undo : Evolves (Keeps Watched)
      (settle [closeListener, shutdownApp, retireCurrent, closeTls, uninstall]) := by
    refine settle_watched fun step member => ?_
    simp only [List.mem_cons, List.not_mem_nil, or_false] at member
    rcases member with rfl | rfl | rfl | rfl | rfl
    · exact closeListener_watched
    · exact shutdownApp_watched
    · exact retireCurrent_watched
    · exact closeTls_watched
    · exact uninstall_watched
  refine .bind .get fun _ => .ite (.bind stopAcceptOwner_watched fun first => .bind .get fun _ =>
    .ite (.pure _) ?_) undo
  refine .bind (stopCarriers_watched _) fun stopped => ?_
  cases stopped with
  | some error => exact .pure _
  | none => exact .bind undo fun _ => .pure _

theorem driveDrain_watched : Evolves (Keeps Watched) driveDrain := by
  refine .bind .get fun _ => .ite (.pure _) (.ite (.bind finishDrain_watched fun _ => .pure _) ?_)
  refine .bind watched_waits.nowMs fun _ => .ite ?_ (.pure _)
  exact .bind watched_waits.forceCloseConnections fun _ => .bind .get fun _ =>
    .bind (.when (.bind finishDrain_watched fun _ => .pure _)) fun _ => .pure _

theorem requestStop_watched : Evolves (Keeps Watched) requestStop :=
  .bind .get fun _ => .when (.bind (watched_waits.onLifecycle _) fun _ =>
    .bind watched_waits.nowMs fun _ => watched_modify fun _ => rfl)

end Sight

section Start

/-- No connection comes during a `start` whose `spawn_accept` raises with its handle published. -/
def CalmStart (answers : List Answer) (spawning : Spawn) : Prop :=
  spawning.raises = true → spawning.publishes = true →
    (∀ event ∈ spawning.landed, event.calm = true) ∧ ∀ answer ∈ answers, ∀ event ∈ answer.landed,
    event.calm = true

/-- The server before the accept owner is spawned. -/
structure Unspawned (server : GatewayServer) : Prop where
  connections : server.connections = []
  owners : server.connectionOwners = []
  owned : server.owned = []
  gone : server.alive = false
  calm : CalmStart server.answers server.spawning

theorem Unspawned.vacant {server : GatewayServer} (unspawned : Unspawned server) : Vacant server :=
  ⟨unspawned.connections, unspawned.owners, unspawned.owned, .inl unspawned.gone⟩

theorem land_control (server : GatewayServer) (event : Event) :
    (land server event).spawning = server.spawning ∧ (land server event).busy = server.busy := by
  cases event with
  | accepts connection | owns connection thread =>
    simp only [land]
    split <;> exact ⟨rfl, rfl⟩
  | leaves connection | closes connection | counts metrics => exact ⟨rfl, rfl⟩
  | refers references =>
    simp only [land]
    split <;> exact ⟨rfl, rfl⟩

theorem unspawned_waits : Waits (Keeps Unspawned) where
  lands := by
    intro server answer rest found unspawned
    refine landed_invariant (fun event _ server unspawned => ?_)
      (⟨unspawned.connections, unspawned.owners, unspawned.owned,
      unspawned.gone, fun raises publishes => ?_⟩ : Unspawned { server with answers := rest })
    · obtain ⟨connections, owners, owned, -⟩ :=
        land_vacant (.inl unspawned.gone : server.alive = false ∨ event.calm = true) unspawned.vacant
      obtain ⟨alive, -, -, answers⟩ := land_sight server event
      refine ⟨connections, owners, owned, alive.trans unspawned.gone, ?_⟩
      rw [answers, (land_control server event).1]
      exact unspawned.calm
    · obtain ⟨spawn, calm⟩ := unspawned.calm raises publishes
      exact ⟨spawn, fun other member => calm other (found ▸ List.mem_cons_of_mem _ member)⟩
  lifecycle := fun _ _ unspawned =>
    ⟨unspawned.connections, unspawned.owners, unspawned.owned, unspawned.gone, unspawned.calm⟩
  seesAccept := fun _ unspawned =>
    ⟨unspawned.connections, unspawned.owners, unspawned.owned, rfl, unspawned.calm⟩
  seesConnection := fun _ _ unspawned =>
    ⟨unspawned.connections, unspawned.owners, unspawned.owned, unspawned.gone, unspawned.calm⟩
  forgets := by
    intro server connection _ unspawned
    unfold forget
    rw [if_neg (unspawned.owners ▸ List.not_mem_nil)]
    exact unspawned

/-- `prepare` is a row of calls with changes of the fields behind them. -/
theorem prepare_evolves {R : GatewayServer → GatewayServer → Prop} [IsPreorder GatewayServer R]
    (waits : Waits R) (installed : ∀ server, R server { server with processControlInstalled := true })
    (startup : ∀ server, R server { server with appStarted := true, log := server.log ++ [.startup] })
    (opened : ∀ server fd, R server { server with listenerFd := fd })
    (started : ∀ server, R server { server with poolStarted := true, log := server.log ++
      [.poolStarted] }) : Evolves R prepare := by
  refine .bind .get fun server => .bind (.when (.bind waits.external fun _ => .modify installed)) fun _ =>
    .bind waits.external fun _ => .bind (.modify startup) fun _ => .bind (.when waits.ignore) fun _ =>
      .bind ?_ fun _ => .bind ?_ fun _ =>
    .when (.bind waits.external fun _ => .when (.raise _))
  · exact .bind waits.external fun answer => .bind (.modify fun server => opened server _) fun _ =>
      .ite (.raise _) (waits.onLifecycle _)
  · exact .bind waits.external fun answer => .ite (.raise _) (.modify started)

theorem prepare_watched : Evolves (Keeps Watched) prepare :=
  prepare_evolves watched_waits (fun _ => Watched.same rfl) (fun _ => Watched.same rfl) (fun _ _ =>
    Watched.same rfl)
    fun _ => Watched.same rfl

theorem prepare_unspawned : Evolves (Keeps Unspawned) prepare :=
  have same {before after : GatewayServer} (unspawned : Unspawned before)
      (parts : (after.connections, after.connectionOwners, after.owned, after.alive, after.answers,
        after.spawning) =
        (before.connections, before.connectionOwners, before.owned, before.alive, before.answers,
          before.spawning)) : Unspawned after := by
    simp only [Prod.mk.injEq] at parts
    obtain ⟨connections, owners, owned, alive, answers, spawning⟩ := parts
    exact ⟨connections.trans unspawned.connections, owners.trans unspawned.owners,
      owned.trans unspawned.owned, alive.trans unspawned.gone, answers ▸ spawning ▸ unspawned.calm⟩
  prepare_evolves unspawned_waits (fun _ unspawned => same unspawned rfl) (fun _ unspawned =>
    same unspawned rfl)
    (fun _ _ unspawned => same unspawned rfl) fun _ unspawned => same unspawned rfl

/-- The accounts before the listener has ever been closed. -/
def Opening (state : Account) : Prop := Accounted state ∧ .closeListener ∉ state.log

theorem prepare_opening : Evolves (Keeps fun server => Opening (account server)) prepare := by
  have waits : Waits (Keeps fun server => Opening (account server)) := by
    have fixes {before after : GatewayServer} (same : Fixes account before after) :
        Opening (account before) → Opening (account after) :=
      Eq.mpr (congrArg Opening same)
    exact ⟨fun _ _ _ found => fixes (account_waits.lands _ _ _ found), fun _ _ => fixes rfl, fun _ =>
      fixes rfl, fun _ _ => fixes rfl, fun _ _ seen => fixes (account_waits.forgets _ _ seen)⟩
  refine prepare_evolves waits (fun _ opening => opening) (fun server opening => ⟨opening.1.startup, ?_⟩)
    (fun server fd opening => ⟨opening.1.listen opening.2 fd, opening.2⟩) fun server opening =>
      ⟨opening.1.poolStarted, ?_⟩
  · simpa [account] using opening.2
  · simpa [account] using opening.2

/-- The accept owner is known when it is there. -/
theorem spawnAccept_watched : Evolves (Keeps Watched) spawnAccept := by
  intro server watched
  obtain ⟨alive, thread, -, answers⟩ :=
    landed_sight { server with alive := server.alive || server.spawning.there } server.spawning.landed
  have seen := @landed_invariant
    (fun server => ∀ connection ∈ server.owned, connection ∈ server.connectionOwners ∨
      connection ∈ server.observed)
    server.spawning.landed (fun event _ => land_seen event)
    { server with alive := server.alive || server.spawning.there } watched.seen
  refine (⟨fun absent => ?_, seen, ?_⟩ : Watched (spawned server))
  · simp only [spawned] at absent ⊢
    cases there : server.spawning.there with
    | true =>
      rw [there] at absent
      cases absent
    | false =>
      rw [there] at absent alive thread
      exact alive.trans ((Bool.or_false _).trans (watched.absent (thread.symm.trans absent)))
  · exact fun answer member => watched.known answer (answers ▸ member)

theorem spawnAccept_account : Evolves (Fixes account) spawnAccept := by
  intro server
  exact @landed_invariant (fun after => account after = account server) server.spawning.landed
    (fun event _ after same => (land_account after event).trans same)
    { server with alive := server.alive || server.spawning.there } rfl

/-- A `spawn_accept` that raises has brought no connection. -/
theorem spawnAccept_vacant {server : GatewayServer} (unspawned : Unspawned server) :
    Ends spawnAccept server (fun _ _ => True) (fun _ => Vacant) := by
  unfold Ends spawnAccept
  cases raises : server.spawning.raises with
  | false => trivial
  | true =>
    have vacant : Vacant (server.spawning.landed.foldl land
        { server with alive := server.alive || server.spawning.there }) := by
      cases publishes : server.spawning.publishes with
      | false =>
        have away : server.spawning.there = false := by simp [Spawn.there, raises, publishes]
        have gone : (server.alive || server.spawning.there) = false := by
          rw [away, Bool.or_false, unspawned.gone]
        have start : Vacant { server with alive := server.alive || server.spawning.there } :=
          ⟨unspawned.connections, unspawned.owners, unspawned.owned, .inl gone⟩
        refine (@landed_invariant (fun after =>
          Vacant after ∧ after.alive = false) _ (fun event _ after both => ?_) _ ⟨start, gone⟩).1
        exact ⟨land_vacant (.inl both.2) both.1, (land_sight after event).1.trans both.2⟩
      | true =>
        obtain ⟨spawn, calm⟩ := unspawned.calm raises publishes
        have start : Vacant { server with alive := server.alive || server.spawning.there } :=
          ⟨unspawned.connections, unspawned.owners, unspawned.owned, .inr calm⟩
        exact landed_invariant
          (fun event member _ vacant => land_vacant (.inr (spawn event member)) vacant) start
    exact ⟨vacant.connections, vacant.owners, vacant.owned, vacant.calm⟩

/-- When `start` fails, there is no connection. -/
theorem prepare_spawnAccept {server : GatewayServer} (opening : Opening (account server))
    (watched : Watched server) (unspawned : Unspawned server) :
    Ends (do prepare; spawnAccept) server (fun _ after => Accounted (account after))
      (fun _ after => Accounted (account after) ∧ Watched after ∧ Vacant after) := by
  have prepared := ((Method.evolves_keeps_iff.mp prepare_watched server watched).and
    (Method.evolves_keeps_iff.mp prepare_unspawned server unspawned)).and
    (Method.evolves_keeps_iff.mp prepare_opening server opening)
  rw [Method.ends_bind]
  refine prepared.mono (fun _ after all => ?_) fun _ after all => ⟨all.2.1, all.1.1, all.1.2.vacant⟩
  obtain ⟨⟨watched, unspawned⟩, opening⟩ := all
  have spawned := ((Method.evolves_keeps_iff.mp spawnAccept_watched after watched).and
    (spawnAccept_vacant unspawned)).and
    (spawnAccept_account.ends (s := after))
  refine spawned.mono (fun _ last all => ?_) fun _ last all => ⟨?_, all.1.1, all.1.2⟩
  · exact Eq.mpr (congrArg Accounted all.2) opening.1
  · exact Eq.mpr (congrArg Accounted all.2) opening.1

/-- `start` makes its calls in order. -/
theorem start_accounted {server : GatewayServer} (opening : Opening (account server))
    (watched : Watched server) (unspawned : Unspawned server) :
    Settles start server (fun after => Accounted (account after)) (fun after => Ordered after.log) := by
  simp only [start, Settles, Method.ends_bind, Method.ends_get]
  refine .ite (fun _ => opening.1) fun _ => ?_
  simp only [Method.ends_bind]
  have begun := ((Method.evolves_keeps_iff.mp (watched_waits.onLifecycle GatewayLifecycle.start)
    server watched).and
    (Method.evolves_keeps_iff.mp (unspawned_waits.onLifecycle GatewayLifecycle.start) server unspawned)).and
    ((account_waits.onLifecycle GatewayLifecycle.start).ends (s := server))
  refine begun.mono (fun _ after all => ?_) fun halt after all => ?_
  · obtain ⟨⟨watched, unspawned⟩, same⟩ := all
    have opening : Opening (account after) := Eq.mpr (congrArg Opening same) opening
    simp only [Thread.ends_attempt]
    refine (prepare_spawnAccept opening watched unspawned).mono (fun _ last accounted => accounted)
      fun halt last all => ?_
    obtain ⟨accounted, watched, vacant⟩ := all
    cases halt with
    | parked | unfinished => exact accounted.ordered
    | raised error =>
      have failed := ((Method.evolves_keeps_iff.mp (watched_waits.fail error.message) last watched).and
        (Method.evolves_keeps_iff.mp (vacant_waits.fail error.message) last vacant)).and
          ((account_waits.fail error.message).ends (s := last))
      refine Method.ends_bind.mpr (failed.mono (fun _ next all => ?_) fun halt next all => ?_)
      · obtain ⟨⟨watched, vacant⟩, same⟩ := all
        have accounted : Accounted (account next) := Eq.mpr (congrArg Accounted same) accounted
        refine Settles.bind (rollbackStart_accounted accounted watched vacant) (fun _ accounted =>
          accounted) fun cleanup _ accounted => ?_
        cases cleanup <;> exact accounted
      · have accounted : Accounted (account next) := Eq.mpr (congrArg Accounted all.2) accounted
        cases halt with
        | raised error => exact accounted
        | parked | unfinished => exact accounted.ordered
  · have accounted : Accounted (account after) := Eq.mpr (congrArg Accounted all.2) opening.1
    cases halt with
    | raised error => exact accounted
    | parked | unfinished => exact accounted.ordered

theorem start_watched : Evolves (Keeps Watched) start := by
  refine .bind .get fun _ => .ite (.raise _) (.bind (watched_waits.onLifecycle _) fun _ =>
    .bind (.attempt (.bind prepare_watched fun _ => spawnAccept_watched)) fun result => ?_)
  cases result with
  | ok _ => exact .pure _
  | error error =>
    refine .bind (watched_waits.fail _) fun _ => .bind rollbackStart_watched fun cleanup => ?_
    cases cleanup <;> exact .raise _

end Start

section Runs

/-- The scheduler reports only the outcomes that there are. -/
def Known (answers : List Answer) : Prop := ∀ answer ∈ answers, ∀ value, answer.outcome ≠ .unknown value

/-- The answers that a step finds. -/
def Step.answers : Step → List Answer
  | .requestStop answers | .reap answers | .driveDrain answers | .shutdownAll answers => answers
  | .acceptOwnerFails _ | .lands _ => []

/-- What holds of a server between two steps. While a call is under way only the calls made so far count. -/
structure Sound (server : GatewayServer) : Prop where
  ordered : Ordered server.log
  accounted : server.busy = false → Accounted (account server)
  watched : server.busy = false → Watched server

theorem calls_sound {α : Type} {call : Call α} {answers : List Answer} {server : GatewayServer}
    (sound : Sound server) (known : Known answers) (watches : Evolves (Keeps Watched) call)
    (settles : Accounted (account server) → Watched { server with answers } →
      Settles call { server with answers } (fun after => Accounted (account after))
        (fun after => Ordered after.log)) :
    Sound (calls call answers server) := by
  unfold calls
  split
  · exact sound
  · rename_i free
    have free : server.busy = false := Bool.eq_false_iff.mpr free
    have start : Watched { server with answers } :=
      ⟨(sound.watched free).absent, (sound.watched free).seen, known⟩
    have watched := watches { server with answers } start
    have settled := settles (sound.accounted free) start
    unfold Settles Ends at settled
    generalize call { server with answers } = result at watched settled
    obtain ⟨after, (error | _ | _) | value⟩ := result
    · exact ⟨settled.ordered, fun _ => settled, fun _ => watched⟩
    · exact ⟨settled, nofun, nofun⟩
    · exact ⟨settled, nofun, nofun⟩
    · exact ⟨settled.ordered, fun _ => settled, fun _ => watched⟩

/-- A call that leaves the accounts. -/
theorem calls_sound_fixes {α : Type} {call : Call α} {answers : List Answer} {server : GatewayServer}
    (sound : Sound server) (known : Known answers) (watches : Evolves (Keeps Watched) call)
    (fixes : Evolves (Fixes account) call) :
    Sound (calls call answers server) :=
  calls_sound sound known watches fun accounted _ => fixes_settles fixes accounted fun _ accounted =>
    accounted.ordered

theorem driveDrain_accounted {server : GatewayServer} (accounted : Accounted (account server)) :
    Settles driveDrain server (fun after => Accounted (account after))
      (fun after => Ordered after.log) := by
  have finishes {server : GatewayServer} (accounted : Accounted (account server)) :
      Settles finishDrain server (fun after => Accounted (account after)) (fun after =>
        Ordered after.log) :=
    (finishDrain_accounted accounted).mono (fun _ both => both.1) fun _ ordered => ordered
  simp only [driveDrain, Settles, Method.ends_bind, Method.ends_get]
  refine .ite (fun _ => accounted) fun _ => .ite (fun _ => ?_) fun _ => ?_
  · exact Settles.bind (finishes accounted) (fun _ accounted => accounted) fun _ _ accounted => accounted
  · refine Settles.bind (fixes_settles account_waits.nowMs accounted fun _ accounted =>
      accounted.ordered) (fun _ accounted => accounted)
      fun now after accounted => .ite (fun _ => ?_) fun _ => accounted
    refine Settles.bind (fixes_settles account_waits.forceCloseConnections accounted fun _
      accounted => accounted.ordered)
      (fun _ accounted => accounted) fun _ after accounted => ?_
    simp only [Settles, Method.ends_bind, Method.ends_get]
    refine Thread.ends_when (fun _ => ?_) fun _ => accounted
    exact Settles.bind (finishes accounted) (fun _ accounted => accounted) fun _ _ accounted => accounted

theorem step_sound {server : GatewayServer} (sound : Sound server) (step : Step)
    (known : Known step.answers) :
    Sound (Shutdown.step server step) := by
  cases step with
  | requestStop answers =>
    exact calls_sound_fixes sound known requestStop_watched
      (.bind .get fun _ => .when (.bind (account_waits.onLifecycle _) fun _ =>
        .bind account_waits.nowMs fun _ => .modify fun _ => rfl))
  | reap answers =>
    exact calls_sound_fixes sound known watched_waits.reapConnectionOwners
      account_waits.reapConnectionOwners
  | driveDrain answers =>
    exact calls_sound sound known driveDrain_watched fun accounted _ => driveDrain_accounted accounted
  | acceptOwnerFails reason =>
    exact calls_sound_fixes sound known (watched_waits.fail reason) (account_waits.fail reason)
  | shutdownAll answers =>
    exact calls_sound sound known shutdownAll_watched fun accounted watched =>
      shutdownAll_accounted accounted watched
  | lands event =>
    have same := land_account server event
    have busy := (land_control server event).2
    refine ⟨?_, fun free => ?_, fun free => land_watched event server (sound.watched (busy ▸ free))⟩
    · exact Eq.mpr (congrArg (fun state => Ordered state.log) same) sound.ordered
    · exact Eq.mpr (congrArg Accounted same) (sound.accounted (busy ▸ free))

/-- A server as it is made has made no call. -/
theorem init_opening (config : Config) (object : Nat) (limits : AdmissionLimits) (resources : List Retained)
    (tlsManager : Option Reload.TlsGenerationManager) :
    Opening (account (init config object limits resources tlsManager)) := by
  refine ⟨⟨nofun, by simp [account, init], by simp [account, init], ?_, nofun,
    by simp [account, init, Generations.init],
    by simp [account, init, Generations.init]⟩, List.not_mem_nil⟩
  intro before entry after parts
  simp [account, init] at parts

/-- A call that finds an owner that is not terminal leaves what the other calls are to tear down. -/
theorem shutdownAll_retains {server after : GatewayServer} {found : Option Exn × Bool}
    (settled : settleOwners server = (after, .ok found))
    (nonterminal : after.acceptThread ≠ none ∨ found.2 = false) :
    account (shutdownAll server).1 = account server := by
  have same := settleOwners_account server
  rw [settled] at same
  unfold shutdownAll
  rw [Method.bind_run, settled]
  simp only [Method.bind_run, Method.get_run, if_pos nonterminal, Method.pure_run]
  exact same

theorem rollbackStart_retains {server after : GatewayServer} {first : Option Exn}
    (started : server.poolStarted = true)
    (stopped : stopAcceptOwner server = (after, .ok first)) (nonterminal : after.acceptThread ≠ none) :
    account (rollbackStart server).1 = account server := by
  have same := stopAcceptOwner_account server
  rw [stopped] at same
  unfold rollbackStart
  simp only [Method.bind_run, Method.get_run, if_pos started, stopped, if_pos nonterminal, Method.pure_run]
  exact same

/-- Teardown is in order over every run in which no connection comes during a `start` that fails
with its accept owner published; a call that finds an owner that is not terminal leaves the
carriers, the listener, the application and the manager of TLS. What is assumed of the scheduler is
that it tells one of its four outcomes. It may raise at every call, and so may the transport, the
application and the hooks; shutdowns may be repeated and may stop anywhere. -/
theorem shutdown_ordering (config : Config) (object : Nat) (limits : AdmissionLimits)
    (resources : List Retained)
    (tlsManager : Option Reload.TlsGenerationManager) (answers : List Answer) (spawning : Spawn)
    (steps : List Step)
    (known : Known answers ∧ ∀ step ∈ steps, Known step.answers) (calm : CalmStart answers spawning) :
    Ordered (run (init config object limits resources tlsManager) answers spawning steps).log ∧
    (∀ server after found, settleOwners server = (after, .ok found) → after.acceptThread ≠ none ∨
      found.2 = false → account (shutdownAll server).1 = account server) ∧
    ∀ server after first, server.poolStarted = true → stopAcceptOwner server = (after, .ok first) →
    after.acceptThread ≠ none → account (rollbackStart server).1 = account server := by
  refine ⟨?_, fun _ _ _ => shutdownAll_retains, fun _ _ _ => rollbackStart_retains⟩
  have opening := init_opening config object limits resources tlsManager
  have fresh : Sound { init config object limits resources tlsManager with spawning } :=
    ⟨opening.1.ordered, fun _ => opening.1, fun _ => ⟨fun _ => rfl, nofun, nofun⟩⟩
  have started : Sound (calls start answers { init config object limits resources tlsManager with
      spawning }) :=
    calls_sound fresh known.1 start_watched fun accounted watched =>
      start_accounted opening watched ⟨rfl, rfl, rfl, rfl, calm⟩
  have reached : Sound (run (init config object limits resources tlsManager) answers spawning steps) := by
    unfold run
    generalize calls start answers { init config object limits resources tlsManager with spawning } =
      server at started
    obtain ⟨-, known⟩ := known
    induction steps generalizing server with
    | nil => exact started
    | cons step steps ih =>
      exact ih _ (step_sound started step (known step List.mem_cons_self)) fun other member =>
        known other (List.mem_cons_of_mem _ member)
  exact reached.ordered

/-- A call that returns, with nothing else to say. -/
def returns : Answer := {}

/-- The answers of a `start` that gets as far as the accept owner. -/
def startAnswers : List Answer := [returns, returns, returns, { value := 3 }, { value := 1 }]

/-- A start that fails, and a shutdown that finds nothing to wait for. -/
theorem shutdown_ordering_failed :
    Ordered (run (init {} 0 {} [] none) (startAnswers ++ List.replicate 4 returns)
      { raises := true, publishes := false } [.shutdownAll (List.replicate 6 returns)]).log := by
  refine (shutdown_ordering {} 0 {} [] none _ { raises := true, publishes := false }
    [.shutdownAll (List.replicate 6 returns)]
    ⟨?_, ?_⟩ fun _ published => Bool.noConfusion published).1
  · simp [Known, startAnswers, returns]
  · simp [Known, Step.answers, returns]

/-- A connection is accepted before `spawn_accept` raises with its handle published: the rollback
stops the carriers under it. -/
theorem rollback_stops_carriers :
    ¬ Ordered (run (init {} 0 {} [] none) (startAnswers ++ [returns, returns,
      { outcome := .cancelled }, returns])
      { raises := true, landed := [.accepts 7, .owns 7 1] } []).log := by
  intro ordered
  exact Bool.false_ne_true (ordered.quiet false true (by decide +kernel))

end Runs
end Shutdown
end PccGateway
