import PccGateway.Lib.Counting
import PccGateway.Lifecycle.ShutdownOwners

namespace PccGateway
namespace Shutdown
open Method (get modify Evolves Ends Keeps Fixes)
open Thread (attempt when settle Settles)

/-- What the accounts of a server are about. -/
structure Account where
  log : List Entry
  listenerFd : Int
  appStarted : Bool
  poolStarted : Bool
  tlsManager : Option Reload.TlsGenerationManager
  current : Nat
  /-- Whether the current generation is retired. -/
  retired : Option Bool

def account (server : GatewayServer) : Account where
  log := server.log
  listenerFd := server.listenerFd
  appStarted := server.appStarted
  poolStarted := server.poolStarted
  tlsManager := server.tlsManager
  current := server.store.current
  retired := server.store.generations[server.store.current]?.map fun generation => generation.retired

theorem land_account (server : GatewayServer) (event : Event) :
    account (land server event) = account server := by
  cases event with
  | accepts connection | owns connection thread =>
    simp only [land]
    split <;> rfl
  | leaves connection | closes connection | counts metrics => rfl
  | refers references =>
    simp only [land]
    split
    · rfl
    · rename_i generation found
      simp only [account, Generations.put, Counting.set_at found, if_true, Option.map_some, found]

theorem account_waits : Waits (Fixes account) where
  lands := fun server answer rest _ =>
    @landed_invariant (fun after => account after = account server) _ (fun event _ after same =>
      (land_account after event).trans same)
      { server with answers := rest } rfl
  lifecycle := fun _ _ => rfl
  seesAccept := fun _ => rfl
  seesConnection := fun _ _ => rfl
  forgets := by
    intro server connection _
    unfold Fixes forget
    split <;> rfl

theorem stopAcceptOwner_account :
    Evolves (Fixes account) stopAcceptOwner := account_waits.stopAcceptOwner fun _ => rfl

/-- A connection or an accept owner that waits changes nothing that `_shutdown_all` tears down. -/
theorem settleOwners_account :
    Evolves (Fixes account) settleOwners := account_waits.settleOwners stopAcceptOwner_account

/-- The calls that have to wait for the carriers. -/
def Entry.late : Entry → Bool
  | .closeListener | .appShutdown => true
  | .startup | .poolStarted | .stop _ _ | .retire _ => false

def Entry.retires : Entry → Bool
  | .retire _ => true
  | .startup | .poolStarted | .stop _ _ | .closeListener | .appShutdown => false

/-- Carriers that were started have been stopped when the listener is closed or the application is
shut down. -/
def Late (log : List Entry) : Prop :=
  ∀ before entry after, log = before ++ entry :: after → entry.late = true → .poolStarted ∈ before →
    .stop true true ∈ before

/-- The order of the calls. -/
structure Ordered (log : List Entry) : Prop where
  quiet : ∀ quiescent succeeded, .stop quiescent succeeded ∈ log → quiescent = true
  listener : log.count .closeListener ≤ 1
  app : log.count .appShutdown ≤ log.count .startup
  late : Late log
  retired : log.countP Entry.retires ≤ 1

/-- What the fields of the server have to do with the calls. -/
structure Accounted (state : Account) : Prop where
  quiet : ∀ quiescent succeeded, .stop quiescent succeeded ∈ state.log → quiescent = true
  listener : state.log.count .closeListener + (if 0 ≤ state.listenerFd then 1 else 0) ≤ 1
  app : state.log.count .appShutdown + (if state.appStarted then 1 else 0) ≤ state.log.count .startup
  late : Late state.log
  pool : .poolStarted ∈ state.log → state.poolStarted = true ∨ .stop true true ∈ state.log
  present : state.retired ≠ none
  retired : state.log.countP Entry.retires + (if state.retired = some false then 1 else 0) ≤ 1

theorem Accounted.ordered {state : Account} (accounted : Accounted state) : Ordered state.log where
  quiet := accounted.quiet
  listener := Nat.le_trans (Nat.le_add_right _ _) accounted.listener
  app := Nat.le_trans (Nat.le_add_right _ _) accounted.app
  late := accounted.late
  retired := Nat.le_trans (Nat.le_add_right _ _) accounted.retired

theorem Late.concat {log : List Entry} {entry : Entry} (late : Late log)
    (allowed : entry.late = true → .poolStarted ∈ log → .stop true true ∈ log) : Late (log ++ [entry]) := by
  intro before other after parts isLate
  rcases List.eq_nil_or_concat after with rfl | ⟨init, last, rfl⟩
  · obtain ⟨rfl, same⟩ := List.append_inj' parts rfl
    cases same
    exact allowed isLate
  · rw [List.concat_eq_append, ← List.cons_append, ← List.append_assoc] at parts
    obtain ⟨rest, -⟩ := List.append_inj' parts rfl
    exact late before other init rest isLate

/-- A server whose carriers do not run. -/
structure Torn (state : Account) : Prop where
  accounted : Accounted state
  stopped : state.poolStarted = false

theorem Torn.allowed {state : Account} (torn : Torn state) :
    .poolStarted ∈ state.log → .stop true true ∈ state.log := fun started =>
  (torn.accounted.pool started).resolve_left fun runs => Bool.false_ne_true (torn.stopped.symm.trans runs)

section Entries
variable {state : Account}

theorem Torn.ordered (torn : Torn state) : Ordered state.log := torn.accounted.ordered

/-- The listener is closed. -/
theorem Torn.closed (torn : Torn state) (isOpen : 0 ≤ state.listenerFd) :
    Torn { state with log := state.log ++ [.closeListener], listenerFd := -1 } := by
  obtain ⟨quiet, listener, app, late, pool, present, retired⟩ := torn.accounted
  rw [if_pos isOpen] at listener
  refine ⟨⟨?_, ?_, ?_, late.concat fun _ => torn.allowed, ?_, present, ?_⟩, torn.stopped⟩
  · simpa using quiet
  · simpa [List.count_append] using listener
  · simpa [List.count_append] using app
  · exact fun started => .inr (List.mem_append_left _ (torn.allowed (by simpa using started)))
  · simpa [List.countP_append, Entry.retires] using retired

/-- The application is being shut down. -/
theorem Torn.shuttingDown (torn : Torn state) (started : state.appStarted = true) :
    Ordered (state.log ++ [.appShutdown]) ∧
    Torn { state with log := state.log ++ [.appShutdown], appStarted := false } := by
  obtain ⟨quiet, listener, app, late, pool, present, retired⟩ := torn.accounted
  rw [if_pos started] at app
  have torn : Torn { state with log := state.log ++ [.appShutdown], appStarted := false } := by
    refine ⟨⟨?_, ?_, ?_, late.concat fun _ => torn.allowed, ?_, present, ?_⟩, torn.stopped⟩
    · simpa using quiet
    · simpa [List.count_append] using listener
    · simpa [List.count_append] using app
    · exact fun started => .inr (List.mem_append_left _ (torn.allowed (by simpa using started)))
    · simpa [List.countP_append, Entry.retires] using retired
  exact ⟨torn.ordered, torn⟩

/-- The current generation is retired. -/
theorem Accounted.retire (accounted : Accounted state) (unretired : state.retired = some false) (id : Nat) :
    Accounted { state with log := state.log ++ [.retire id], retired := some true } := by
  obtain ⟨quiet, listener, app, late, pool, -, retired⟩ := accounted
  rw [if_pos unretired] at retired
  refine ⟨?_, ?_, ?_, late.concat nofun, ?_, nofun, ?_⟩
  · simpa using quiet
  · simpa [List.count_append] using listener
  · simpa [List.count_append] using app
  · exact fun started => (pool (by simpa using started)).imp_right (List.mem_append_left _)
  · simpa [List.countP_append, Entry.retires] using retired

/-- `scheduler.stop` is called when no owner is left. -/
theorem Accounted.stop (accounted : Accounted state) (succeeded : Bool) :
    Accounted { state with log := state.log ++ [.stop true succeeded] } := by
  obtain ⟨quiet, listener, app, late, pool, present, retired⟩ := accounted
  refine ⟨?_, ?_, ?_, late.concat nofun, ?_, present, ?_⟩
  · intro quiescent succeeded member
    rcases List.mem_append.mp member with old | new
    · exact quiet quiescent succeeded old
    · cases List.mem_singleton.mp new
      rfl
  · simpa [List.count_append] using listener
  · simpa [List.count_append] using app
  · exact fun started => (pool (by simpa using started)).imp_right (List.mem_append_left _)
  · simpa [List.countP_append, Entry.retires] using retired

/-- The carriers have joined. -/
theorem Accounted.stopped (accounted : Accounted state) (stopped : .stop true true ∈ state.log) :
    Torn { state with poolStarted := false } :=
  ⟨⟨accounted.quiet, accounted.listener, accounted.app, accounted.late, fun _ => .inr stopped,
    accounted.present, accounted.retired⟩, rfl⟩

/-- The application is started. -/
theorem Accounted.startup (accounted : Accounted state) :
    Accounted { state with log := state.log ++ [.startup], appStarted := true } := by
  obtain ⟨quiet, listener, app, late, pool, present, retired⟩ := accounted
  refine ⟨?_, ?_, ?_, late.concat nofun, ?_, present, ?_⟩
  · simpa using quiet
  · simpa [List.count_append] using listener
  · simpa [List.count_append] using Nat.le_trans (Nat.le_add_right _ _) app
  · exact fun started => (pool (by simpa using started)).imp_right (List.mem_append_left _)
  · simpa [List.countP_append, Entry.retires] using retired

/-- The carriers are started. -/
theorem Accounted.poolStarted (accounted : Accounted state) :
    Accounted { state with log := state.log ++ [.poolStarted], poolStarted := true } := by
  obtain ⟨quiet, listener, app, late, pool, present, retired⟩ := accounted
  refine ⟨?_, ?_, ?_, late.concat nofun, fun _ => .inl rfl, present, ?_⟩
  · simpa using quiet
  · simpa [List.count_append] using listener
  · simpa [List.count_append] using app
  · simpa [List.countP_append, Entry.retires] using retired

/-- The listener is opened for the first time. -/
theorem Accounted.listen (accounted : Accounted state) (first : .closeListener ∉ state.log) (fd : Int) :
    Accounted { state with listenerFd := fd } := by
  obtain ⟨quiet, -, app, late, pool, present, retired⟩ := accounted
  refine ⟨quiet, ?_, app, late, pool, present, retired⟩
  rw [List.count_eq_zero_of_not_mem first, Nat.zero_add]
  split <;> omega

end Entries

section Teardown
variable {server : GatewayServer}

/-- What leaves the accounts keeps what they say. -/
theorem fixes_settles {α : Type} {call : Call α} (fixes : Evolves (Fixes account) call)
    {P : Account → Prop} (holds : P (account server))
    (weaker : ∀ state, P state → Ordered state.log) :
    Settles call server (fun after => P (account after)) (fun after => Ordered after.log) := by
  have kept : Evolves (Keeps fun server => P (account server)) call :=
    fixes.mono fun before after same holds =>
    Eq.mpr (congrArg P same) holds
  exact kept.settles holds fun after holds => weaker _ holds

theorem external_torn (torn : Torn (account server)) :
    Settles (do let _ ← external; return ()) server (fun after => Torn (account after))
      (fun after => Ordered after.log) :=
  fixes_settles account_waits.ignore torn fun _ torn => torn.ordered

theorem closeListener_torn (torn : Torn (account server)) :
    Settles closeListener server (fun after => Torn (account after)) (fun after => Ordered after.log) := by
  simp only [closeListener, Settles, Method.ends_bind, Method.ends_get]
  refine Thread.ends_when (fun isOpen => ?_) fun _ => torn
  simp only [Method.ends_bind, Method.ends_modify, note]
  have closed := torn.closed isOpen
  exact Method.ends_bind.mp
    (@external_torn { server with listenerFd := -1, log := server.log ++ [.closeListener] } closed)

theorem shutdownApp_torn (torn : Torn (account server)) :
    Settles shutdownApp server (fun after => Torn (account after)) (fun after => Ordered after.log) := by
  simp only [shutdownApp, Settles, Method.ends_bind, Method.ends_get]
  refine Thread.ends_when (fun started => ?_) fun _ => torn
  simp only [Method.ends_bind, Method.ends_modify, note]
  obtain ⟨ordered, down⟩ := torn.shuttingDown started
  -- the field is reset when `app.shutdown` is over, so that the accounts do not hold in between
  have during := @fixes_settles { server with log := server.log ++ [.appShutdown] } _ _ account_waits.ignore
    (fun state => Ordered state.log ∧ Torn { state with appStarted := false }) ⟨ordered, down⟩ fun _
      both => both.1
  refine Settles.attempt during fun result after both => ?_
  cases result <;> exact both.2

/-- `retire` raises, or turns the flag of its generation. -/
theorem retire_flag {store : Generations} {id : Nat} {generation : GatewayGeneration}
    (found : store.generations[id]? = some generation) :
    Ends (Generations.retire id) store
      (fun _ after => generation.retired = false ∧ after.current = store.current ∧
        after.generations[id]?.map (fun generation => generation.retired) = some true)
      (fun _ after => after = store) := by
  unfold Ends Generations.retire
  simp only [found]
  by_cases retired : generation.retired = true
  · simp only [if_pos retired]
  · simp only [if_neg retired]
    by_cases isOver : generation.released = true ∨ generation.references ≤ 0
    · simp only [if_pos isOver]
    · simp only [if_neg isOver, Generations.put, Counting.set_at found, if_true, Option.map_some]
      refine ⟨by simpa using retired, trivial, ?_⟩
      unfold GatewayGeneration.drop
      split <;> rfl

/-- `retire` of the current generation, once. -/
theorem retireGeneration_accounted (accounted : Accounted (account server)) :
    Settles (retireGeneration server.store.current) server
      (fun after => Accounted (account after) ∧ after.poolStarted = server.poolStarted)
      (fun after => Ordered after.log) := by
  obtain ⟨generation, found⟩ :
      ∃ generation, server.store.generations[server.store.current]? = some generation :=
    Option.ne_none_iff_exists'.mp fun isNone => accounted.present (by simp [account, isNone])
  simp only [retireGeneration, Settles, Method.ends_bind, onStore, Thread.ends_call, Method.ends_on]
  refine (retire_flag found).mono (fun resources store flag => ?_) fun error store same => ?_
  · obtain ⟨unretired, current, turned⟩ := flag
    have was : (account server).retired = some false := by simp [account, found, unretired]
    have now := accounted.retire was server.store.current
    simp only [Method.ends_modify, note]
    have same : account { server with store, log := server.log ++ [.retire server.store.current] } =
        { account server with log := server.log ++ [.retire server.store.current], retired := some true } := by
      simp only [account, current, turned]
    have start : Accounted (account { server with store, log := server.log ++
        [.retire server.store.current] }) ∧
        (account { server with store, log := server.log ++
          [.retire server.store.current] }).poolStarted = server.poolStarted :=
      ⟨same ▸ now, rfl⟩
    exact fixes_settles (Evolves.when account_waits.ignore)
      (P := fun state => Accounted state ∧ state.poolStarted = server.poolStarted)
      start fun _ both => both.1.ordered
  · rw [same]
    exact ⟨accounted, trivial⟩

theorem retireCurrent_torn (torn : Torn (account server)) :
    Settles retireCurrent server (fun after => Torn (account after)) (fun after => Ordered after.log) := by
  simp only [retireCurrent, Settles, Method.ends_bind, Method.ends_get]
  refine Thread.ends_when (fun _ => ?_) fun _ => torn
  exact (retireGeneration_accounted torn.accounted).mono (fun after both =>
    ⟨both.1, both.2.trans torn.stopped⟩) fun _ ordered => ordered

/-- The section of `finish_drain` leaves the generations, and names the current one. -/
theorem finishDrain_section (server : GatewayServer) :
    Ends (onStore (Generations.finishDrain false)) server
      (fun found after => (∃ lifecycle, after = { server with store := { server.store with lifecycle } }) ∧
        ∀ id, found = some id → id = server.store.current)
      (fun _ after => ∃ lifecycle, after = { server with store := { server.store with lifecycle } }) := by
  simp only [onStore, Thread.ends_call, Method.ends_on, Generations.finishDrain,
    Generations.onLifecycle, Method.ends_bind, Method.ends_get, Method.ends_pure]
  unfold Ends
  generalize GatewayLifecycle.finishDrain false server.store.lifecycle = result
  obtain ⟨lifecycle, error | finished⟩ := result
  · exact ⟨lifecycle, rfl⟩
  · refine ⟨⟨lifecycle, rfl⟩, fun id is => ?_⟩
    cases finished with
    | false => cases is
    | true => exact (Option.some.inj is).symm

theorem finishDrain_accounted (accounted : Accounted (account server)) :
    Settles finishDrain server
      (fun after => Accounted (account after) ∧ after.poolStarted = server.poolStarted)
      (fun after => Ordered after.log) := by
  simp only [finishDrain, Settles, Method.ends_bind]
  refine (finishDrain_section server).mono (fun found after drained => ?_) fun error after drained => ?_
  · obtain ⟨⟨lifecycle, rfl⟩, current⟩ := drained
    cases found with
    | none => exact ⟨accounted, rfl⟩
    | some id =>
      cases current id rfl
      refine Settles.bind (@retireGeneration_accounted { server with store := { server.store with
        lifecycle } } accounted)
        (fun _ both => both) fun _ _ both => both
  · obtain ⟨lifecycle, rfl⟩ := drained
    cases error with
    | raised error => exact ⟨accounted, rfl⟩
    | parked | unfinished => exact accounted.ordered

theorem endDrain_torn (torn : Torn (account server)) :
    Settles endDrain server (fun after => Torn (account after)) (fun after => Ordered after.log) := by
  simp only [endDrain, Settles, Method.ends_bind, Method.ends_get]
  refine Thread.ends_when (fun _ => ?_) fun _ => torn
  have finished : Settles finishDrain server (fun after => Torn (account after)) (fun after =>
      Ordered after.log) :=
    (finishDrain_accounted torn.accounted).mono (fun after both =>
      ⟨both.1, both.2.trans torn.stopped⟩) fun _ ordered => ordered
  refine Settles.bind finished (fun _ torn => torn) fun finished after torn => ?_
  exact fixes_settles (Evolves.when (account_waits.fail _)) torn fun _ torn => torn.ordered

theorem retireUnlessStopped_torn (torn : Torn (account server)) :
    Settles retireUnlessStopped server (fun after => Torn (account after))
      (fun after => Ordered after.log) := by
  simp only [retireUnlessStopped, Settles, Method.ends_bind, Method.ends_get]
  exact Thread.ends_when (fun _ => retireCurrent_torn torn) fun _ => torn

theorem settleClosedConnections_torn (torn : Torn (account server)) :
    Settles settleClosedConnections server (fun after => Torn (account after))
      (fun after => Ordered after.log) := by
  have fixes : Evolves (Fixes account) settleClosedConnections :=
    .bind account_waits.connectionSnapshot fun _ =>
      .bind account_waits.connectionOwnerSnapshot fun _ => .when (.raise _)
  exact fixes_settles fixes torn fun _ torn => torn.ordered

theorem closeTls_torn (torn : Torn (account server)) :
    Settles closeTls server (fun after => Torn (account after)) (fun after => Ordered after.log) := by
  simp only [closeTls, Settles, Method.ends_bind, Method.ends_get]
  cases server.tlsManager with
  | none => exact torn
  | some manager =>
    refine Thread.ends_when (fun _ => ?_) fun _ => torn
    simp only [Method.ends_bind, Method.ends_modify]
    have shut : Torn (account { server with tlsManager := some manager.shut }) :=
      ⟨⟨torn.accounted.quiet, torn.accounted.listener, torn.accounted.app, torn.accounted.late,
        torn.accounted.pool, torn.accounted.present, torn.accounted.retired⟩, torn.stopped⟩
    exact Method.ends_bind.mp (external_torn shut)

theorem uninstall_torn (torn : Torn (account server)) :
    Settles uninstall server (fun after => Torn (account after)) (fun after => Ordered after.log) := by
  have fixes : Evolves (Fixes account) uninstall :=
    .bind .get fun _ => .when (.bind account_waits.external fun _ => .modify fun _ => rfl)
  exact fixes_settles fixes torn fun _ torn => torn.ordered

/-- The carriers are stopped only when no owner is left. -/
theorem stopCarriers_accounted (message : String) (accounted : Accounted (account server))
    (quiescent : Quiescent server) :
    Ends (stopCarriers message) server
      (fun error after => Accounted (account after) ∧ (error = none → Torn (account after)))
      (fun halt after => (∀ error, halt ≠ .raised error) ∧ Ordered after.log) := by
  simp only [stopCarriers, Method.ends_bind, Method.ends_get]
  refine .ite (fun _ => ?_) fun notStarted => ⟨accounted, fun _ =>
    ⟨accounted, Bool.eq_false_iff.mpr notStarted⟩⟩
  simp only [Method.ends_bind, Thread.ends_attempt]
  have called : Ends stop server
      (fun answer after => Accounted (account after) ∧ (0 ≤ answer.value → .stop true true ∈ after.log))
      (fun _ after => Accounted (account after)) := by
    have quietly := decide_eq_true quiescent
    have external := account_waits.external.ends (s := server)
    unfold Ends Shutdown.stop at *
    simp only [quietly]
    generalize Shutdown.external server = result at external
    obtain ⟨after, halt | answer⟩ := result
    · have same : account after = account server := external
      have stopped := (same ▸ accounted : Accounted (account after)).stop false
      exact stopped
    · have same : account after = account server := external
      have stopped := (same ▸ accounted : Accounted (account after)).stop (decide (0 ≤ answer.value))
      exact ⟨stopped, fun good => by simp [good]⟩
  refine called.mono (fun answer after both => ?_) fun halt after accounted => ?_
  · refine .ite (fun _ => ⟨both.1, (by simp)⟩) fun good => ?_
    have torn := both.1.stopped (both.2 (Int.not_lt.mp good))
    exact ⟨torn.accounted, fun _ => torn⟩
  · cases halt with
    | raised error => exact ⟨accounted, (by simp)⟩
    | parked | unfinished => exact ⟨(by simp), accounted.ordered⟩

theorem Torn.settles {steps : List (Call Unit)} (torn : Torn (account server))
    (each : ∀ step ∈ steps, ∀ server, Torn (account server) →
      Settles step server (fun after => Torn (account after)) (fun after => Ordered after.log)) :
    Settles (settle steps) server (fun after => Accounted (account after))
      (fun after => Ordered after.log) :=
  (Thread.settles_settle each torn).mono (fun _ torn => torn.accounted) fun _ ordered => ordered

/-- What is left of `_shutdown_all` when no owner is left. -/
theorem teardown_accounted (first : Option Exn) (accounted : Accounted (account server))
    (quiescent : Quiescent server) :
    Settles (teardown first) server (fun after => Accounted (account after))
      (fun after => Ordered after.log) := by
  have idle : Settles (settle (List.replicate server.config.proxyPools do
      let _ ← external; return ())) server
      (fun after => Accounted (account after) ∧ Quiescent after) (fun after => Ordered after.log) := by
    refine Thread.settles_settle (fun step member server both => ?_) ⟨accounted, quiescent⟩
    cases List.eq_of_mem_replicate member
    have kept : Ends (do let _ ← external; return ()) server (fun _ after =>
        Accounted (account after) ∧ Quiescent after)
        (fun _ after => Accounted (account after) ∧ Quiescent after) :=
      (account_waits.ignore.ends.and (Method.evolves_keeps_iff.mp quiescent_waits.ignore server
        both.2)).mono
        (fun _ _ moved => ⟨Eq.mpr (congrArg Accounted moved.1) both.1, moved.2⟩)
        fun _ _ moved => ⟨Eq.mpr (congrArg Accounted moved.1) both.1, moved.2⟩
    refine kept.mono (fun _ _ both => both) fun halt after both => ?_
    cases halt with
    | raised error => exact both
    | parked | unfinished => exact both.1.ordered
  unfold teardown
  show Settles (settle _ >>= _) server _ _
  refine Settles.bind idle (fun _ both => both.1) fun error after both => ?_
  refine Method.ends_bind.mpr ((stopCarriers_accounted _ both.1 both.2).mono
    (fun stopped after both => ?_) fun halt after ordered => ?_)
  · cases stopped with
    | some error => exact both.1
    | none =>
      refine Settles.bind (Torn.settles (both.2 rfl) fun step member server torn => ?_)
        (fun _ accounted => accounted)
        fun _ _ accounted => accounted
      simp only [List.mem_cons, List.not_mem_nil, or_false] at member
      rcases member with rfl | rfl | rfl | rfl | rfl | rfl | rfl
      · exact closeListener_torn torn
      · exact settleClosedConnections_torn torn
      · exact endDrain_torn torn
      · exact retireUnlessStopped_torn torn
      · exact shutdownApp_torn torn
      · exact closeTls_torn torn
      · exact uninstall_torn torn
  · cases halt with
    | raised error => exact absurd rfl (ordered.1 error)
    | parked | unfinished => exact ordered.2

/-- `_shutdown_all` makes its calls in order, whatever it finds. -/
theorem shutdownAll_accounted (accounted : Accounted (account server)) (watched : Watched server) :
    Settles shutdownAll server (fun after => Accounted (account after))
      (fun after => Ordered after.log) := by
  unfold shutdownAll
  refine Method.ends_bind.mpr (((settleOwners_quiescent watched).and settleOwners_account.ends).mono
    (fun found after both => ?_) fun halt after both => ?_)
  · obtain ⟨⟨-, quiescent⟩, same⟩ := both
    have accounted : Accounted (account after) := Eq.mpr (congrArg Accounted same) accounted
    obtain ⟨first, terminal⟩ := found
    simp only [Method.ends_bind, Method.ends_get]
    refine .ite (fun _ => accounted) fun settled => ?_
    obtain ⟨absent, terminal⟩ := not_or.mp settled
    exact teardown_accounted first accounted
      (quiescent (Bool.eq_true_of_not_eq_false terminal) (not_not.mp absent))
  · have accounted : Accounted (account after) := Eq.mpr (congrArg Accounted both.2) accounted
    cases halt with
    | raised error => exact accounted
    | parked | unfinished => exact accounted.ordered

theorem undo_torn (torn : Torn (account server)) :
    Settles (settle [closeListener, shutdownApp, retireCurrent, closeTls, uninstall]) server
      (fun after => Accounted (account after)) (fun after => Ordered after.log) := by
  refine Torn.settles torn fun step member server torn => ?_
  simp only [List.mem_cons, List.not_mem_nil, or_false] at member
  rcases member with rfl | rfl | rfl | rfl | rfl
  · exact closeListener_torn torn
  · exact shutdownApp_torn torn
  · exact retireCurrent_torn torn
  · exact closeTls_torn torn
  · exact uninstall_torn torn

/-- So does `_rollback_start`, if there is no connection: it does not ask for them. -/
theorem rollbackStart_accounted (accounted : Accounted (account server)) (watched : Watched server)
    (vacant : Vacant server) :
    Settles rollbackStart server (fun after => Accounted (account after))
      (fun after => Ordered after.log) := by
  simp only [rollbackStart, Settles, Method.ends_bind, Method.ends_get]
  refine .ite (fun _ => ?_) fun notStarted => undo_torn ⟨accounted, Bool.eq_false_iff.mpr notStarted⟩
  simp only [Method.ends_bind]
  have waited := ((Method.evolves_keeps_iff.mp stopAcceptOwner_watched server watched).and
    (Method.evolves_keeps_iff.mp stopAcceptOwner_vacant server vacant)).and
      (stopAcceptOwner_account.ends (s := server))
  refine waited.mono (fun first after all => ?_) fun halt after all => ?_
  · obtain ⟨⟨watched, vacant⟩, same⟩ := all
    have accounted : Accounted (account after) := Eq.mpr (congrArg Accounted same) accounted
    simp only [Method.ends_get]
    refine .ite (fun _ => accounted) fun absent => ?_
    have quiescent := vacant.quiescent watched (not_not.mp absent)
    rw [Method.ends_bind]
    refine (stopCarriers_accounted _ accounted quiescent).mono (fun stopped after both => ?_) fun halt
      after ordered => ?_
    · cases stopped with
      | some error => exact both.1
      | none =>
        exact Settles.bind (undo_torn (both.2 rfl)) (fun _ accounted => accounted) fun _ _
          accounted => accounted
    · cases halt with
      | raised error => exact absurd rfl (ordered.1 error)
      | parked | unfinished => exact ordered.2
  · have accounted : Accounted (account after) := Eq.mpr (congrArg Accounted all.2) accounted
    cases halt with
    | raised error => exact accounted
    | parked | unfinished => exact accounted.ordered

end Teardown
end Shutdown
end PccGateway
