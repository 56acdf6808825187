import PccGateway.Lib.Thread
import PccGateway.Lifecycle.Reload

namespace PccGateway
namespace Shutdown
open Method (get modify)
open Thread (attempt when settle)

/-- What `outcome` reports of a virtual thread. -/
inductive Outcome where
  | pending
  | returned
  | raised
  | cancelled
  | unknown (value : Int)
  deriving DecidableEq

def Outcome.terminal : Outcome → Bool
  | .returned | .raised | .cancelled => true
  | .pending | .unknown _ => false

/-- What the accept owner and the connections do, while the server makes a call. -/
inductive Event where
  /-- `accept_once` puts a connection into `connections`. -/
  | accepts (connection : Nat)
  /-- `spawn_connection` has returned, and the connection is put into `connection_owners`. -/
  | owns (connection thread : Nat)
  /-- The connection leaves `connections`, at its end or because `spawn_connection` raised. -/
  | leaves (connection : Nat)
  | closes (connection : Nat)
  | counts (metrics : Metric → Int)
  | refers (references : Int)

/-- How a call of the scheduler, of the transport or of a callback ends, and what lands before it does. -/
structure Answer where
  landed : List Event := []
  raises : Bool := false
  value : Int := 0
  outcome : Outcome := .pending
  /-- What `exception` returns. -/
  error : Option Exn := none

/-- How `spawn_accept` ends. It may have published the handle when it raises. -/
structure Spawn where
  landed : List Event := []
  raises : Bool := false
  publishes : Bool := true
  handle : Nat := 0

structure Config where
  drainTimeoutMs : Int := 30000
  installSignalHandlers : Bool := true
  waitsetBackend : String := "auto"
  /-- `type(self.scheduler) is NativeVirtualThreadScheduler`. -/
  nativeScheduler : Bool := true
  /-- `isinstance(self.resolver, LazySystemResolver)`. -/
  lazyResolver : Bool := true
  proxyPools : Nat := 0

/-- The calls that the order is about. -/
inductive Entry where
  | startup
  | poolStarted
  | stop (quiescent succeeded : Bool)
  | closeListener
  | appShutdown
  | retire (generation : Nat)
  deriving DecidableEq

/-- The server, with what happens to it: the answers to come, the calls made, whether the accept owner
is there and has not been seen to be terminal (`alive`), the connections that have been in
`connection_owners` (`owned`) and those seen to be terminal. -/
structure GatewayServer where
  config : Config
  store : Generations
  tlsManager : Option Reload.TlsGenerationManager
  listenerFd : Int := -1
  acceptThread : Option Nat := none
  connections : List Nat := []
  connectionOwners : List Nat := []
  vthread : Nat → Option Nat := fun _ => none
  closed : Nat → Bool := fun _ => false
  poolStarted : Bool := false
  appStarted : Bool := false
  processControlInstalled : Bool := false
  drainStartedMs : Int := -1
  answers : List Answer := []
  spawning : Spawn := {}
  log : List Entry := []
  alive : Bool := false
  owned : List Nat := []
  observed : List Nat := []
  /-- The control thread is still in a call. -/
  busy : Bool := false

/-- A call of the control thread. It is unfinished when the answers end. -/
abbrev Call (α : Type) := Thread GatewayServer Exn α

/-- What an event makes of the server. Only an accept owner that is alive accepts. -/
def land (server : GatewayServer) : Event → GatewayServer
  | .accepts connection =>
    if server.alive then { server with connections := server.connections ++ [connection] } else server
  | .owns connection thread =>
    if server.alive then
      { server with
        connectionOwners := server.connectionOwners ++ [connection], owned := connection :: server.owned,
        vthread := Function.update server.vthread connection (some thread) }
    else server
  | .leaves connection => { server with connections := server.connections.erase connection }
  | .closes connection => { server with closed := Function.update server.closed connection true }
  | .counts metrics =>
    { server with store := { server.store with lifecycle := { server.store.lifecycle with metrics } } }
  | .refers references =>
    match server.store.generations[server.store.current]? with
    | none => server
    | some generation =>
      { server with store := server.store.put server.store.current { generation with references } }

/-- A call of something else. -/
def external : Call Answer := fun server =>
  match server.answers with
  | [] => (server, .error .unfinished)
  | answer :: rest =>
    let after := answer.landed.foldl land { server with answers := rest }
    (after, if answer.raises then .error (.raised .external) else .ok answer)

/-- What lands before the lock of the ledgers is taken. -/
def locked : Call Unit := fun server =>
  match server.answers with
  | [] => (server, .error .unfinished)
  | answer :: rest => (answer.landed.foldl land { server with answers := rest }, .ok ())

def note (entry : Entry) : Call Unit := modify fun server => { server with log := server.log ++ [entry] }

def onStore {α : Type} (section_ : Generations.Section α) : Call α :=
  Thread.call (Method.on GatewayServer.store (fun store server => { server with store }) section_)

def fail (reason : String) : Call Unit := onStore (Generations.onLifecycle (GatewayLifecycle.fail reason))

def nowMs : Call Int := do
  let answer ← external
  return answer.value

/-- `outcome` of the accept owner. -/
def acceptOutcome : Call Outcome := do
  let answer ← external
  modify fun server => { server with alive := server.alive && !answer.outcome.terminal }
  return answer.outcome

/-- `outcome` of a connection. -/
def connectionOutcome (connection : Nat) : Call Outcome := do
  let answer ← external
  modify fun server => { server with
    observed := if answer.outcome.terminal then connection :: server.observed else server.observed }
  return answer.outcome

def connectionSnapshot : Call (List Nat) := do
  locked
  let server ← get
  return server.connections

def connectionOwnerSnapshot : Call (List Nat) := do
  locked
  let server ← get
  return server.connectionOwners

/-- No virtual thread of the gateway is left, as far as the server has seen. -/
def Quiescent (server : GatewayServer) : Prop :=
  server.acceptThread = none ∧ server.alive = false ∧ (∀ connection ∈ server.owned,
    connection ∈ server.observed) ∧ server.connections = [] ∧ server.connectionOwners = []

instance (server : GatewayServer) : Decidable (Quiescent server) :=
  inferInstanceAs (Decidable (_ ∧ _ ∧ _ ∧ _ ∧ _))

/-- `scheduler.stop`. -/
def stop : Call Answer := fun server =>
  let quiescent := decide (Quiescent server)
  match external server with
  | (after, .ok answer) =>
    ({ after with log := after.log ++ [.stop quiescent (decide (0 ≤ answer.value))] }, .ok answer)
  | (after, .error halt) => ({ after with log := after.log ++ [.stop quiescent false] }, .error halt)

/-- The accept owner is there. -/
def Spawn.there (spawn : Spawn) : Bool := !spawn.raises || spawn.publishes

/-- What `spawn_accept` makes of the server. The accept owner runs as soon as it is there. -/
def spawned (server : GatewayServer) : GatewayServer :=
  let after := server.spawning.landed.foldl land
    { server with alive := server.alive || server.spawning.there }
  { after with acceptThread := if server.spawning.there then some server.spawning.handle
    else after.acceptThread }

def spawnAccept : Call Unit := fun server =>
  (spawned server, if server.spawning.raises then .error (.raised .external) else .ok ())

/-- `_close_listener`. -/
def closeListener : Call Unit := do
  let server ← get
  when (0 ≤ server.listenerFd) do
    modify fun server => { server with listenerFd := -1 }
    note .closeListener
    let _ ← external
    return ()

def shutdownApp : Call Unit := do
  let server ← get
  when (server.appStarted = true) do
    note .appShutdown
    Thread.ensuring (do let _ ← external; return ()) (modify fun server =>
      { server with appStarted := false })

/-- `retire` of a generation, with the callbacks of its resources. -/
def retireGeneration (id : Nat) : Call Unit := do
  let resources ← onStore (Generations.retire id)
  note (.retire id)
  when (resources.getD [] ≠ []) do
    let _ ← external
    return ()

/-- `current.retire()`, if it is not retired. -/
def retireCurrent : Call Unit := do
  let server ← get
  when ((server.store.generations[server.store.current]?.any fun generation => !generation.retired) = true)
    (retireGeneration server.store.current)

/-- `TlsGenerationManager.close`. -/
def closeTls : Call Unit := do
  let server ← get
  Thread.forSome server.tlsManager fun manager =>
    when (manager.closed = false) do
      modify fun server => { server with tlsManager := some manager.shut }
      let _ ← external
      return ()

def uninstall : Call Unit := do
  let server ← get
  when (server.processControlInstalled = true) do
    let _ ← external
    modify fun server => { server with processControlInstalled := false }

/-- `_record_accept_shutdown_failure`, when there is a failure. -/
def acceptFailure : Option (Exn × String) → Call (Option Exn)
  | none => return none
  | some (error, reason) => do
    let server ← get
    when (server.store.lifecycle.state ≠ .failed) (fail reason)
    return some error

/-- The loop of `_stop_accept_owner`: the outcome, and the error that ended it. -/
def observeAccept (deadline : Int) (fuel : Nat) : Call (Outcome × Option (Exn × String)) :=
  let failed (reason : String) (error : Exn) : Thread.Pass Unit (Outcome × Option (Exn × String)) :=
    .done (.pending, some (error, reason ++ error.message))
  Thread.loop (fun _ => do
    match ← attempt acceptOutcome with
    | .error error => return failed "gateway accept owner shutdown inspection failed: " error
    | .ok outcome =>
      if outcome ≠ .pending then return .done (outcome, none)
      else
        match ← attempt nowMs with
        | .error error => return failed "gateway accept owner shutdown clock failed: " error
        | .ok now =>
          if deadline ≤ now then
            let reason := "gateway accept owner did not terminate before shutdown deadline"
            return .done (.pending, some (.runtime reason, reason))
          else
            -- the wait, of `control_poll_ms` or of what remains until the deadline
            match ← attempt external with
            | .error error => return failed "gateway accept owner shutdown wait failed: " error
            | .ok _ => return .again ()) fuel ()

/-- What `_stop_accept_owner` does with the outcome. -/
def retireAccept : Outcome → Call (Option (Exn × String))
  | .pending => return none
  | .cancelled => do
    modify fun server => { server with acceptThread := none }
    return none
  | .returned => do
    modify fun server => { server with acceptThread := none }
    match ← attempt external with
    | .ok _ => return none
    | .error error =>
      return some (error, "gateway accept owner result inspection failed: " ++ error.message)
  | .raised => do
    modify fun server => { server with acceptThread := none }
    match ← attempt external with
    | .error error =>
      return some (error, "gateway accept owner exception inspection failed: " ++ error.message)
    | .ok answer =>
      let detail := (answer.error.map Exn.message).getD ""
      let reason := "gateway accept owner raised during shutdown" ++ if detail = "" then
        "" else ": " ++ detail
      return some (answer.error.getD (.runtime reason), reason)
  | .unknown value => do
    modify fun server => { server with acceptThread := none }
    let reason := "gateway accept owner reported unknown shutdown outcome " ++ toString value
    return some (.runtime reason, reason)

/-- The passes of a loop that can be made with the answers that are left: every pass takes one. -/
def passes : Call Nat := do
  let server ← get
  return server.answers.length + 1

/-- `_stop_accept_owner`. -/
def stopAcceptOwner : Call (Option Exn) := do
  let server ← get
  match server.acceptThread with
  | none => return none
  | some _ =>
    let cancelled ← attempt external
    let first := match cancelled with
      | .ok _ => none
      | .error error => some (error, "gateway accept owner cancellation failed: " ++ error.message)
    match ← attempt nowMs with
    | .error error =>
      acceptFailure (first.or (some (error,
        "gateway accept owner shutdown clock failed: " ++ error.message)))
    | .ok now =>
      let fuel ← passes
      let (outcome, later) ← observeAccept (now + server.config.drainTimeoutMs) fuel
      let inspected ← retireAccept outcome
      acceptFailure ((first.or later).or inspected)

/-- What `_reap_connection_owners` makes of one connection: whether it is terminal, or the error. -/
def inspect (connection : Nat) : Call (Bool × Option Exn) := do
  let server ← get
  if server.vthread connection = none then
    return (false, some (.runtime "gateway connection owner lost its virtual-thread handle"))
  else
    match ← attempt (connectionOutcome connection) with
    | .error error => return (false, some error)
    | .ok (.unknown value) =>
      return (false, some (.runtime ("gateway connection owner reported unknown outcome " ++
        toString value)))
    | .ok outcome => return (outcome.terminal, none)

/-- The connections that are terminal, and the first error. -/
def inspectAll : List Nat → Call (List Nat × Option Exn)
  | [] => return ([], none)
  | connection :: rest => do
    let (terminal, error) ← inspect connection
    let (others, later) ← inspectAll rest
    return (if terminal then connection :: others else others, error.or later)

def forget (server : GatewayServer) (connection : Nat) : GatewayServer :=
  if connection ∈ server.connectionOwners then
    { server with
      connectionOwners := server.connectionOwners.erase connection,
        vthread := Function.update server.vthread connection none }
  else server

/-- `_reap_connection_owners`. -/
def reapConnectionOwners : Call (Bool × Option Exn) := do
  let owners ← connectionOwnerSnapshot
  let (terminal, error) ← inspectAll owners
  when (terminal ≠ []) do
    locked
    modify fun server => terminal.foldl forget server
  let left ← connectionOwnerSnapshot
  return (left.isEmpty, error)

/-- `_await_connection_owners`. -/
def awaitConnectionOwners : Call (Bool × Option Exn) := do
  let server ← get
  let start ← nowMs
  let deadline := start + server.config.drainTimeoutMs
  let fuel ← passes
  Thread.loop (fun first => do
    let (terminal, error) ← reapConnectionOwners
    let first := Option.or first error
    let connections ← connectionSnapshot
    if connections = [] ∧ terminal = true then return .done (true, first)
    else
      let now ← nowMs
      if deadline ≤ now then return .done (false, first)
      else
        let _ ← external
        return .again first) fuel none

/-- `_signal_owner_shutdown` of the connections that are not closed; how many there were. -/
def signalOwners : List Nat → Call Nat
  | [] => return 0
  | connection :: rest => do
    let server ← get
    if server.closed connection then signalOwners rest
    else
      let _ ← attempt external
      let forced ← signalOwners rest
      return forced + 1

/-- `_force_close_connections`. -/
def forceCloseConnections : Call Unit := do
  let connections ← connectionSnapshot
  let forced ← signalOwners connections
  when (forced ≠ 0) (onStore (Generations.onLifecycle (modify (GatewayLifecycle.add .drainForced forced))))

/-- `_settle_closed_connections`. -/
def settleClosedConnections : Call Unit := do
  let connections ← connectionSnapshot
  let owners ← connectionOwnerSnapshot
  when (connections ≠ [] ∨ owners ≠ [])
    (Thread.raise (.runtime "gateway stopped carriers with nonterminal connection owners"))

/-- `GatewayLifecycle.finish_drain`. -/
def finishDrain : Call Bool := do
  match ← onStore (Generations.finishDrain false) with
  | none => return false
  | some current =>
    retireGeneration current
    return true

/-- The end of a drain in `_shutdown_all`. -/
def endDrain : Call Unit := do
  let server ← get
  when (server.store.lifecycle.state = .draining) do
    let finished ← finishDrain
    when (finished = false) (fail "gateway drain retained active owners")

def retireUnlessStopped : Call Unit := do
  let server ← get
  when (server.store.lifecycle.state ≠ .stopped) retireCurrent

/-- The carriers are stopped, if they run. -/
def stopCarriers (message : String) : Call (Option Exn) := do
  let server ← get
  if server.poolStarted then
    match ← attempt stop with
    | .error error => return some error
    | .ok answer =>
      if answer.value < 0 then return some (.runtime message)
      else
        modify fun server => { server with poolStarted := false }
        return none
  else return none

/-- `_rollback_start`. -/
def rollbackStart : Call (Option Exn) := do
  let server ← get
  let undo := settle [closeListener, shutdownApp, retireCurrent, closeTls, uninstall]
  if server.poolStarted then
    let first ← stopAcceptOwner
    let server ← get
    if server.acceptThread ≠ none then
      return some (first.getD (.runtime "gateway startup rollback retained accept owner"))
    else
      match ← stopCarriers "virtual-thread carrier pool did not stop during startup rollback" with
      | some error => return some (first.getD error)
      | none =>
        let later ← undo
        return first.or later
  else undo

/-- What `_shutdown_all` waits for, once it has dealt with the accept owner. -/
def waitForConnections : Call (Bool × Option Exn) := do
  let connections ← connectionSnapshot
  when (connections ≠ []) forceCloseConnections
  awaitConnectionOwners

/-- Connections that are not terminal are a failure. -/
def reportConnections (first : Option Exn) : Bool → Call (Option Exn × Bool)
  | true => return (first, true)
  | false => do
    let reason := "gateway connection owners did not terminate before shutdown deadline"
    let server ← get
    when (server.store.lifecycle.state ≠ .failed) (fail reason)
    return (some (first.getD (.runtime reason)), false)

/-- The accept owner and the connections in `_shutdown_all`: the first error, and whether the
connections are terminal. -/
def settleOwners : Call (Option Exn × Bool) := do
  let server ← get
  let drained ← attempt (when (server.store.lifecycle.state = .running)
    (onStore (Generations.onLifecycle GatewayLifecycle.beginDrain)))
  let first := match drained with
    | .ok _ => none
    | .error error => some error
  let accept ← stopAcceptOwner
  match ← attempt waitForConnections with
  | .ok (terminal, owners) => reportConnections ((first.or accept).or owners) terminal
  | .error error => reportConnections ((first.or accept).or (some error)) false

/-- The rest of `_shutdown_all`, when no owner is left. -/
def teardown (first : Option Exn) : Call (Option Exn) := do
  let server ← get
  let idle ← settle (List.replicate server.config.proxyPools do let _ ← external; return ())
  let first := first.or idle
  match ← stopCarriers "virtual-thread carrier pool did not stop" with
  | some error => return some (first.getD error)
  | none =>
    let later ← settle [closeListener, settleClosedConnections, endDrain, retireUnlessStopped,
      shutdownApp, closeTls, uninstall]
    return first.or later

/-- `_shutdown_all`. -/
def shutdownAll : Call (Option Exn) := do
  let (first, terminal) ← settleOwners
  let server ← get
  if server.acceptThread ≠ none ∨ terminal = false then
    return some (first.getD (.runtime "gateway shutdown retained nonterminal virtual-thread owners"))
  else teardown first

def expectedBackend : String → Int
  | "poll" => 0
  | "kqueue" => 1
  | "epoll" => 2
  | _ => -1

/-- The listener is opened. -/
def listen : Call Unit := do
  let answer ← external
  modify fun server => { server with listenerFd := answer.value }
  if answer.value < 0 then Thread.raise (.transport "gateway listen failed")
  else onStore (Generations.onLifecycle GatewayLifecycle.started)

/-- The carriers are started. -/
def startCarriers : Call Unit := do
  let answer ← external
  if answer.value ≤ 0 then Thread.raise (.runtime "virtual-thread carrier pool did not start")
  else modify fun server => { server with poolStarted := true, log := server.log ++ [.poolStarted] }

/-- What `start` tries before it spawns the accept owner. -/
def prepare : Call Unit := do
  let server ← get
  when (server.config.installSignalHandlers = true) do
    let _ ← external
    modify fun server => { server with processControlInstalled := true }
  let _ ← external
  modify fun server => { server with appStarted := true, log := server.log ++ [.startup] }
  when (server.config.lazyResolver = true) do
    let _ ← external
    return ()
  listen
  startCarriers
  let expected := expectedBackend server.config.waitsetBackend
  when (0 ≤ expected ∧ server.config.nativeScheduler = true) do
    let found ← external
    when (found.value ≠ expected)
      (Thread.raise (.runtime "requested gateway waitset backend is unavailable"))

def start : Call Unit := do
  let server ← get
  if server.store.lifecycle.state ≠ .new then Thread.raise (.runtime "gateway server can start only once")
  else
    onStore (Generations.onLifecycle GatewayLifecycle.start)
    match ← attempt (do prepare; spawnAccept) with
    | .ok () => return ()
    | .error error =>
      fail (error.message)
      match ← rollbackStart with
      | none => Thread.raise error
      | some cleanup => Thread.raise cleanup

def requestStop : Call Unit := do
  let server ← get
  when (server.store.lifecycle.state = .running) do
    onStore (Generations.onLifecycle GatewayLifecycle.beginDrain)
    let now ← nowMs
    modify fun server => { server with drainStartedMs := now }

/-- `_drive_drain`. -/
def driveDrain : Call Bool := do
  let server ← get
  if server.store.lifecycle.state ≠ .draining then return false
  else if server.store.lifecycle.metrics .connectionsActive = 0 then
    let _ ← finishDrain
    return true
  else
    let now ← nowMs
    if server.config.drainTimeoutMs ≤ now - server.drainStartedMs then
      forceCloseConnections
      let server ← get
      when (server.store.lifecycle.metrics .connectionsActive = 0) do
        let _ ← finishDrain
        return ()
      return true
    else return false

/-- What the control thread does with a server after `start`, and what lands in between. -/
inductive Step where
  | requestStop (answers : List Answer)
  | reap (answers : List Answer)
  | driveDrain (answers : List Answer)
  | acceptOwnerFails (reason : String)
  | shutdownAll (answers : List Answer)
  | lands (event : Event)

/-- A call of the control thread, with what it finds. It calls nothing else before this call ends. -/
def calls {α : Type} (call : Call α) (answers : List Answer) (server : GatewayServer) : GatewayServer :=
  if server.busy then server
  else
    match call { server with answers } with
    | (after, .ok _) => after
    | (after, .error (.raised _)) => after
    | (after, .error _) => { after with busy := true }

def step (server : GatewayServer) : Step → GatewayServer
  | .requestStop answers => calls requestStop answers server
  | .reap answers => calls reapConnectionOwners answers server
  | .driveDrain answers => calls driveDrain answers server
  | .acceptOwnerFails reason => calls (fail reason) [] server
  | .shutdownAll answers => calls shutdownAll answers server
  | .lands event => land server event

/-- A server as it is made, with the resources of its first generation. -/
def init (config : Config) (object : Nat) (limits : AdmissionLimits) (resources : List Retained)
    (tlsManager : Option Reload.TlsGenerationManager) : GatewayServer where
  config := config
  store := { Generations.init object limits with
    generations := [{ generationId := 1, config := object, resources }] }
  tlsManager := tlsManager

/-- `start`, and then any number of steps. -/
def run (server : GatewayServer) (answers : List Answer) (spawning : Spawn) (steps : List Step) :
    GatewayServer :=
  steps.foldl step (calls start answers { server with spawning })

end Shutdown
end PccGateway
