import PccGateway.Lib.Counting
import PccGateway.Lifecycle.Generations

namespace PccGateway
namespace Reload
open Method

/-- Configurations are compared as objects. -/
structure TlsConfig where
  object : Nat
  alpn : List String
  deriving DecidableEq

structure ListenerConfig where
  host : String
  port : Nat
  backlog : Nat
  reusePort : Bool
  tlsProvider : String
  tlsConfig : Option TlsConfig
  tlsProviderLibrary : String
  tlsProviderLibrarySha256 : String
  tlsProviderMaxBytes : Nat
  deriving DecidableEq

/-- What a reload cannot replace of a listener. -/
def ListenerConfig.identity (listener : ListenerConfig) :
    (String × Nat × Nat × Bool) × String × String × String × Nat :=
  ((listener.host, listener.port, listener.backlog, listener.reusePort), listener.tlsProvider,
    listener.tlsProviderLibrary, listener.tlsProviderLibrarySha256, listener.tlsProviderMaxBytes)

structure GatewayConfig where
  object : Nat
  listeners : List ListenerConfig
  carrierCount : Nat
  waitsetBackend : String
  installSignalHandlers : Bool
  admission : AdmissionLimits
  deriving DecidableEq

/-- What it cannot replace of the process. -/
def GatewayConfig.ownership (config : GatewayConfig) : Nat × String × Bool :=
  (config.carrierCount, config.waitsetBackend, config.installSignalHandlers)

/-- The generations of TLS are named by their identifiers, and a new one has a new identifier. -/
structure TlsGenerationManager where
  nextGenerationId : Nat
  active : Option Nat
  closed : Bool := false
  fresh : ∀ id, active = some id → id < nextGenerationId

/-- The manager gives an identifier away. -/
def TlsGenerationManager.numbered (manager : TlsGenerationManager) : TlsGenerationManager where
  nextGenerationId := manager.nextGenerationId + 1
  active := manager.active
  closed := manager.closed
  fresh := fun id active => Nat.lt_succ_of_lt (manager.fresh id active)

/-- The generation with this identifier becomes the active one. -/
def TlsGenerationManager.activated (manager : TlsGenerationManager) : TlsGenerationManager where
  nextGenerationId := manager.nextGenerationId + 1
  active := some manager.nextGenerationId
  closed := manager.closed
  fresh := fun _ active => Option.some.inj active ▸ Nat.lt_succ_self _

/-- What `close` makes of it. -/
def TlsGenerationManager.shut (manager : TlsGenerationManager) : TlsGenerationManager where
  nextGenerationId := manager.nextGenerationId
  active := none
  closed := true
  fresh := nofun

structure GatewayServer where
  store : Generations
  config : GatewayConfig
  listener : ListenerConfig
  tlsManager : Option TlsGenerationManager
  tlsGenerationReloads : Int := 0

/-- `TlsGenerationManager.close`. -/
def TlsGenerationManager.close (manager : TlsGenerationManager) : TlsGenerationManager :=
  if manager.closed then manager else manager.shut

/-- When another thread closes the manager of TLS. A close waits for `_reload_lock`, so none lands
while the manager makes contexts and activates them: it lands before, between that and the `retain` of
the new generation, or later. -/
inductive Closing where
  | never
  | before
  | behind
  | later
  deriving DecidableEq

/-- What the provider, the callbacks of resources and other threads do while a reload runs. -/
structure Meanwhile where
  /-- What a drain or a failure has made of the state when `publish` takes the lock, and when it takes
  it again. -/
  stateAtPublish : GatewayState := .running
  stateAtInstall : GatewayState := .running
  /-- The references that others have to the replaced generation when it is retired. -/
  holders : Nat := 0
  /-- The contexts of the new generation of TLS cannot be made. -/
  createRaises : Bool := false
  closing : Closing := .never
  /-- The retirement of the old one raises. -/
  tlsRetireRaises : Bool := false
  /-- The `retain` of the new one raises. After a close it does, unless a channel holds the generation. -/
  retainRaises : Bool := false
  releaseRaises : Retained → Bool := fun _ => false

abbrev Call (α : Type) := Method GatewayServer Exn α

def onStore {α : Type} (section_ : Generations.Section α) : Call α :=
  Method.on GatewayServer.store (fun store server => { server with store }) section_

/-- What the next section finds of the state. -/
def finds (state : GatewayState) : Call Unit :=
  onStore (modify fun store => { store with lifecycle := { store.lifecycle with state } })

/-- The references that the next section finds on a generation. -/
def holding (id holders : Nat) (store : Generations) : Generations :=
  match store.generations[id]? with
  | none => store
  | some generation =>
    store.put id { generation with references := (if generation.retired then 0 else 1) + holders }

/-- The close of another thread, if this is when it lands. -/
def lands (meanwhile : Meanwhile) (point : Closing) : Call Unit :=
  modify fun server => if meanwhile.closing = point then
    { server with tlsManager := server.tlsManager.map TlsGenerationManager.close } else server

/-- `TlsGenerationManager.reload`. Both its sections are under one lock, so the second finds what the
first has found. -/
def reloadTls (meanwhile : Meanwhile) (manager : TlsGenerationManager) : Call Nat := do
  if manager.closed = true ∨ manager.active = none then raise (.runtime "TLS generation manager is closed")
  else
    modify fun server => { server with tlsManager := some manager.numbered }
    if meanwhile.createRaises then
      lands meanwhile .behind
      raise (.runtime "TLS provider context creation failed")
    else if manager.numbered.closed = true ∨ manager.numbered.active = none then
      raise (.runtime "TLS generation manager closed during reload")
    else
      modify fun server => { server with tlsManager := some manager.activated }
      lands meanwhile .behind
      -- the old generation is retired when the new one is active already
      if meanwhile.tlsRetireRaises then raise (.runtime "TLS provider context cleanup failed")
      else return manager.nextGenerationId

/-- `retire` of a generation, with the callbacks of its resources. -/
def retireGeneration (meanwhile : Meanwhile) (id : Nat) : Call Unit := do
  let resources ← onStore (Generations.retire id)
  if (resources.getD []).any meanwhile.releaseRaises then
    raise (.runtime "gateway generation resource release failed")
  else return ()

/-- `GatewayLifecycle.publish` up to its second section, with the replacement and the generation that
it replaces. The calls of `retain` are not counted here. -/
def publishReplacement (meanwhile : Meanwhile) (config : Nat) (resources : List Nat) :
    Call (Nat × Option Nat) := do
  finds meanwhile.stateAtPublish
  let generationId ← onStore Generations.publishStart
  if resources ≠ [] ∧ meanwhile.retainRaises = true then
    onStore Generations.publishEnd
    raise .external
  else
    finds meanwhile.stateAtInstall
    let server ← get
    let previous ← onStore (Generations.install
      { generationId, config, resources := resources.map fun resource => { resource, call := 0 } })
    return (server.store.generations.length, previous)

/-- What `publish` does with the replaced generation. -/
def retirePrevious (meanwhile : Meanwhile) (previous : Nat) : Call Unit := do
  onStore (modify (holding previous meanwhile.holders))
  finishing (retireGeneration meanwhile previous) do
    onStore Generations.publishEnd
    let _ ← onStore Generations.collectRetired
    return ()

def publish (meanwhile : Meanwhile) (config : Nat) (resources : List Nat) : Call Nat := do
  let (replacement, previous) ← publishReplacement meanwhile config resources
  match previous with
  | none =>
    retireGeneration meanwhile replacement
    raise (.runtime "configuration publish lost running state")
  | some previous =>
    retirePrevious meanwhile previous
    return replacement

/-- The contexts of TLS are replaced, and then the generation of the server that holds them. -/
def replaceTls (meanwhile : Meanwhile) (config : Nat) (manager : TlsGenerationManager) : Call Nat := do
  let tlsGeneration ← reloadTls meanwhile manager
  modify fun server => { server with tlsGenerationReloads := server.tlsGenerationReloads + 1 }
  publish meanwhile config [tlsGeneration]

/-- What `reload` does under the lock, once the configuration is accepted. -/
def replace (meanwhile : Meanwhile) (config : GatewayConfig) (listener : ListenerConfig) : Call Nat := do
  let server ← get
  match server.tlsManager with
  | none => publish meanwhile config.object []
  | some manager =>
    match listener.tlsConfig with
    | none => raise (.runtime "TLS reload configuration is invalid")
    | some tls =>
      if tls.alpn ≠ ["http/1.1"] then
        raise (.runtime "HTTP/1 gateway TLS listener must offer only http/1.1 ALPN")
      else finishing (replaceTls meanwhile config.object manager) (lands meanwhile .later)

/-- `reload` from its checks on. -/
def checkAndReplace (meanwhile : Meanwhile) (config : GatewayConfig) : Call Nat := do
  let server ← get
  if server.store.lifecycle.state ≠ .running then raise (.runtime "gateway reload requires running state")
  else
    match config.listeners with
    | [listener] =>
      if listener.identity ≠ server.listener.identity then
        raise (.runtime "gateway reload cannot replace listener identity or TLS provider")
      else if config.ownership ≠ server.config.ownership then
        raise (.runtime "gateway reload cannot replace carrier, waitset or signal ownership")
      else if config.admission ≠ server.config.admission then
        raise (.runtime "gateway reload cannot replace live admission limits")
      else
        let generation ← replace meanwhile config listener
        modify fun server => { server with config, listener }
        return generation
    | _ => raise (.runtime "gateway reload requires one listener")

/-- The checks read nothing of the manager: a close before the manager is asked is as good as one
before them. -/
def reload (meanwhile : Meanwhile) (config : GatewayConfig) : Call Nat := do
  lands meanwhile .before
  checkAndReplace meanwhile config

/-- The gateway runs at both sections of `publish`, and no other `publish` is under way. -/
structure KeepsRunning (server : GatewayServer) (meanwhile : Meanwhile) : Prop where
  first : meanwhile.stateAtPublish = .running
  alone : server.store.publishing = false
  second : meanwhile.stateAtInstall = .running

/-- The current generation can be retired, and if nobody else holds it, its resources can be released. -/
def RetiresCleanly (server : GatewayServer) (meanwhile : Meanwhile) : Prop :=
  ∀ generation, server.store.generations[server.store.current]? = some generation →
    generation.retired = false ∧ generation.released = false ∧
    (meanwhile.holders = 0 → ∀ resource ∈ generation.resources, meanwhile.releaseRaises resource = false)

/-- The parts of a server that a reload switches. -/
def published (server : GatewayServer) : Nat × GatewayConfig × ListenerConfig × Option (Option Nat) :=
  (server.store.current, server.config, server.listener, server.tlsManager.map fun manager =>
    manager.active)

section Publish
variable {server : GatewayServer} {meanwhile : Meanwhile} {config : Nat} {resources : List Nat}

theorem retire_current (id : Nat) (store : Generations) :
    (Generations.retire id store).1.current = store.current := by
  unfold Generations.retire
  split
  · rfl
  · split
    · rfl
    · split <;> rfl

/-- A retirement leaves everything that a reload switches. -/
theorem retireGeneration_published (id : Nat) :
    published (retireGeneration meanwhile id server).1 = published server := by
  have current := retire_current id server.store
  simp only [retireGeneration, onStore, Method.on, Method.bind_run]
  generalize Generations.retire id server.store = result at current ⊢
  obtain ⟨store, error | dropped⟩ := result
  · simp only [published] at current ⊢
    rw [current]
  · simp only [published] at current ⊢
    split <;> simp [Method.raise_run, Method.pure_run, current]

/-- The second section finds a gateway that does not run, or is not reached. -/
theorem publishReplacement_refused
    (refused : ¬ KeepsRunning server meanwhile ∨ resources ≠ [] ∧ meanwhile.retainRaises = true) :
    ∃ after, published after = published server ∧
      ((∃ error, publishReplacement meanwhile config resources server = (after, .error error)) ∨
        ∃ replacement, publishReplacement meanwhile config resources server =
          (after, .ok (replacement, none))) := by
  by_cases first : meanwhile.stateAtPublish = .running
  · by_cases alone : server.store.publishing = false
    · by_cases retains : resources ≠ [] ∧ meanwhile.retainRaises = true
      · simp [publishReplacement, finds, onStore, Method.on, Method.bind_run,
          Generations.publishStart, first, alone, retains, Generations.publishEnd, published]
      · have second : meanwhile.stateAtInstall ≠ .running := by
          intro second
          rcases refused with stops | fails
          · exact stops ⟨first, alone, second⟩
          · exact retains fails
        simp [publishReplacement, finds, onStore, Method.on, Method.bind_run,
          Generations.publishStart, first, alone, retains, Generations.install, second, published]
    · simp [publishReplacement, finds, onStore, Method.on, Method.bind_run, Generations.publishStart,
        first, alone, published]
  · simp [publishReplacement, finds, onStore, Method.on, Method.bind_run, Generations.publishStart,
      first, published]

/-- `publish` raises before it has switched anything. -/
theorem publish_refused
    (refused : ¬ KeepsRunning server meanwhile ∨ resources ≠ [] ∧ meanwhile.retainRaises = true) :
    ∃ after error, publish meanwhile config resources server = (after, .error error) ∧
    published after = published server := by
  obtain ⟨after, same, ⟨error, raises⟩ | ⟨replacement, lost⟩⟩ :=
    @publishReplacement_refused server meanwhile config resources refused
  · exact ⟨after, error, by simp only [publish, Method.bind_run, raises], same⟩
  · have kept := @retireGeneration_published after meanwhile replacement
    simp only [publish, Method.bind_run, lost]
    generalize retireGeneration meanwhile replacement after = result at kept
    obtain ⟨last, error | done⟩ := result
    · exact ⟨last, error, rfl, kept.trans same⟩
    · exact ⟨last, _, rfl, kept.trans same⟩

/-- What the retirement of the replaced generation does. -/
theorem retireGeneration_cases {id : Nat} {generation : GatewayGeneration}
    (found : server.store.generations[id]? = some generation) :
    let held := { server with store := holding id meanwhile.holders server.store }
    let run := retireGeneration meanwhile id held
    (∀ other, other ≠ id → run.1.store.generations[other]? = server.store.generations[other]?) ∧
    ((run.2 = .ok ()) ↔ generation.retired = false ∧ generation.released = false ∧
      (meanwhile.holders = 0 →
        ∀ resource ∈ generation.resources, meanwhile.releaseRaises resource = false)) := by
  intro held run
  have at_ : held.store.generations[id]? =
      some { generation with references := (if generation.retired then 0 else 1) + meanwhile.holders } := by
    simp only [held, holding, found, Generations.put, Counting.set_at found, if_pos]
  have others (other : Nat) (differs : other ≠ id) :
      held.store.generations[other]? = server.store.generations[other]? := by
    simp only [held, holding, found, Generations.put, Counting.set_at found, if_neg (Ne.symm differs)]
  cases retired : generation.retired with
  | true =>
    simp only [run, retireGeneration, onStore, Method.on, Method.bind_run, Generations.retire, at_,
      retired, if_true]
    exact ⟨others, by simp⟩
  | false =>
    have put (next : GatewayGeneration) (other : Nat) (differs : other ≠ id) :
        (held.store.put id next).generations[other]? = server.store.generations[other]? := by
      simp only [Generations.put, Counting.set_at at_, if_neg (Ne.symm differs)]
      exact others other differs
    cases released : generation.released with
    | true =>
      simp only [run, retireGeneration, onStore, Method.on, Method.bind_run, Generations.retire, at_,
        retired, released, Bool.false_eq_true, if_false, true_or, if_true]
      exact ⟨others, by simp⟩
    | false =>
      have positive : ¬ ((1 : Int) + meanwhile.holders ≤ 0) := by omega
      simp only [run, retireGeneration, onStore, Method.on, Method.bind_run, Generations.retire, at_,
        retired, released,
        Bool.false_eq_true, if_false, false_or, if_neg positive, GatewayGeneration.drop]
      by_cases last : meanwhile.holders = 0
      · have zero : (1 : Int) + meanwhile.holders - 1 = 0 := by omega
        simp only [if_pos zero, Option.getD_some]
        split
        · rename_i raises
          refine ⟨put _, iff_of_false nofun fun clean => ?_⟩
          obtain ⟨resource, member, bad⟩ := List.any_eq_true.mp raises
          rw [clean.2.2 last resource member] at bad
          cases bad
        · rename_i quiet
          refine ⟨put _, iff_of_true rfl ⟨trivial, trivial, fun _ resource member => ?_⟩⟩
          simpa using fun bad => quiet (List.any_eq_true.mpr ⟨resource, member, bad⟩)
      · have more : ¬ (1 : Int) + meanwhile.holders - 1 = 0 := by omega
        simp only [if_neg more, Option.getD_none, List.any_nil, Bool.false_eq_true, if_false]
        exact ⟨put _, iff_of_true rfl ⟨trivial, trivial, fun zero => absurd zero last⟩⟩

/-- The generation that `publish` makes. -/
def replacement (server : GatewayServer) (config : Nat) (resources : List Nat) : GatewayGeneration where
  generationId := server.store.nextGenerationId
  config := config
  resources := resources.map fun resource => { resource, call := 0 }

theorem publishReplacement_switched (runs : KeepsRunning server meanwhile)
    (retains : ¬ (resources ≠ [] ∧ meanwhile.retainRaises = true)) :
    ∃ after, publishReplacement meanwhile config resources server =
        (after, .ok (server.store.generations.length, some server.store.current)) ∧
      published after = (server.store.generations.length, (published server).2) ∧
      after.store.generations = server.store.generations ++ [replacement server config resources] := by
  obtain ⟨first, alone, second⟩ := runs
  simp [publishReplacement, finds, onStore, Method.on, Method.bind_run, Generations.publishStart,
    first, alone, retains, Generations.install, second, published, replacement]

/-- What `publish` does after it has switched the current generation. -/
theorem retirePrevious_run (id : Nat) :
    let held := { server with store := holding id meanwhile.holders server.store }
    published (retirePrevious meanwhile id server).1 = published server ∧
    (retirePrevious meanwhile id server).1.store.generations =
      (retireGeneration meanwhile id held).1.store.generations ∧
    (retirePrevious meanwhile id server).2 = (retireGeneration meanwhile id held).2 := by
  intro held
  have same : published held = published server := by
    simp only [published, held, holding]
    split <;> rfl
  have kept := (@retireGeneration_published held meanwhile id).trans same
  have run : (retirePrevious meanwhile id server).2 = (retireGeneration meanwhile id held).2 ∧
      published (retirePrevious meanwhile id server).1 = published (retireGeneration meanwhile id held).1 ∧
      (retirePrevious meanwhile id server).1.store.generations =
        (retireGeneration meanwhile id held).1.store.generations := by
    simp [retirePrevious, onStore, Method.on, Method.bind_run, finishing, Generations.publishEnd,
      Generations.collectRetired, published, held]
  exact ⟨run.2.1.trans kept, run.2.2, run.1⟩

/-- `publish` has switched the current generation, and raises or not as the retirement of the old one
does. -/
theorem publish_switched (runs : KeepsRunning server meanwhile)
    (retains : ¬ (resources ≠ [] ∧ meanwhile.retainRaises = true))
    (coherent : server.store.current < server.store.generations.length) :
    ∃ after result, publish meanwhile config resources server = (after, result) ∧
      published after = (server.store.generations.length, (published server).2) ∧
      after.store.generations[server.store.generations.length]? =
        some (replacement server config resources) ∧
      ((∃ id, result = .ok id) ↔ RetiresCleanly server meanwhile) := by
  obtain ⟨installed, made, same, generations⟩ :=
    @publishReplacement_switched server meanwhile config resources runs retains
  have found := List.getElem?_eq_getElem coherent
  generalize server.store.generations[server.store.current] = generation at found
  have before : installed.store.generations[server.store.current]? = some generation := by
    rw [generations, List.getElem?_append_left coherent, found]
  obtain ⟨others, cleanly⟩ :=
    @retireGeneration_cases installed meanwhile server.store.current generation before
  obtain ⟨kept, left, result⟩ := @retirePrevious_run installed meanwhile server.store.current
  have clean : RetiresCleanly server meanwhile ↔
      (retirePrevious meanwhile server.store.current installed).2 = .ok () := by
    rw [result, cleanly, RetiresCleanly, found]
    simp
  have last : (retirePrevious meanwhile server.store.current
      installed).1.store.generations[server.store.generations.length]? =
      some (replacement server config resources) := by
    rw [left, others _ (Nat.ne_of_gt coherent), generations]
    exact List.getElem?_concat_length
  rw [clean]
  simp only [publish, Method.bind_run, made]
  generalize retirePrevious meanwhile server.store.current installed = run at kept last
  obtain ⟨after, error | done⟩ := run
  · exact ⟨after, _, rfl, kept.trans same, last, by simp⟩
  · exact ⟨after, _, rfl, kept.trans same, last, by simp⟩

end Publish

section Contract
variable {server : GatewayServer} {meanwhile : Meanwhile} {config : GatewayConfig}
  {listener : ListenerConfig}

/-- The checks of `reload` before it takes the lock. -/
structure Accepts (server : GatewayServer) (config : GatewayConfig) (listener : ListenerConfig) : Prop where
  running : server.store.lifecycle.state = .running
  single : config.listeners = [listener]
  identity : listener.identity = server.listener.identity
  ownership : config.ownership = server.config.ownership
  admission : config.admission = server.config.admission

/-- The checks before the manager of TLS makes contexts. -/
structure OffersTls (manager : TlsGenerationManager) (listener : ListenerConfig) : Prop where
  alpn : ∃ tls, listener.tlsConfig = some tls ∧ tls.alpn = ["http/1.1"]
  isOpen : manager.closed = false
  active : manager.active ≠ none

/-- A replacement of the contexts of TLS gets through to the end, or fails at once. -/
structure ReplacesTls (server : GatewayServer) (meanwhile : Meanwhile) : Prop where
  isOpen : meanwhile.closing = .never
  created : meanwhile.createRaises = false → meanwhile.tlsRetireRaises = false ∧
    meanwhile.retainRaises = false ∧ KeepsRunning server meanwhile ∧ RetiresCleanly server meanwhile

/-- The manager of TLS, if there is one, has nothing left to close. -/
def Inactive (server : GatewayServer) : Prop :=
  ∀ manager, server.tlsManager = some manager → manager.closed = true ∨ manager.active = none

/-- Nothing fails or lands between the switches of a reload, and the manager of TLS is not closed in
front of them. -/
structure Uninterrupted (server : GatewayServer) (config : GatewayConfig) (meanwhile : Meanwhile) :
    Prop where
  inFront : meanwhile.closing = .before → Inactive server
  between : ∀ listener, Accepts server config listener →
    match server.tlsManager with
    | none => KeepsRunning server meanwhile → RetiresCleanly server meanwhile
    | some manager => OffersTls manager listener → ReplacesTls server meanwhile

/-- The current generation is one of the new configuration, with the active generation of TLS. -/
structure Installed (server : GatewayServer) (config : GatewayConfig) : Prop where
  generation : ∃ generation, server.store.generations[server.store.current]? = some generation ∧
    generation.config = config.object ∧
    ∀ manager, server.tlsManager = some manager → ∃ id, manager.active = some id ∧
    generation.resources.map Retained.resource = [id]

/-- What a server has after a reload that returns. -/
structure Switched (server : GatewayServer) (config : GatewayConfig) :
    Prop extends Installed server config where
  listener : config.listeners = [server.listener]
  config : server.config = config

/-- A call that returns has switched everything, and one that raises has left everything as it was. -/
def SwitchesAll (server : GatewayServer) (config : GatewayConfig) (call : Call Nat) : Prop :=
  match call server with
  | (after, .ok _) => Switched after config
  | (after, .error _) => published after = published server

/-- A reload is all or nothing. -/
def AllOrNothing (server : GatewayServer) (config : GatewayConfig) (meanwhile : Meanwhile) : Prop :=
  SwitchesAll server config (reload meanwhile config)

/-- Without the checks nothing is switched. -/
theorem checkAndReplace_refused (refused : ∀ listener, ¬ Accepts server config listener) :
    ∃ error, checkAndReplace meanwhile config server = (server, .error error) := by
  simp only [checkAndReplace, Method.bind_run, Method.get_run]
  split
  · exact ⟨_, rfl⟩
  · rename_i running
    match single : config.listeners with
    | [] => exact ⟨_, rfl⟩
    | _ :: _ :: _ => exact ⟨_, rfl⟩
    | [listener] =>
      simp only
      split
      · exact ⟨_, rfl⟩
      · split
        · exact ⟨_, rfl⟩
        · split
          · exact ⟨_, rfl⟩
          · rename_i identity ownership admission
            exact absurd ⟨not_not.mp running, single, not_not.mp identity, not_not.mp ownership,
              not_not.mp admission⟩
              (refused listener)

/-- A close that lands leaves all that the checks read. -/
theorem accepts_lands {point : Closing} :
    Accepts (lands meanwhile point server).1 config listener ↔ Accepts server config listener := by
  simp only [lands, Method.modify_run]
  split
  · exact ⟨fun accepts => { accepts with }, fun accepts => { accepts with }⟩
  · rfl

theorem reload_refused (refused : ∀ listener, ¬ Accepts server config listener) :
    ∃ after error, reload meanwhile config server = (after, .error error) := by
  obtain ⟨error, run⟩ := @checkAndReplace_refused (lands meanwhile .before server).1 meanwhile config
    fun listener accepts => refused listener (accepts_lands.mp accepts)
  exact ⟨_, error, run⟩

/-- With them, the end of `reload` is that of `replace`. -/
theorem checkAndReplace_accepted (accepts : Accepts server config listener) :
    checkAndReplace meanwhile config server =
      match replace meanwhile config listener server with
      | (after, .ok generation) => ({ after with config, listener }, .ok generation)
      | (after, .error error) => (after, .error error) := by
  simp only [checkAndReplace, Method.bind_run, Method.get_run, accepts.running, accepts.single,
    accepts.identity, accepts.ownership, accepts.admission, ne_eq, not_true_eq_false, if_false]
  cases replace meanwhile config listener server with
  | mk after result => cases result <;> rfl

theorem switchesAll_replace (accepts : Accepts server config listener) :
    SwitchesAll server config (checkAndReplace meanwhile config) ↔
      match replace meanwhile config listener server with
      | (after, .ok _) => Installed after config
      | (after, .error _) => published after = published server := by
  unfold SwitchesAll
  rw [checkAndReplace_accepted accepts]
  cases replace meanwhile config listener server with
  | mk after result =>
    cases result with
    | error error => rfl
    | ok generation =>
      exact ⟨fun switched => ⟨switched.generation⟩, fun installed =>
        ⟨⟨installed.generation⟩, accepts.single, rfl⟩⟩

/-- `publish` has made its replacement the current generation. -/
theorem publish_installed {after : GatewayServer} {resources : List Nat}
    (switched : published after = (server.store.generations.length, (published server).2))
    (made : after.store.generations[server.store.generations.length]? =
      some (replacement server config.object resources))
    (tls : ∀ active, server.tlsManager.map (fun manager => manager.active) = some active →
      ∃ id, active = some id ∧ resources = [id]) :
    Installed after config := by
  simp only [published, Prod.mk.injEq] at switched
  obtain ⟨current, -, -, active⟩ := switched
  refine ⟨_, current ▸ made, rfl, fun manager is => ?_⟩
  rw [is] at active
  obtain ⟨id, isId, resource⟩ := tls manager.active active.symm
  exact ⟨id, isId, by simp [replacement, resource]⟩

/-- A server without TLS. -/
theorem switchesAll_plain (known : server.store.current < server.store.generations.length)
    (plain : server.tlsManager = none) (accepts : Accepts server config listener) :
    SwitchesAll server config (checkAndReplace meanwhile config) ↔
    (KeepsRunning server meanwhile → RetiresCleanly server meanwhile) := by
  rw [switchesAll_replace accepts]
  simp only [replace, Method.bind_run, Method.get_run, plain]
  by_cases runs : KeepsRunning server meanwhile
  · obtain ⟨after, result, run, switched, made, cleanly⟩ :=
      @publish_switched server meanwhile config.object [] runs (fun retains => retains.1 rfl) known
    rw [run, ← cleanly]
    cases result with
    | ok id => exact iff_of_true (publish_installed switched made (by simp [plain])) fun _ => ⟨id, rfl⟩
    | error error =>
      refine iff_of_false (fun same => ?_) fun clean => ?_
      · have current := congrArg Prod.fst (switched.symm.trans same)
        exact Nat.ne_of_gt known current
      · obtain ⟨id, impossible⟩ := clean runs
        cases impossible
  · obtain ⟨after, error, run, same⟩ := @publish_refused server meanwhile config.object [] (.inl runs)
    rw [run]
    exact iff_of_true same fun always => absurd always runs

/-- A generation of TLS that is activated has another identifier than the one before. -/
theorem published_activated {manager : TlsGenerationManager} (is : server.tlsManager = some manager)
    {after : GatewayServer}
    (activated : (published after).2.2.2 = some (some manager.nextGenerationId)) :
    published after ≠ published server := by
  intro same
  have active : some (some manager.nextGenerationId) = server.tlsManager.map fun manager =>
      manager.active :=
    activated.symm.trans (congrArg (fun parts => parts.2.2.2) same)
  rw [is, Option.map_some, Option.some.injEq] at active
  exact absurd (manager.fresh manager.nextGenerationId active.symm) (Nat.lt_irrefl _)

/-- The new generation of TLS is active, and `publish` decides the rest. -/
theorem publish_activated {manager : TlsGenerationManager}
    (known : server.store.current < server.store.generations.length)
    (is : server.tlsManager = some manager) :
    let activated := { server with
      tlsManager := some manager.activated, tlsGenerationReloads := server.tlsGenerationReloads + 1 }
    (match publish meanwhile config.object [manager.nextGenerationId] activated with
      | (after, .ok _) => Installed after config
      | (after, .error _) => published after = published server) ↔
    meanwhile.retainRaises = false ∧ KeepsRunning server meanwhile ∧ RetiresCleanly server meanwhile := by
  intro activated
  by_cases refused : ¬ KeepsRunning activated meanwhile ∨ [manager.nextGenerationId] ≠ [] ∧
    meanwhile.retainRaises = true
  · obtain ⟨after, error, run, same⟩ := @publish_refused activated meanwhile config.object _ refused
    rw [run]
    refine iff_of_false (published_activated is (congrArg (fun parts => parts.2.2.2) same)) fun passes => ?_
    rcases refused with stops | fails
    · exact stops ⟨passes.2.1.first, passes.2.1.alone, passes.2.1.second⟩
    · exact Bool.false_ne_true (passes.1.symm.trans fails.2)
  · obtain ⟨runs, retains⟩ := not_or.mp refused
    obtain ⟨first, alone, second⟩ := not_not.mp runs
    obtain ⟨after, result, run, switched, made, cleanly⟩ :=
      @publish_switched activated meanwhile config.object _ ⟨first, alone, second⟩ retains known
    have cleanly : (∃ id, result = .ok id) ↔ RetiresCleanly server meanwhile := cleanly
    rw [run, ← cleanly]
    cases result with
    | ok id =>
      have retained : meanwhile.retainRaises = false := by simpa using retains
      refine iff_of_true (publish_installed switched made ?_) ⟨retained, ⟨first, alone, second⟩, id, rfl⟩
      rintro active ⟨⟩
      exact ⟨manager.nextGenerationId, rfl, rfl⟩
    | error error =>
      refine iff_of_false (published_activated is (congrArg (fun parts => parts.2.2.2) switched))
        fun passes => ?_
      obtain ⟨id, impossible⟩ := passes.2.2
      cases impossible

/-- Whatever `publish` does, it is nothing to the manager of TLS. -/
theorem publish_manager (id : Nat) (resources : List Nat) :
    Leaves GatewayServer.tlsManager (publish meanwhile id resources) := by
  have store {α : Type} (section_ : Generations.Section α) :
      Leaves GatewayServer.tlsManager (onStore section_) :=
    fun _ => rfl
  have retires (id : Nat) : Leaves GatewayServer.tlsManager (retireGeneration meanwhile id) :=
    .bind (store _) fun _ => .ite (.raise _) (.pure _)
  have replaces : Leaves GatewayServer.tlsManager (publishReplacement meanwhile id resources) := by
    refine .bind (store _) fun _ => .bind (store _) fun _ => .ite (.bind (store _) fun _ => .raise _) ?_
    exact .bind (store _) fun _ => .bind .get fun _ => .bind (store _) fun _ => .pure _
  refine .bind replaces fun made => ?_
  obtain ⟨replacement, none | previous⟩ := made
  · exact .bind (retires _) fun _ => .raise _
  · refine .bind (.bind (store _) fun _ => .finishing (retires _) ?_) fun _ => .pure _
    exact .bind (store _) fun _ => .bind (store _) fun _ => .pure _

theorem lands_manager {point : Closing} : (lands meanwhile point server).1.tlsManager =
    if meanwhile.closing = point then server.tlsManager.map TlsGenerationManager.close
      else server.tlsManager := by
  simp only [lands, Method.modify_run]
  split <;> rfl

/-- A cleanup that only lands leaves the result of the call. -/
theorem finishing_lands {α : Type} {point : Closing} (call : Call α) :
    finishing call (lands meanwhile point) server =
      ((lands meanwhile point (call server).1).1, (call server).2) := rfl

theorem close_active {manager : TlsGenerationManager} (isOpen : manager.closed = false) :
    manager.close.active = none := by
  simp [TlsGenerationManager.close, isOpen, TlsGenerationManager.shut]

/-- The manager is open until a close lands, and has nothing active from then on. -/
theorem reloadTls_manager {manager : TlsGenerationManager} (isOpen : manager.closed = false)
    (active : manager.active ≠ none) :
    ∃ left, (reloadTls meanwhile manager server).1.tlsManager = some left ∧
      (meanwhile.closing ≠ .behind → left.closed = false) ∧
      (meanwhile.closing = .behind → left.active = none) := by
  have closes (left : TlsGenerationManager) (still : left.closed = false) :
      ∃ last, (if meanwhile.closing = .behind then (some left).map TlsGenerationManager.close
        else some left) = some last ∧
        (meanwhile.closing ≠ .behind → last.closed = false) ∧
        (meanwhile.closing = .behind → last.active = none) := by
    split
    · rename_i behind
      exact ⟨_, rfl, fun other => absurd behind other, fun _ => close_active still⟩
    · rename_i other
      exact ⟨_, rfl, fun _ => still, fun behind => absurd behind other⟩
  unfold reloadTls
  rw [if_neg (by simp [isOpen, active])]
  cases creates : meanwhile.createRaises with
  | true =>
    change ∃ last, (lands meanwhile .behind { server with tlsManager := some manager.numbered }).1.tlsManager =
      some last ∧ _
    rw [lands_manager]
    exact closes manager.numbered isOpen
  | false =>
    have passes : ¬ (manager.numbered.closed = true ∨ manager.numbered.active = none) := by
      simp [TlsGenerationManager.numbered, isOpen, active]
    simp only [Bool.false_eq_true, if_false, if_neg passes, Method.bind_run, Method.modify_run]
    have left : ∃ last,
        (lands meanwhile .behind { server with tlsManager := some manager.activated }).1.tlsManager = some last ∧
        (meanwhile.closing ≠ .behind → last.closed = false) ∧
        (meanwhile.closing = .behind → last.active = none) := by
      rw [lands_manager]
      exact closes manager.activated isOpen
    cases meanwhile.tlsRetireRaises <;> exact left

theorem replaceTls_manager {manager : TlsGenerationManager} :
    (replaceTls meanwhile config.object manager server).1.tlsManager =
    (reloadTls meanwhile manager server).1.tlsManager := by
  unfold replaceTls
  rw [Method.bind_run]
  rcases reloadTls meanwhile manager server with ⟨after, error | id⟩
  · rfl
  · have leaves : Leaves GatewayServer.tlsManager (publish meanwhile config.object [id]) :=
      publish_manager config.object [id]
    exact leaves { after with tlsGenerationReloads := after.tlsGenerationReloads + 1 }

/-- A server whose manager was closed is neither switched nor as it was. -/
theorem shut_neither {manager : TlsGenerationManager} (is : server.tlsManager = some manager)
    (active : manager.active ≠ none)
    {after : GatewayServer} (shut : (published after).2.2.2 = some none) :
    ¬ Installed after config ∧ published after ≠ published server := by
  simp only [published, Option.map_eq_some_iff] at shut
  obtain ⟨closed, isClosed, none_⟩ := shut
  constructor
  · rintro ⟨_, _, _, tls⟩
    obtain ⟨id, isActive, _⟩ := tls closed isClosed
    cases none_.symm.trans isActive
  · intro same
    have active' := congrArg (fun parts => parts.2.2.2) same
    simp only [published, is, isClosed, Option.map_some, Option.some.injEq] at active'
    exact active (active'.symm.trans none_)

/-- A close that lands behind the activation leaves nothing active, whatever the rest of the call does. -/
theorem finished_shut {manager : TlsGenerationManager} (isOpen : manager.closed = false)
    (active : manager.active ≠ none)
    (closes : meanwhile.closing = .behind ∨ meanwhile.closing = .later) :
    (published (finishing (replaceTls meanwhile config.object manager) (lands meanwhile .later)
      server).1).2.2.2 = some none := by
  obtain ⟨left, is, stays, shut⟩ := @reloadTls_manager server meanwhile manager isOpen active
  have now : (replaceTls meanwhile config.object manager server).1.tlsManager = some left :=
    replaceTls_manager.trans is
  rw [finishing_lands]
  unfold published
  rw [lands_manager, now]
  rcases closes with behind | later
  · rw [if_neg (by rw [behind]; decide), Option.map_some, shut behind]
  · rw [if_pos later, Option.map_some, Option.map_some, close_active (stays (by rw [later]; decide))]

/-- Nobody closes the manager: the creation and the retirement of contexts decide, and then `publish`. -/
theorem replaceTls_replaces {manager : TlsGenerationManager}
    (known : server.store.current < server.store.generations.length)
    (is : server.tlsManager = some manager) (isOpen : manager.closed = false)
    (active : manager.active ≠ none) (never : meanwhile.closing = .never) :
    (match replaceTls meanwhile config.object manager server with
      | (after, .ok _) => Installed after config
      | (after, .error _) => published after = published server) ↔ ReplacesTls server meanwhile := by
  have quiet (point : Closing) (other : point ≠ .never) (server : GatewayServer) :
      lands meanwhile point server = (server, .ok ()) := by
    simp only [lands, Method.modify_run]
    rw [if_neg (by rw [never]; exact other.symm)]
  have passes : ¬ (manager.numbered.closed = true ∨ manager.numbered.active = none) := by
    simp [TlsGenerationManager.numbered, isOpen, active]
  unfold replaceTls reloadTls
  rw [if_neg (by simp [isOpen, active])]
  cases creates : meanwhile.createRaises with
  | true =>
    refine iff_of_true ?_ ⟨never, fun created => absurd (created.symm.trans creates) Bool.false_ne_true⟩
    simp [Method.bind_run, quiet, is, TlsGenerationManager.numbered, published]
  | false =>
    simp only [Bool.false_eq_true, if_false, if_neg passes, Method.bind_run, Method.modify_run,
      quiet .behind (by decide)]
    cases retires : meanwhile.tlsRetireRaises with
    | true =>
      refine iff_of_false ?_ fun replaces =>
        Bool.false_ne_true ((replaces.created creates).1.symm.trans retires)
      exact published_activated is rfl
    | false =>
      have rest : ReplacesTls server meanwhile ↔
          meanwhile.retainRaises = false ∧ KeepsRunning server meanwhile ∧
          RetiresCleanly server meanwhile :=
        ⟨fun replaces => (replaces.created creates).2, fun passes => ⟨never, fun _ => ⟨retires, passes⟩⟩⟩
      rw [rest]
      exact @publish_activated server meanwhile config manager known is

/-- A server with TLS, whose contexts can be replaced. -/
theorem switchesAll_tls {manager : TlsGenerationManager}
    (known : server.store.current < server.store.generations.length)
    (is : server.tlsManager = some manager) (accepts : Accepts server config listener)
    (offers : OffersTls manager listener) (behind : meanwhile.closing ≠ .before) :
    SwitchesAll server config (checkAndReplace meanwhile config) ↔ ReplacesTls server meanwhile := by
  obtain ⟨⟨tls, isTls, alpn⟩, isOpen, active⟩ := offers
  have run : replace meanwhile config listener server =
      finishing (replaceTls meanwhile config.object manager) (lands meanwhile .later) server := by
    simp [replace, Method.bind_run, is, isTls, alpn]
  rw [switchesAll_replace accepts, run]
  by_cases never : meanwhile.closing = .never
  · have quiet : finishing (replaceTls meanwhile config.object manager) (lands meanwhile .later) server =
        replaceTls meanwhile config.object manager server := by
      rw [finishing_lands]
      simp only [lands, Method.modify_run, never]
      rfl
    rw [quiet]
    exact replaceTls_replaces known is isOpen active never
  · have closes : meanwhile.closing = .behind ∨ meanwhile.closing = .later := by
      cases closing : meanwhile.closing with
      | never => exact absurd closing never
      | before => exact absurd closing behind
      | behind => exact .inl rfl
      | later => exact .inr rfl
    have shut := @finished_shut server meanwhile config manager isOpen active closes
    generalize finishing (replaceTls meanwhile config.object manager) (lands meanwhile .later)
      server = result at shut ⊢
    obtain ⟨installed, same⟩ := @shut_neither server config manager is active result.1 shut
    refine iff_of_false ?_ fun replaces => never replaces.isOpen
    obtain ⟨after, error | id⟩ := result
    · exact same
    · exact installed

/-- A close leaves what is inactive as it is. -/
theorem published_lands {point : Closing} (inactive : Inactive server) :
    published (lands meanwhile point server).1 = published server := by
  simp only [lands, Method.modify_run]
  split
  · unfold published
    cases is : server.tlsManager with
    | none => rfl
    | some manager =>
      have same : manager.close.active = manager.active := by
        unfold TlsGenerationManager.close
        split
        · rfl
        · rename_i isOpen
          exact ((inactive manager is).resolve_left isOpen).symm
      rw [Option.map_some, Option.map_some, Option.map_some, same]
  · rfl

/-- A server with TLS, and a configuration or a manager that does not let the contexts be replaced:
the call raises. -/
theorem checkAndReplace_withheld {manager : TlsGenerationManager} (is : server.tlsManager = some manager)
    (withheld : ∀ listener, Accepts server config listener → ¬ OffersTls manager listener) :
    ∃ after error, checkAndReplace meanwhile config server = (after, .error error) ∧ published after =
      published server := by
  by_cases accepted : ∃ listener, Accepts server config listener
  · obtain ⟨listener, accepts⟩ := accepted
    rw [checkAndReplace_accepted accepts]
    simp only [replace, Method.bind_run, Method.get_run, is]
    cases isTls : listener.tlsConfig with
    | none => exact ⟨server, _, rfl, rfl⟩
    | some tls =>
      by_cases alpn : tls.alpn ≠ ["http/1.1"]
      · simp only [if_pos alpn, Method.raise_run]
        exact ⟨server, _, rfl, rfl⟩
      · have idle : manager.closed = true ∨ manager.active = none := by
          by_contra isOpen
          obtain ⟨notClosed, active⟩ := not_or.mp isOpen
          exact withheld listener accepts ⟨⟨tls, isTls, not_not.mp alpn⟩, by simpa using notClosed, active⟩
        have raises : replaceTls meanwhile config.object manager server =
            (server, .error (.runtime "TLS generation manager is closed")) := by
          unfold replaceTls reloadTls
          rw [Method.bind_run, if_pos idle]
          rfl
        have inactive : Inactive server := fun other is' => by
          rw [is, Option.some.injEq] at is'
          exact is' ▸ idle
        simp only [if_neg alpn, finishing_lands, raises]
        exact ⟨_, _, rfl, published_lands inactive⟩
  · obtain ⟨error, run⟩ := @checkAndReplace_refused server meanwhile config (not_exists.mp accepted)
    exact ⟨server, error, run, rfl⟩

/-- Behind a close that found nothing to close, the checks decide, and then the two replacements. -/
theorem switchesAll_iff (known : server.store.current < server.store.generations.length)
    (inFront : meanwhile.closing = .before → Inactive server) :
    SwitchesAll server config (checkAndReplace meanwhile config) ↔
      Uninterrupted server config meanwhile := by
  have only : Uninterrupted server config meanwhile ↔ ∀ listener, Accepts server config listener →
      match server.tlsManager with
      | none => KeepsRunning server meanwhile → RetiresCleanly server meanwhile
      | some manager => OffersTls manager listener → ReplacesTls server meanwhile :=
    ⟨fun all => all.between, fun all => ⟨inFront, all⟩⟩
  rw [only]
  by_cases accepted : ∃ listener, Accepts server config listener
  · obtain ⟨listener, accepts⟩ := accepted
    have one (other : ListenerConfig) (accepts' : Accepts server config other) : other = listener :=
      List.head_eq_of_cons_eq (accepts'.single.symm.trans accepts.single)
    cases is : server.tlsManager with
    | none =>
      rw [switchesAll_plain known is accepts]
      exact ⟨fun clean _ _ => clean, fun clean => clean listener accepts⟩
    | some manager =>
      by_cases offers : OffersTls manager listener
      · have behind : meanwhile.closing ≠ .before := fun before => by
          rcases inFront before manager is with closed | none_
          · exact Bool.false_ne_true (offers.isOpen.symm.trans closed)
          · exact offers.active none_
        rw [switchesAll_tls known is accepts offers behind]
        exact ⟨fun replaces _ _ _ => replaces, fun replaces => replaces listener accepts offers⟩
      · have withheld (other : ListenerConfig) (accepts' : Accepts server config other) :
            ¬ OffersTls manager other :=
          one other accepts' ▸ offers
        obtain ⟨after, error, run, same⟩ :=
          @checkAndReplace_withheld server meanwhile config manager is withheld
        refine iff_of_true ?_ fun other accepts' offers' => absurd offers' (withheld other accepts')
        rw [SwitchesAll, run]
        exact same
  · have refused : ∀ listener, ¬ Accepts server config listener := not_exists.mp accepted
    obtain ⟨error, run⟩ := @checkAndReplace_refused server meanwhile config refused
    refine iff_of_true ?_ fun listener accepts => absurd accepts (refused listener)
    rw [SwitchesAll, run]

/-- A listener with TLS, whose contexts are those of the given object. -/
def tlsListener (object : Nat) : ListenerConfig where
  host := "127.0.0.1"
  port := 8443
  backlog := 128
  reusePort := false
  tlsProvider := "openssl"
  tlsConfig := some { object, alpn := ["http/1.1"] }
  tlsProviderLibrary := "libpcc_tls.so"
  tlsProviderLibrarySha256 := ""
  tlsProviderMaxBytes := 1048576

def tlsGateway (object : Nat) : GatewayConfig where
  object := object
  listeners := [tlsListener object]
  carrierCount := 1
  waitsetBackend := "epoll"
  installSignalHandlers := false
  admission := {}

theorem firstGeneration_fresh (generation : Nat) (isActive : some 1 = some generation) :
    generation < 2 := by
  cases isActive
  decide

/-- A gateway that runs, with TLS. -/
def runningTls : GatewayServer where
  store := {
    lifecycle := { limits := {}, state := .running }
    generations := [{ generationId := 1, config := 0, resources := [{ resource := 1, call := 0 }] }] }
  config := tlsGateway 0
  listener := tlsListener 0
  tlsManager := some { nextGenerationId := 2, active := some 1, fresh := firstGeneration_fresh }

end Contract
end Reload
end PccGateway
