import PccGateway.Errors

namespace PccGateway

inductive NativeResource where
  | context | session
  deriving DecidableEq, Repr

/-- The state that `_state_lock` protects. Libraries are named in the order in which they were opened,
and an entrypoint by its library. -/
structure NativeProvider where
  libraryHandle : Option Nat := none
  entrypoint : Option Nat := none
  activated : Bool := false
  activeContexts : Nat := 0
  activeSessions : Nat := 0
  pendingResources : Nat := 0
  activeCalls : Nat := 0
  closeRequested : Bool := false
  closed : Bool := false
  deriving DecidableEq, Repr

namespace NativeProvider

/-- `_take_library_to_close_locked`. -/
def takeLibraryToClose (provider : NativeProvider) : NativeProvider × Option Nat :=
  if !provider.closeRequested || provider.closed || provider.activeContexts != 0 ||
    provider.activeSessions != 0 ||
      provider.pendingResources != 0 || provider.activeCalls != 0 then (provider, none)
  else
    ({ provider with libraryHandle := none, entrypoint := none, activated := false, closed := true },
      provider.libraryHandle)

/-- `_begin_call`. -/
def beginCall (provider : NativeProvider) : Except Exn (NativeProvider × Nat) :=
  match provider.closed, provider.entrypoint with
  | false, some library => .ok ({ provider with activeCalls := provider.activeCalls + 1 }, library)
  | _, _ => .error (.runtime "native TLS provider is not activated")

/-- `_finish_call`. -/
def finishCall (provider : NativeProvider) : Except Exn (NativeProvider × Option Nat) :=
  if provider.activeCalls = 0 then .error (.runtime "native TLS provider call accounting underflow")
  else .ok { provider with activeCalls := provider.activeCalls - 1 }.takeLibraryToClose

/-- `_reserve_resource`. -/
def reserveResource (provider : NativeProvider) : Except Exn NativeProvider :=
  if provider.closeRequested || provider.closed then .error (.runtime "native TLS provider is closing")
  else .ok { provider with pendingResources := provider.pendingResources + 1 }

def active (kind : NativeResource) (provider : NativeProvider) : Nat :=
  match kind with
  | .context => provider.activeContexts
  | .session => provider.activeSessions

def setActive (kind : NativeResource) (count : Nat) (provider : NativeProvider) : NativeProvider :=
  match kind with
  | .context => { provider with activeContexts := count }
  | .session => { provider with activeSessions := count }

/-- `_publish_resource`. -/
def publishResource (kind : NativeResource) (provider : NativeProvider) : Except Exn NativeProvider :=
  if provider.pendingResources = 0 then
    .error (.runtime "native TLS provider resource accounting underflow")
  else .ok ({ provider with pendingResources := provider.pendingResources - 1 }.setActive kind
    (provider.active kind + 1))

/-- `_cancel_resource`. -/
def cancelResource (provider : NativeProvider) : Except Exn (NativeProvider × Option Nat) :=
  if provider.pendingResources = 0 then
    .error (.runtime "native TLS provider resource accounting underflow")
  else .ok { provider with pendingResources := provider.pendingResources - 1 }.takeLibraryToClose

/-- `_release_resource`. -/
def releaseResource (kind : NativeResource) (provider : NativeProvider) :
    Except Exn (NativeProvider × Option Nat) :=
  if provider.active kind = 0 then
    .error (.runtime
      (match kind with
        | .context => "native TLS provider context accounting underflow"
        | .session => "native TLS provider session accounting underflow"))
  else .ok (provider.setActive kind (provider.active kind - 1)).takeLibraryToClose

/-- How `activate` begins: whether there is nothing to do. -/
def activateCheck (provider : NativeProvider) : Except Exn Bool :=
  if provider.activated && !provider.closed then .ok true
  else if provider.closeRequested || provider.closed then .error (.runtime "native TLS provider is closed")
  else .ok false

/-- How it ends: the library is published unless the provider was closed meanwhile. -/
def publish (library : Nat) (provider : NativeProvider) : Option NativeProvider :=
  if !provider.closeRequested && !provider.closed then
    some { provider with libraryHandle := some library, entrypoint := some library, activated := true }
  else none

/-- `close`, with the library to unload. -/
def close (provider : NativeProvider) : NativeProvider × Option Nat :=
  if provider.closed || provider.closeRequested then (provider, none)
  else { provider with closeRequested := true }.takeLibraryToClose

end NativeProvider

def pccNativeTlsProviderName : String := "pcc-native-tls-v1"

/-- The registered providers by their names. -/
structure TlsProviderRegistry where
  providers : List String
  ownsProviders : Bool
  closeOnLastManager : Bool
  managerLeases : Nat := 0
  closed : Bool := false
  providerCloseStarted : List String := []
  deriving DecidableEq, Repr

namespace TlsProviderRegistry

/-- `_lookup_locked`, with whether the provider is `production_ready`. -/
def lookup (name : String) (requireProduction productionReady : Bool)
    (registry : TlsProviderRegistry) : Except Exn Unit :=
  if registry.closed then .error (.runtime "TLS provider registry is closed")
  else if name ∉ registry.providers then .error (.runtime ("unknown TLS provider: " ++ name))
  else if requireProduction && !productionReady then
    .error (.runtime ("TLS provider is test-only: " ++ name))
  else .ok ()

/-- `_providers_to_close_locked`. -/
def providersToClose (registry : TlsProviderRegistry) : TlsProviderRegistry × List String :=
  if !registry.ownsProviders || !registry.closed || registry.managerLeases != 0 then (registry, [])
  else
    registry.providers.foldl
      (fun (registry, pending) name =>
        if name ∈ registry.providerCloseStarted then (registry, pending)
        else ({ registry with providerCloseStarted := registry.providerCloseStarted ++ [name] },
          pending ++ [name]))
      (registry, [])

def releaseManager (registry : TlsProviderRegistry) : Except Exn (TlsProviderRegistry × List String) :=
  if registry.managerLeases = 0 then .error (.runtime "TLS registry manager lease released twice")
  else
    let fewer := { registry with managerLeases := registry.managerLeases - 1 }
    .ok (if fewer.closeOnLastManager && fewer.managerLeases == 0 then { fewer with closed := true }
      else fewer).providersToClose

def close (registry : TlsProviderRegistry) : TlsProviderRegistry × List String :=
  if registry.closed then (registry, []) else { registry with closed := true }.providersToClose

end TlsProviderRegistry

/-- What `activate` was called for. -/
inductive ActivationFor where
  | itself | context | manager
  deriving DecidableEq, Repr

/-- What `_invoke` was called for. -/
inductive NativePurpose where
  | create (kind : NativeResource)
  | operate
  | free (kind : NativeResource)
  deriving DecidableEq, Repr

/-- What follows when a library was unloaded. -/
inductive AfterUnload where
  | done
  | invoked (purpose : NativePurpose) (succeeded : Bool)
  | closeProviders (names : List String)
  deriving DecidableEq, Repr

/-- A call that is between its sections. -/
inductive NativeCall where
  /-- `activate` waits for `_activation_lock`. -/
  | activating (reason : ActivationFor)
  | checking (reason : ActivationFor)
  | hashing (reason : ActivationFor)
  | opening (reason : ActivationFor)
  | linking (reason : ActivationFor) (library : Nat)
  | probing (reason : ActivationFor) (library : Nat)
  | publishing (reason : ActivationFor) (library : Nat)
  /-- The activation failed, and its library is closed. -/
  | discarding (reason : ActivationFor) (library : Nat)
  /-- `create_server_context` checks its arguments and calls `_reserve_resource`. -/
  | reserving
  /-- `_begin_call`. -/
  | beginning (purpose : NativePurpose)
  /-- The entrypoint is called. -/
  | invoking (purpose : NativePurpose) (library : Nat)
  /-- `_finish_call`. -/
  | finishing (purpose : NativePurpose) (succeeded : Bool)
  /-- `_publish_resource`. -/
  | completing (kind : NativeResource)
  /-- `_cancel_resource`. -/
  | canceling (kind : NativeResource)
  /-- `_release_resource`. -/
  | releasing (kind : NativeResource)
  /-- `_close_library`. -/
  | unloading (library : Option Nat) (after : AfterUnload)
  /-- `acquire_manager` activates another provider. -/
  | activatingOther
  /-- It failed and undoes its lease. -/
  | unleasing
  /-- `_close_providers`. -/
  | closingProviders (names : List String)
  deriving DecidableEq, Repr

inductive NativeEvent where
  | opened (library : Nat)
  | published (library : Nat)
  /-- A call of the entrypoint of this library starts. -/
  | entered (library : Nat)
  | unloaded (library : Nat)
  /-- The registry calls `close` of the provider. -/
  | closing
  /-- An accounting error was raised. -/
  | underflow
  deriving DecidableEq, Repr

/-- A run: the provider, its owner, which contexts and sessions are not released, the calls under way
and what was done so far. -/
structure NativeTls where
  provider : NativeProvider := {}
  registry : TlsProviderRegistry
  activationLocked : Bool := false
  contexts : List Bool := []
  sessions : List Bool := []
  calls : List NativeCall := []
  opened : Nat := 0
  events : List NativeEvent := []
  deriving DecidableEq, Repr

inductive NativeAction where
  | activate
  | createServerContext
  | newConnection (context : Nat)
  /-- `handshake`, `selected_alpn`, `read`, `write`, `close_notify`, and `set_server_context` with its
  context. -/
  | operate (session : Nat) (context : Option Nat)
  | freeConnection (session : Nat)
  | freeContext (context : Nat)
  | close
  /-- Another provider than this one may be production ready or not. -/
  | acquireManager (name : String) (requireProduction otherReady : Bool)
  | releaseManager
  | closeRegistry
  /-- The call at this place goes on; what it does outside a lock succeeds or not. -/
  | proceed (call : Nat) (succeeds : Bool)
  deriving DecidableEq, Repr

namespace NativeTls

def goes (call : NativeCall) (run : NativeTls) : NativeTls := { run with calls := call :: run.calls }

def logs (event : NativeEvent) (run : NativeTls) : NativeTls := { run with events := run.events ++ [event] }

/-- The objects of this kind. -/
def objects (kind : NativeResource) (run : NativeTls) : List Bool :=
  match kind with
  | .context => run.contexts
  | .session => run.sessions

def setObjects (kind : NativeResource) (objects : List Bool) (run : NativeTls) : NativeTls :=
  match kind with
  | .context => { run with contexts := objects }
  | .session => { run with sessions := objects }

/-- An `_invoke` ended, or raised. -/
def invoked (purpose : NativePurpose) (succeeded : Bool) (run : NativeTls) : NativeTls :=
  match purpose, succeeded with
  | .create kind, true => run.goes (.completing kind)
  | .create kind, false => run.goes (.canceling kind)
  | .operate, _ => run
  | .free kind, _ => run.goes (.releasing kind)

/-- A section that may raise an accounting error, and then unloads a library. -/
def accounts (section_ : Except Exn (NativeProvider × Option Nat)) (after : AfterUnload)
    (run : NativeTls) : NativeTls :=
  match section_ with
  | .error _ => run.logs .underflow
  | .ok (provider, library) => goes (.unloading library after) { run with provider }

/-- `activate` returned or raised. -/
def activated (reason : ActivationFor) (succeeded : Bool) (run : NativeTls) : NativeTls :=
  let free := { run with activationLocked := false }
  match reason, succeeded with
  | .itself, _ => free
  | .context, true => free.goes .reserving
  | .context, false => free
  | .manager, true => free
  | .manager, false => free.goes .unleasing

/-- `release_manager`. -/
def releaseManager (run : NativeTls) : NativeTls :=
  match run.registry.releaseManager with
  | .error _ => run
  | .ok (registry, pending) => goes (.closingProviders pending) { run with registry }

def proceed (call : NativeCall) (succeeds : Bool) (run : NativeTls) : NativeTls :=
  match call with
  | .activating reason =>
    if run.activationLocked then run.goes call else goes (.checking reason)
      { run with activationLocked := true }
  | .checking reason =>
    match run.provider.activateCheck with
    | .error _ => run.activated reason false
    | .ok true => run.activated reason true
    | .ok false => run.goes (.hashing reason)
  | .hashing reason => if succeeds then run.goes (.opening reason) else run.activated reason false
  | .opening reason =>
    if succeeds then
      goes (.linking reason run.opened) ({ run with opened := run.opened + 1 }.logs (.opened run.opened))
    else run.activated reason false
  | .linking reason library =>
    if succeeds then run.goes (.probing reason library) else run.goes (.discarding reason library)
  | .probing reason library =>
    (run.logs (.entered library)).goes (if succeeds then .publishing reason library
      else .discarding reason library)
  | .publishing reason library =>
    match run.provider.publish library with
    | none => run.goes (.discarding reason library)
    | some provider => ({ run with provider }.logs (.published library)).activated reason true
  | .discarding reason library => (run.logs (.unloaded library)).activated reason false
  | .reserving =>
    if succeeds then
      match run.provider.reserveResource with
      | .error _ => run
      | .ok provider => goes (.beginning (.create .context)) { run with provider }
    else run
  | .beginning purpose =>
    match run.provider.beginCall with
    | .error _ => run.invoked purpose false
    | .ok (provider, library) => goes (.invoking purpose library) { run with provider }
  | .invoking purpose library => (run.logs (.entered library)).goes (.finishing purpose succeeds)
  | .finishing purpose succeeded => run.accounts run.provider.finishCall (.invoked purpose succeeded)
  | .completing kind =>
    match run.provider.publishResource kind with
    | .error _ => run.logs .underflow
    | .ok provider => { run with provider }.setObjects kind (run.objects kind ++ [true])
  | .canceling _ => run.accounts run.provider.cancelResource .done
  | .releasing kind => run.accounts (run.provider.releaseResource kind) .done
  | .unloading library after =>
    let unloaded :=
      match library with
      | none => run
      | some library => run.logs (.unloaded library)
    match after with
    | .done => unloaded
    | .invoked purpose succeeded => unloaded.invoked purpose succeeded
    | .closeProviders names => unloaded.goes (.closingProviders names)
  | .activatingOther => if succeeds then run else run.goes .unleasing
  | .unleasing => run.releaseManager
  | .closingProviders [] => run
  | .closingProviders (name :: rest) =>
    if name = pccNativeTlsProviderName then
      goes (.unloading run.provider.close.2 (.closeProviders rest))
        ({ run with provider := run.provider.close.1 }.logs .closing)
    else run.goes (.closingProviders rest)

/-- `free_connection` and `free_context`. -/
def frees (kind : NativeResource) (object : Nat) (run : NativeTls) : NativeTls :=
  match (run.objects kind)[object]? with
  | some true => (run.setObjects kind ((run.objects kind).set object false)).goes (.beginning (.free kind))
  | _ => run

def step (run : NativeTls) : NativeAction → NativeTls
  | .activate => run.goes (.activating .itself)
  | .createServerContext => run.goes (.activating .context)
  | .newConnection context =>
    match run.contexts[context]? with
    | some true =>
      match run.provider.reserveResource with
      | .error _ => run
      | .ok provider => goes (.beginning (.create .session)) { run with provider }
    | _ => run
  | .operate session context =>
    match run.sessions[session]? with
    | some true =>
      if context.all fun context => run.contexts[context]? == some true then
        run.goes (.beginning .operate) else run
    | _ => run
  | .freeConnection session => run.frees .session session
  | .freeContext context => run.frees .context context
  | .close => goes (.unloading run.provider.close.2 .done) { run with provider := run.provider.close.1 }
  | .acquireManager name requireProduction otherReady =>
    match run.registry.lookup name requireProduction (name == pccNativeTlsProviderName || otherReady) with
    | .error _ => run
    | .ok () =>
      let leased := { run with registry := { run.registry with
        managerLeases := run.registry.managerLeases + 1 } }
      if requireProduction then
        leased.goes (if name = pccNativeTlsProviderName then .activating .manager else .activatingOther)
      else leased
  | .releaseManager => run.releaseManager
  | .closeRegistry =>
    goes (.closingProviders run.registry.close.2) { run with registry := run.registry.close.1 }
  | .proceed place succeeds =>
    match run.calls[place]? with
    | none => run
    | some call => { run with calls := run.calls.eraseIdx place }.proceed call succeeds

end NativeTls

end PccGateway
