import PccGateway.Errors

namespace PccGateway

/-- A generation of certificate contexts, which are named in the order of their creation; that of the
default certificate is the first one. `recorded` keeps those it was made with. -/
structure TlsGeneration where
  generationId : Nat
  references : Int := 1
  retired : Bool := false
  destroyed : Bool := false
  contexts : List Nat
  recorded : List Nat := contexts
  deriving DecidableEq, Repr

namespace TlsGeneration

def retain (generation : TlsGeneration) : Except Exn TlsGeneration :=
  if generation.references ≤ 0 ∨ generation.destroyed then .error (.runtime "TLS generation is released")
  else .ok { generation with references := generation.references + 1 }

/-- `_take_contexts_locked`. -/
def takeContexts (generation : TlsGeneration) : TlsGeneration × Option (List Nat) :=
  if generation.destroyed then (generation, none)
  else ({ generation with contexts := [], destroyed := true }, some generation.contexts)

/-- One reference less, with the contexts to free if it was the last. -/
def drop (generation : TlsGeneration) : TlsGeneration × Option (List Nat) :=
  let less := { generation with references := generation.references - 1 }
  if less.references = 0 then less.takeContexts else (less, none)

def release (generation : TlsGeneration) : Except Exn (TlsGeneration × Option (List Nat)) :=
  if generation.references ≤ 0 ∨ generation.destroyed then
    .error (.runtime "TLS generation released more than once")
  else .ok generation.drop

def retire (generation : TlsGeneration) : Except Exn (TlsGeneration × Option (List Nat)) :=
  if generation.retired then .ok (generation, none)
  else if generation.references ≤ 0 ∨ generation.destroyed then
    .error (.runtime "TLS generation released more than once")
  else .ok { generation with retired := true }.drop

/-- The context of the default certificate. -/
def context (generation : TlsGeneration) : Except Exn Nat :=
  match generation.destroyed, generation.contexts with
  | false, context :: _ => .ok context
  | _, _ => .error (.runtime "TLS generation is released")

/-- `select_context`, when the server name chose this certificate. -/
def selectContext (generation : TlsGeneration) (certificate : Nat) : Except Exn Nat :=
  if generation.destroyed then .error (.runtime "TLS generation is released")
  else
    match generation.contexts[certificate]? with
    | none => .error (.runtime "TLS generation context is missing")
    | some context => .ok context

end TlsGeneration

/-- Generations are named by their places among all there have been. -/
structure TlsGenerationManager where
  active : Option Nat
  closed : Bool := false
  nextGenerationId : Nat := 2
  /-- A reload has `_reload_lock`. -/
  reloadLocked : Bool := false
  deriving DecidableEq, Repr

/-- `self._closed or self._active is None`. -/
def TlsGenerationManager.shut (manager : TlsGenerationManager) : Bool :=
  manager.closed || manager.active.isNone

/-- A reload that raised: the contexts that it created, and the active generation when it began and
when it ended. -/
structure FailedReload where
  created : List Nat
  before : Option Nat
  after : Option Nat
  deriving DecidableEq, Repr

/-- A call that is between its sections. -/
inductive TlsCall where
  /-- `reload` waits for the lock. The default certificate comes with so many others. -/
  | reloading (sniCertificates : Nat)
  /-- It creates the contexts of so many certificates more. -/
  | building (generationId : Nat) (before : Option Nat) (certificates : Nat) (contexts : List Nat)
  /-- A creation failed: those that were created are freed. -/
  | discarding (before : Option Nat) (created left : List Nat)
  /-- `close` of the manager waits for the lock. -/
  | closing
  /-- `retire` is called next. -/
  | retiring (generation : Nat) (failed : Option FailedReload)
  /-- `_free_contexts`. -/
  | freeing (contexts : List Nat) (failed : Option FailedReload)
  /-- A channel reads the default context of its generation. -/
  | connecting (generation : Nat)
  /-- It calls `new_connection`. -/
  | opening (generation context : Nat)
  /-- The `close` of a channel calls `free_connection`. -/
  | shutting (generation : Nat)
  /-- The reference of a channel is released next. -/
  | dropping (generation : Nat)
  /-- The handshake of a channel has its generation and selects a context. -/
  | selecting (generation certificate : Nat)
  /-- It calls `set_server_context`. -/
  | installing (generation context : Nat)
  deriving DecidableEq, Repr

namespace TlsCall

/-- The generation of which the call has a reference. -/
def holds : TlsCall → Option Nat
  | .connecting generation | .opening generation _ | .shutting generation | .dropping generation =>
    some generation
  | _ => none

/-- The contexts that the call has. -/
def contexts : TlsCall → List Nat
  | .building _ _ _ contexts | .discarding _ _ contexts | .freeing contexts _ => contexts
  | _ => []

/-- Those that it has to free. -/
def drops : TlsCall → List Nat
  | .discarding _ _ contexts | .freeing contexts _ => contexts
  | _ => []

/-- A reload that has the lock. -/
def locks : TlsCall → Bool
  | .building _ _ _ _ | .discarding _ _ _ => true
  | _ => false

/-- A handshake that is about to pass on a context of this generation. -/
def installs (generation : Nat) : TlsCall → Bool
  | .installing other _ => generation == other
  | _ => false

end TlsCall

/-- What the provider sees of a context. It is used when it is passed to `new_connection` or
`set_server_context`. -/
inductive ContextEvent where
  | created (context : Nat)
  | used (context : Nat)
  | freed (context : Nat)
  deriving DecidableEq, Repr

def ContextEvent.freed? : ContextEvent → Option Nat
  | .freed context => some context
  | _ => none

/-- The contexts that were freed, in their order. -/
def freedContexts (events : List ContextEvent) : List Nat := events.filterMap ContextEvent.freed?

/-- The references to a generation apart from that of its manager. -/
def tlsUsers (holders : List Nat) (channels : List (Option Nat)) (calls : List TlsCall) (id : Nat) : Nat :=
  holders.count id + channels.count (some id) + calls.countP fun call => call.holds == some id

/-- A run: the calls under way, the generation of each channel that is not closed, the other holders
of a reference, and what was done so far. -/
structure TlsLifetime where
  manager : TlsGenerationManager
  generations : List TlsGeneration
  calls : List TlsCall := []
  channels : List (Option Nat) := []
  holders : List Nat := []
  created : Nat
  events : List ContextEvent
  activeIds : List Nat := [1]
  failures : List FailedReload := []
  deriving DecidableEq, Repr

inductive TlsAction where
  /-- `new_channel`, for the active generation or for another one. -/
  | newChannel (generation : Option Nat)
  /-- `TlsChannel(generation, fd)`. -/
  | channel (generation : Nat)
  | reload (sniCertificates : Nat)
  | close
  | retain (generation : Nat)
  | release (generation : Nat)
  | closeChannel (channel : Nat)
  /-- A handshake whose client named this certificate. -/
  | handshake (channel certificate : Nat)
  /-- The call at this place goes on; what it asks of the provider succeeds or not. -/
  | proceed (call : Nat) (succeeds : Bool)
  deriving DecidableEq, Repr

namespace TlsLifetime

/-- A manager over a provider, when the contexts of the first generation were created. -/
def init (sniCertificates : Nat) : TlsLifetime where
  manager := { active := some 0 }
  generations := [{ generationId := 1, contexts := List.range (sniCertificates + 1) }]
  created := sniCertificates + 1
  events := (List.range (sniCertificates + 1)).map .created

def goes (call : TlsCall) (run : TlsLifetime) : TlsLifetime := { run with calls := call :: run.calls }

def put (id : Nat) (generation : TlsGeneration) (run : TlsLifetime) : TlsLifetime :=
  { run with generations := run.generations.set id generation }

def logs (event : ContextEvent) (run : TlsLifetime) : TlsLifetime :=
  { run with events := run.events ++ [event] }

/-- `_free_contexts` begins with the last one. -/
def freeing (contexts : Option (List Nat)) (failed : Option FailedReload) : TlsCall :=
  .freeing (contexts.getD []).reverse failed

/-- `generation.retain()`, and then `next`. -/
def retaining (id : Nat) (next : TlsLifetime → TlsLifetime) (run : TlsLifetime) : TlsLifetime :=
  match run.generations[id]? with
  | none => run
  | some generation =>
    match generation.retain with
    | .error _ => run
    | .ok generation => next (run.put id generation)

def proceed (call : TlsCall) (succeeds : Bool) (run : TlsLifetime) : TlsLifetime :=
  match call with
  | .reloading sniCertificates =>
    if run.manager.reloadLocked then run.goes call
    else if run.manager.shut then run
    else
      goes (.building run.manager.nextGenerationId run.manager.active (sniCertificates + 1) [])
        { run with manager := { run.manager with
            nextGenerationId := run.manager.nextGenerationId + 1, reloadLocked := true } }
  | .building generationId before (left + 1) contexts =>
    if succeeds then
      goes (.building generationId before left (contexts ++ [run.created]))
        ({ run with created := run.created + 1 }.logs (.created run.created))
    else run.goes (.discarding before contexts contexts.reverse)
  | .building generationId _ 0 contexts =>
    let replacement : TlsGeneration := { generationId, contexts }
    let made := { run with generations := run.generations ++ [replacement] }
    match run.manager.shut, run.manager.active with
    | false, some previous =>
      goes (.retiring previous none) { made with
        manager := { run.manager with active := some run.generations.length, reloadLocked := false }
        activeIds := run.activeIds ++ [generationId] }
    | _, active =>
      goes (.retiring run.generations.length (some ⟨contexts, active, active⟩))
        { made with manager := { run.manager with reloadLocked := false } }
  | .discarding before created (context :: rest) =>
    goes (.discarding before created rest) (run.logs (.freed context))
  | .discarding before created [] =>
    { run with
      manager := { run.manager with reloadLocked := false }
      failures := run.failures ++ [⟨created, before, run.manager.active⟩] }
  | .closing =>
    if run.manager.reloadLocked then run.goes call
    else if run.manager.closed then run
    else
      let closed := { run with manager := { run.manager with closed := true, active := none } }
      match run.manager.active with
      | none => closed
      | some generation => closed.goes (.retiring generation none)
  | .retiring id failed =>
    match run.generations[id]? with
    | none => run
    | some generation =>
      match generation.retire with
      | .error _ => run
      | .ok (generation, contexts) => goes (freeing contexts failed) (run.put id generation)
  | .freeing (context :: rest) failed => goes (.freeing rest failed) (run.logs (.freed context))
  | .freeing [] (some failed) => { run with failures := run.failures ++ [failed] }
  | .freeing [] none => run
  | .connecting id =>
    match run.generations[id]? with
    | none => run
    | some generation =>
      match generation.context with
      | .error _ => run.goes (.dropping id)
      | .ok context => run.goes (.opening id context)
  | .opening id context =>
    let used := run.logs (.used context)
    if succeeds then { used with channels := used.channels ++ [some id] } else used.goes (.dropping id)
  | .shutting id => run.goes (.dropping id)
  | .dropping id =>
    match run.generations[id]? with
    | none => run
    | some generation =>
      match generation.release with
      | .error _ => run
      | .ok (generation, contexts) => goes (freeing contexts none) (run.put id generation)
  | .selecting id certificate =>
    match run.generations[id]? with
    | none => run
    | some generation =>
      match generation.selectContext certificate with
      | .error _ => run
      | .ok context => run.goes (.installing id context)
  | .installing _ context => run.logs (.used context)

/-- Only a holder releases a reference, and only a channel that is not closed yet begins its handshake
or its `close`. -/
def step (run : TlsLifetime) : TlsAction → TlsLifetime
  | .newChannel chosen =>
    if run.manager.shut then run
    else
      match chosen <|> run.manager.active with
      | none => run
      | some id => run.retaining id (goes (.connecting id))
  | .channel id => run.retaining id (goes (.connecting id))
  | .reload sniCertificates => run.goes (.reloading sniCertificates)
  | .close => run.goes .closing
  | .retain id => run.retaining id fun run => { run with holders := run.holders ++ [id] }
  | .release id =>
    if id ∈ run.holders then proceed (.dropping id) true { run with holders := run.holders.erase id }
    else run
  | .closeChannel channel =>
    match run.channels[channel]? with
    | some (some id) => goes (.shutting id) { run with channels := run.channels.set channel none }
    | _ => run
  | .handshake channel certificate =>
    match run.channels[channel]? with
    | some (some id) => run.goes (.selecting id certificate)
    | _ => run
  | .proceed place succeeds =>
    match run.calls[place]? with
    | none => run
    | some call => { run with calls := run.calls.eraseIdx place }.proceed call succeeds

def freed (run : TlsLifetime) : List Nat := freedContexts run.events

def users (run : TlsLifetime) (id : Nat) : Nat := tlsUsers run.holders run.channels run.calls id

/-- The generation of which the action drops the last reference. -/
def lastDrop (run : TlsLifetime) (action : TlsAction) : Option Nat :=
  let dropped : Option (Nat × Bool) :=
    match action with
    | .release id => if id ∈ run.holders then some (id, false) else none
    | .proceed place _ =>
      match run.calls[place]? with
      | some (.dropping id) => some (id, false)
      | some (.retiring id _) => some (id, true)
      | _ => none
    | _ => none
  dropped.bind fun (id, retires) =>
    run.generations[id]?.bind fun generation =>
      if generation.references = 1 ∧ ¬ (retires ∧ generation.retired) then some id else none

/-- No handshake is about to pass on a context of the generation whose last reference goes. -/
def Allows (run : TlsLifetime) (action : TlsAction) : Prop :=
  ∀ id ∈ run.lastDrop action, ∀ call ∈ run.calls, call.installs id = false

instance (run : TlsLifetime) (action : TlsAction) : Decidable (run.Allows action) :=
  inferInstanceAs (Decidable (∀ id ∈ run.lastDrop action, _))

end TlsLifetime

end PccGateway
