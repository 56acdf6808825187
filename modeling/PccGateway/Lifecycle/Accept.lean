import PccGateway.Lifecycle.GenerationRun

namespace PccGateway
namespace Accepting
open Generations

/-- What `transport.accept` reports. -/
inductive SocketOutcome where
  | progress
  | wouldBlock
  /-- Any other value. -/
  | other
  deriving DecidableEq

/-- A generation of certificates. `others` of its references are those of its publisher and of the
gateway generations that it is a resource of; a channel has one for itself. -/
structure TlsGeneration where
  references : Int := 1
  destroyed : Bool := false
  /-- Its provider is not the one of the manager. -/
  foreign : Bool := false
  others : Nat := 1
  deriving DecidableEq

namespace TlsGeneration

def retain (generation : TlsGeneration) : Option TlsGeneration :=
  if generation.references ≤ 0 ∨ generation.destroyed = true then none
  else some { generation with references := generation.references + 1 }

/-- `release`. An exception of `free_context` comes after the count. -/
def release (generation : TlsGeneration) : Option TlsGeneration :=
  if generation.references ≤ 0 ∨ generation.destroyed = true then none
  else some { generation with
    references := generation.references - 1
    destroyed := decide (generation.references - 1 = 0) }

end TlsGeneration

/-- Where a call of `accept_once` is, named after what it does next. -/
inductive Point where
  | admitConnection
  /-- `transport.close` after a refused admission. -/
  | refuse
  | acquireGeneration
  /-- The `fork` of the resolver and of the transport of DNS. -/
  | fork
  /-- The section of `new_channel`. -/
  | newChannel
  /-- `provider.new_connection`. -/
  | newSession
  /-- The constructor of the channel gives its generation back. -/
  | abandonChannel
  | construct
  -- the first unwind block
  | closeChannel
  | releaseGeneration
  | releaseConnection
  | closeDescriptor
  | publish
  | spawn
  | own
  -- the second one
  | remove
  | closeConnection
  | settleGeneration
  | settleConnection
  /-- It has returned this, or raised. -/
  | ended (returned : Option Int)
  deriving DecidableEq

/-- How far `GatewayConnection.close` is. -/
inductive Closing where
  | open
  /-- The callbacks for requests, events and output. -/
  | cleanup
  | channel
  /-- `shutdown` and `close` of the descriptor, and the hook. -/
  | descriptor
  | closed
  deriving DecidableEq

/-- How far `_connection_finished` is, in the call that has removed the connection. -/
inductive Finishing where
  | pending
  | generation
  | admission
  | collect
  | finished
  deriving DecidableEq

/-- A call of `accept_once`, with the connection that it makes and what is outstanding for them. -/
structure Accept where
  point : Point
  fd : Int := -1
  generation : Option Nat := none
  closing : Closing := .open
  /-- The scheduler has started the thread of the connection. -/
  started : Bool := false
  /-- It is this call that closes the connection, and not the thread. -/
  closer : Bool := false
  finishing : Finishing := .pending
  /-- An admission that was granted and not given back. -/
  admission : Bool := false
  /-- A reference to a generation. -/
  reference : Option Nat := none
  /-- A reference to a generation of TLS, which the channel has. -/
  channel : Option Nat := none
  /-- How often the descriptor was passed to `transport.close`. -/
  closes : Nat := 0
  /-- How often `generation.release` and `release_connection` were called. -/
  generationReleases : Nat := 0
  connectionReleases : Nat := 0

/-- A server, with every call of `accept_once` there has been. A connection is named by the place of
the call that made it. -/
structure GatewayServer where
  lifetime : Lifetime
  listenerFd : Int
  /-- The resolver is a `LazySystemResolver`. -/
  lazyResolver : Bool
  /-- The transport of DNS is a `NativeDnsTransport`. -/
  nativeDns : Bool
  /-- There is a manager of TLS. -/
  tlsManager : Bool
  tlsClosed : Bool := false
  tlsGenerations : List TlsGeneration := []
  connections : List Nat := []
  connectionOwners : List Nat := []
  calls : List Accept := []

/-- What the code that a call runs between its sections does. -/
structure Answer where
  raises : Bool := false
  /-- `provider.new_connection` returns nothing. -/
  noSession : Bool := false
  /-- `spawn_connection` has started the thread, although it raises. -/
  spawned : Bool := false

namespace GatewayServer

def put (place : Nat) (call : Accept) (server : GatewayServer) : GatewayServer :=
  { server with calls := server.calls.set place call }

def onLifecycle (lifecycle : GatewayLifecycle) (server : GatewayServer) : GatewayServer :=
  { server with lifetime := { server.lifetime with store := { server.lifetime.store with lifecycle } } }

/-- `generation.release()`. Its resources are released by a call of the lifetime that goes on beside
this one; an exception of theirs is caught. -/
def releaseGeneration (server : GatewayServer) (call : Accept) : GatewayServer × Accept :=
  match call.generation with
  | none => (server, call)
  | some generation =>
    let called := { call with generationReleases := call.generationReleases + 1 }
    match Generations.release generation server.lifetime.store with
    | (store, .ok resources) =>
      let less := { server.lifetime with store, holders := server.lifetime.holders.erase generation }
      ({ server with lifetime := less.goes (Lifetime.releasing resources false) },
        { called with reference := none })
    | (_, .error _) => (server, called)

/-- `lifecycle.release_connection()`. -/
def releaseConnection (server : GatewayServer) (call : Accept) : GatewayServer × Accept :=
  let called := { call with connectionReleases := call.connectionReleases + 1 }
  match GatewayLifecycle.releaseConnection server.lifetime.store.lifecycle with
  | (lifecycle, .ok ()) => (server.onLifecycle lifecycle, { called with admission := false })
  | (lifecycle, .error _) => (server.onLifecycle lifecycle, called)

/-- `release` of the generation that the channel has, if there is a channel. -/
def releaseChannel (server : GatewayServer) (call : Accept) : GatewayServer × Accept :=
  match call.channel with
  | none => (server, call)
  | some tls =>
    match server.tlsGenerations[tls]?.bind TlsGeneration.release with
    | some generation =>
      ({ server with tlsGenerations := server.tlsGenerations.set tls generation },
        { call with channel := none })
    | none => (server, call)

/-- The resource that `generation.resources[0]` is, as `new_channel` takes it. -/
def tlsResource (server : GatewayServer) (call : Accept) : Option Nat := do
  let generation ← server.lifetime.store.generations[(← call.generation)]?
  return (← generation.resources.head?).resource

/-- The section of `new_channel`: the generation it has retained, or an exception. -/
def newChannel (server : GatewayServer) (call : Accept) : Option (Nat × TlsGeneration) := do
  let tls ← server.tlsResource call
  let generation ← server.tlsGenerations[tls]?
  if server.tlsClosed = true ∨ generation.foreign = true then none
  else return (tls, ← generation.retain)

/-- The next step of `GatewayConnection.close`, which goes on whatever its callbacks raise. -/
def closeConnection (server : GatewayServer) (call : Accept) : GatewayServer × Accept :=
  match call.closing with
  | .open => (server, { call with closing := .cleanup })
  | .cleanup => (server, { call with closing := .channel })
  | .channel =>
    let (server, call) := server.releaseChannel call
    (server, { call with closing := .descriptor })
  | .descriptor =>
    (server, { call with closing := .closed, closes := if 0 ≤ call.fd then
      call.closes + 1 else call.closes })
  | .closed => (server, call)

/-- The call goes on. Where an exception is caught the answer does not matter. -/
def proceed (server : GatewayServer) (place : Nat) (call : Accept) (answer : Answer) : GatewayServer :=
  match call.point with
  | .admitConnection =>
    match GatewayLifecycle.admitConnection server.lifetime.store.lifecycle with
    | (lifecycle, .ok true) =>
      (server.onLifecycle lifecycle).put place { call with point := .acquireGeneration, admission := true }
    | (lifecycle, .ok false) => (server.onLifecycle lifecycle).put place { call with point := .refuse }
    | (lifecycle, .error _) => (server.onLifecycle lifecycle).put place { call with point := .ended none }
  | .refuse =>
    server.put place { call with
      closes := call.closes + 1, point := .ended (if answer.raises then none else some (-1)) }
  | .acquireGeneration =>
    match Generations.acquireGeneration server.lifetime.store with
    | (store, .ok generation) =>
      { server with lifetime := { server.lifetime with store, holders := server.lifetime.holders ++
        [generation] } }.put place
        { call with point := .fork, generation := some generation, reference := some generation }
    | (_, .error _) => server.put place { call with point := .closeChannel }
  | .fork =>
    if (server.lazyResolver || server.nativeDns) && answer.raises then
      server.put place { call with point := .closeChannel }
    else server.put place { call with point := if server.tlsManager then .newChannel else .construct }
  | .newChannel =>
    match server.newChannel call with
    | some (tls, generation) =>
      { server with tlsGenerations := server.tlsGenerations.set tls generation }.put place
        { call with point := .newSession, channel := some tls }
    | none => server.put place { call with point := .closeChannel }
  | .newSession =>
    server.put place { call with point := if answer.raises || answer.noSession then
      .abandonChannel else .construct }
  | .abandonChannel =>
    let (server, call) := server.releaseChannel call
    server.put place { call with point := .closeChannel }
  | .construct => server.put place { call with point := if answer.raises then .closeChannel else .publish }
  | .closeChannel =>
    let (server, call) := server.releaseChannel call
    server.put place { call with point := .releaseGeneration }
  | .releaseGeneration =>
    let (server, call) := server.releaseGeneration call
    server.put place { call with point := .releaseConnection }
  | .releaseConnection =>
    let (server, call) := server.releaseConnection call
    server.put place { call with point := .closeDescriptor }
  | .closeDescriptor => server.put place { call with closes := call.closes + 1, point := .ended none }
  | .publish =>
    { server with connections := server.connections ++ [place] }.put place { call with point := .spawn }
  | .spawn =>
    if answer.raises then server.put place { call with point := .remove, started := answer.spawned }
    else server.put place { call with point := .own, started := true }
  | .own =>
    { server with connectionOwners := server.connectionOwners ++ [place] }.put place
      { call with point := .ended (some 1) }
  | .remove =>
    { server with connections := server.connections.erase place }.put place
      { call with point := .closeConnection }
  | .closeConnection =>
    -- `close` returns at once where the thread has begun to close the connection
    if call.closing ≠ .open ∧ call.closer = false then
      server.put place { call with point := .settleGeneration }
    else
      let (server, call) := server.closeConnection { call with closer := true }
      server.put place { call with point := if call.closing = .closed then
        .settleGeneration else .closeConnection }
  | .settleGeneration =>
    let (server, call) := server.releaseGeneration call
    server.put place { call with point := .settleConnection }
  | .settleConnection =>
    let (server, call) := server.releaseConnection call
    server.put place { call with point := .ended none }
  | .ended _ => server

/-- `accept_once`, with what `transport.accept` does: it raises, or reports an outcome and a descriptor. -/
def acceptOnce (server : GatewayServer) (listenerFd : Int) (accepted : Option (SocketOutcome × Int)) :
    GatewayServer :=
  let listener := if listenerFd < 0 then server.listenerFd else listenerFd
  let call : Accept :=
    if listener < 0 ∨ listener ≠ server.listenerFd ∨ server.lifetime.store.lifecycle.state ≠
      .running then { point := .ended (some 0) }
    else
      match accepted with
      | none => { point := .ended none }
      | some (outcome, fd) =>
        if outcome = .wouldBlock then { point := .ended (some 0) }
        else if outcome ≠ .progress ∨ fd < 0 then { point := .ended none }
        else { point := .admitConnection, fd }
  { server with calls := server.calls ++ [call] }

/-- `_connection_finished` up to its first callback. -/
def connectionFinished (server : GatewayServer) (place : Nat) (call : Accept) : GatewayServer :=
  if place ∈ server.connections then
    { server with connections := server.connections.erase place }.put place
      { call with finishing := .generation }
  else server

/-- The rest of it, which goes on whatever its callbacks raise. -/
def settle (server : GatewayServer) (place : Nat) (call : Accept) : GatewayServer :=
  match call.finishing with
  | .generation =>
    let (server, call) := server.releaseGeneration call
    server.put place { call with finishing := .admission }
  | .admission =>
    let (server, call) := server.releaseConnection call
    server.put place { call with finishing := .collect }
  | .collect =>
    { server with lifetime := server.lifetime.step .collectRetired }.put place
      { call with finishing := .finished }
  | .pending | .finished => server

end GatewayServer

/-- What the rest of the gateway does with generations of TLS. -/
inductive TlsAction where
  | publish (foreign : Bool)
  | retain (tls : Nat)
  | release (tls : Nat)
  | close

/-- Another owner releases only what is not a channel's. -/
def GatewayServer.tlsStep (server : GatewayServer) : TlsAction → GatewayServer
  | .publish foreign => { server with tlsGenerations := server.tlsGenerations ++ [{ foreign }] }
  | .retain tls =>
    match server.tlsGenerations[tls]?.bind TlsGeneration.retain with
    | some generation =>
      { server with tlsGenerations := server.tlsGenerations.set tls { generation with
        others := generation.others + 1 } }
    | none => server
  | .release tls =>
    match server.tlsGenerations[tls]? with
    | none => server
    | some generation =>
      match generation.release, generation.others with
      | some less, others + 1 =>
        { server with tlsGenerations := server.tlsGenerations.set tls { less with others } }
      | _, _ => server
  | .close => { server with tlsClosed := true }

/-- What only `accept_once` and `_connection_finished` do: connections are admitted and generations
held by nobody else, and no caller forces a drain. -/
def exclusive : Generations.Action → Bool
  | .acquireGeneration | .retain _ | .release _ | .finishDrain true => true
  | .lifecycle (.grant .connection) | .lifecycle (.release .connection) => true
  | _ => false

inductive Action where
  | acceptOnce (listenerFd : Int) (accepted : Option (SocketOutcome × Int))
  | proceed (place : Nat) (answer : Answer)
  /-- The thread of a connection closes it. -/
  | close (place : Nat)
  /-- It calls `_connection_finished`. -/
  | finish (place : Nat)
  | settle (place : Nat)
  /-- `_reap_connection_owners` takes out a connection whose thread has ended. -/
  | reap (place : Nat)
  | lifetime (action : Generations.Action)
  | tls (action : TlsAction)

/-- Only a thread that was started closes and finishes a connection. Its `close` returns at once where
the call has begun to close the connection. -/
def GatewayServer.step (server : GatewayServer) : Action → GatewayServer
  | .acceptOnce listenerFd accepted => server.acceptOnce listenerFd accepted
  | .proceed place answer =>
    match server.calls[place]? with
    | none => server
    | some call => server.proceed place call answer
  | .close place =>
    match server.calls[place]? with
    | none => server
    | some call =>
      if call.started = true ∧ call.closer = false then
        let (server, call) := server.closeConnection call
        server.put place call
      else server
  | .finish place =>
    match server.calls[place]? with
    | none => server
    | some call => if call.started then server.connectionFinished place call else server
  | .settle place =>
    match server.calls[place]? with
    | none => server
    | some call => server.settle place call
  | .reap place => { server with connectionOwners := server.connectionOwners.erase place }
  | .lifetime action =>
    if exclusive action then server else { server with lifetime := server.lifetime.step action }
  | .tls action => server.tlsStep action

/-- `spawn_connection` has raised although the thread runs, and the rollback has yet to take the
connection out of the list. -/
def Accept.unremoved (call : Accept) : Bool := call.started && decide (call.point = .remove)

/-- It has yet to begin the close. -/
def Accept.unclosed (call : Accept) : Bool :=
  call.unremoved || call.started && decide (call.point = .closeConnection ∧ call.closing = .open)

/-- A thread whose `spawn_connection` raised does not close or finish its connection in front of the
rollback. -/
def GatewayServer.orderly (server : GatewayServer) : Action → Bool
  | .close place => !server.calls[place]?.any Accept.unclosed
  | .finish place => !server.calls[place]?.any Accept.unremoved
  | _ => true

/-- A server that has not been started. -/
def GatewayServer.init (config : Nat) (limits : AdmissionLimits) (listenerFd : Int)
    (lazyResolver nativeDns tlsManager : Bool) :
    GatewayServer where
  lifetime := { store := Generations.init config limits }
  listenerFd
  lazyResolver
  nativeDns
  tlsManager

end Accepting
end PccGateway
