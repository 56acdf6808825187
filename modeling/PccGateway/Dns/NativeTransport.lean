import PccGateway.Dns.DriverRun
import PccGateway.Lib.Interleaving
import Mathlib.Data.List.AList

namespace PccGateway
namespace Dns

def socketProgress : Int := 0
def socketWouldBlock : Int := 1
def socketEof : Int := 2
def socketConnected : Int := 3

/-- `_map_socket_outcome`. -/
def mapSocketOutcome (outcome : Int) : IoStatus :=
  if outcome = socketProgress ∨ outcome = socketConnected then .ok
  else if outcome = socketWouldBlock then .wouldBlock
  else if outcome = socketEof then .eof
  else .error

/-- What the platform functions answer in one call of the transport: their outcomes, and what they
write to their outputs. -/
structure Platform where
  openOutcome : Int := -1
  openHandle : Int := -1
  connectOutcome : Int := -1
  writeOutcome : Int := -1
  writeCount : Int := 0
  readOutcome : Int := -1
  readCount : Int := 0
  readStorage : Bytes := []

/-- An entry of `owned`: the configured server, the protocol and the outcome of the connect. -/
structure NativeOwner where
  server : DnsServer
  protocol : Protocol
  connect : Int
  deriving DecidableEq

/-- `NativeDnsTransport`. `platform` is what has become of the descriptors that the platform gave to it. -/
structure NativeDnsTransport where
  owned : AList (fun _ : Int => NativeOwner) := ∅
  platform : List HandleUse := []

/-- `error="" if status != DNS_IO_ERROR else prefix + str(outcome)`. -/
def ioError (name : String) (status : IoStatus) (outcome : Int) : String :=
  if status ≠ .error then "" else name ++ toString outcome

namespace NativeDnsTransport

/-- `open`. A descriptor that comes with an outcome that is of no use is closed again. -/
def opens (transport : NativeDnsTransport) (protocol : Protocol) (server : DnsServer)
    (platform : Platform) :
    DnsIoResult × NativeDnsTransport :=
  let handle := platform.openHandle
  let used := if 0 ≤ handle then [HandleUse.opened handle] else []
  if handle < 0 ∨ ¬ (platform.openOutcome = socketConnected ∨ platform.openOutcome = socketWouldBlock) then
    let closed := if 0 ≤ handle then [HandleUse.closed handle] else []
    ({ status := .error, error := "dns-socket-open:" ++ toString platform.openOutcome },
      { transport with platform := transport.platform ++ used ++ closed })
  else
    ({ status := .ok, handle },
      { owned := transport.owned.insert handle ⟨server, protocol, platform.openOutcome⟩, platform :=
        transport.platform ++ used })

def connect (transport : NativeDnsTransport) (handle : Int) (server : DnsServer)
    (platform : Platform) : DnsIoResult × NativeDnsTransport :=
  match transport.owned.lookup handle with
  | none => ({ status := .error, handle, error := "dns-handle-provenance" }, transport)
  | some owner =>
    if owner.server ≠ server then
      ({ status := .error, handle, error := "dns-handle-provenance" }, transport)
    else if owner.connect = socketConnected then ({ status := .ok, handle }, transport)
    else
      let status := mapSocketOutcome platform.connectOutcome
      let result : DnsIoResult :=
        { status, handle, error := ioError "dns-connect:" status platform.connectOutcome }
      (result, if status = .ok then
          { transport with owned := transport.owned.insert handle { owner with connect := socketConnected } }
        else transport)

def send (transport : NativeDnsTransport) (handle : Int) (data : Bytes) (offset : Int)
    (platform : Platform) : DnsIoResult :=
  match transport.owned.lookup handle with
  | none => { status := .error, handle, error := "dns-handle-provenance" }
  | some owner =>
    if owner.connect ≠ socketConnected then { status := .error, handle, error := "dns-handle-provenance" }
    else if offset < 0 ∨ data.length < offset then
      { status := .error, handle, error := "invalid-send-offset" }
    else
      let status := mapSocketOutcome platform.writeOutcome
      { status, handle, count := platform.writeCount, error := ioError "dns-send:" status platform.writeOutcome }

def receive (transport : NativeDnsTransport) (handle maxBytes : Int) (platform : Platform) : DnsIoResult :=
  match transport.owned.lookup handle with
  | none => { status := .error, handle, error := "dns-handle-provenance" }
  | some owner =>
    if owner.connect ≠ socketConnected then { status := .error, handle, error := "dns-handle-provenance" }
    else if maxBytes ≤ 0 then { status := .error, handle, error := "invalid-receive-limit" }
    else
      let status := mapSocketOutcome platform.readOutcome
      { status, handle
        count := platform.readCount
        data := if status = .ok ∧ 0 < platform.readCount then
          platform.readStorage.take platform.readCount.toNat else []
        peer := .server owner.server
        error := ioError "dns-receive:" status platform.readOutcome }

def close (transport : NativeDnsTransport) (handle : Int) : NativeDnsTransport :=
  if handle ∈ transport.owned then
    { owned := transport.owned.erase handle, platform := transport.platform ++ [.closed handle] }
  else transport

/-- The transport after a call that a driver for `server` has made. -/
def after (transport : NativeDnsTransport) (server : DnsServer) (platform : Platform) :
    TransportCall → NativeDnsTransport
  | .opens protocol _ _ => (transport.opens protocol server platform).2
  | .connects handle => (transport.connect handle server platform).2
  | .sends _ => transport
  | .receives _ => transport
  | .closes handle => transport.close handle

theorem opens_unopened (transport : NativeDnsTransport) (protocol : Protocol) (server : DnsServer)
    (platform : Platform) :
    (transport.opens protocol server platform).1.status ≠ .ok →
    (transport.opens protocol server platform).1.handle = -1 := by
  unfold opens
  dsimp only
  split
  · exact fun _ => rfl
  · exact fun failed => (failed rfl).elim

/-- What the transport answers to the call that a driver makes in its state. -/
def answers (transport : NativeDnsTransport) (driver : DnsResolveDriver) (server : DnsServer)
    (platform : Platform) : Transport where
  opens := (transport.opens driver.protocol server platform).1
  connects := some (transport.connect driver.handle server platform).1
  sends := some (transport.send driver.handle driver.sendData driver.sendOffset platform)
  receives := some (transport.receive driver.handle driver.receiveLimit platform)
  unopened := transport.opens_unopened driver.protocol server platform

end NativeDnsTransport

/-- Drivers that share one transport. -/
structure NativeHost where
  transport : NativeDnsTransport := {}
  drivers : List DnsResolveDriver := []

/-- What can be done with the drivers of a host. -/
inductive HostAction where
  | start (operation : ResolveOperation) (config : DnsResolverConfig) (nowMs startServer : Int)
      (terminalError : String)
  | step (index : Nat) (nowMs : Int) (platform : Platform)
  | cancel (index : Nat)

namespace NativeHost

/-- The driver at an index is replaced by one that has made more calls, and the transport has served
them. -/
def served (host : NativeHost) (index : Nat) (before after : DnsResolveDriver) (server : DnsServer)
    (platform : Platform) : NativeHost where
  transport := (after.calls.drop before.calls.length).foldl (fun transport call =>
    transport.after server platform call) host.transport
  drivers := host.drivers.set index after

/-- One action. A driver without a server is one that was done when it was constructed. -/
def act (case : CaseMapping) (host : NativeHost) : HostAction → NativeHost
  | .start operation config nowMs startServer terminalError =>
    { host with drivers := host.drivers ++ [newDriver operation config nowMs startServer terminalError] }
  | .step index nowMs platform =>
    match host.drivers[index]? with
    | none => host
    | some driver =>
      let server := driver.server.getD ⟨[], 53⟩
      host.served index driver
        (driver.step case nowMs (host.transport.answers driver server platform)).2 server platform
  | .cancel index =>
    match host.drivers[index]? with
    | none => host
    | some driver => host.served index driver driver.cancel.2 (driver.server.getD ⟨[], 53⟩) {}

end NativeHost

/-- The descriptors that are open after some uses. -/
def openHandles (uses : List HandleUse) : List Int :=
  uses.foldl (fun handles use =>
    match use with
    | .opened handle => handle :: handles
    | .closed handle => handles.erase handle) []

/-- The platform does not give out a descriptor that is open. -/
def HostAction.Fresh (host : NativeHost) : HostAction → Prop
  | .step _ _ platform => 0 ≤ platform.openHandle → platform.openHandle ∉
      openHandles host.transport.platform
  | _ => True

instance instDecidableFresh : (host : NativeHost) → (action : HostAction) → Decidable (action.Fresh host)
  | host, .step _ _ platform =>
    inferInstanceAs (Decidable (0 ≤ platform.openHandle →
      platform.openHandle ∉ openHandles host.transport.platform))
  | _, .start .. => .isTrue trivial
  | _, .cancel _ => .isTrue trivial

end Dns
end PccGateway
