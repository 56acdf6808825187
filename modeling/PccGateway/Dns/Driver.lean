import PccGateway.Dns.Operation

namespace PccGateway
namespace Dns

structure DnsServer where
  address : Text
  port : Int := 53
  deriving DecidableEq

/-- The constructor of `DnsServer`. -/
def newServer (address : Text) (port : Int) : Except DnsExn DnsServer :=
  match normalizeNumericAddress address with
  | none => .error (.value "DNS server address must be numeric")
  | some canonical =>
    if port ≤ 0 ∨ 65535 < port then .error (.value "invalid DNS server port") else .ok ⟨canonical, port⟩

/-- The `peer` of an observation. -/
inductive DnsPeer where
  | none
  | server (server : DnsServer)
  | text (address : Text)
  deriving DecidableEq

def DnsServer.matchesPeer (server : DnsServer) : DnsPeer → Bool
  | .none => false
  | .server peer => peer.address = server.address ∧ peer.port = server.port
  | .text peer => peer ≠ [] ∧ normalizeNumericAddress peer = some server.address ∧ server.port = 53

/-- A configuration that the constructor of `DnsResolverConfig` accepts. -/
structure DnsResolverConfig where
  servers : List DnsServer := []
  attemptsPerServer : Int := 2
  attemptTimeoutMs : Int := 1000
  maxInvalidReplies : Int := 4
  maxUdpBytes : Int := 4096
  maxTcpBytes : Int := 65535
  useTcp : Bool := false
  accepted : ¬ (attemptsPerServer ≤ 0 ∨ attemptTimeoutMs ≤ 0 ∨ maxInvalidReplies ≤ 0 ∨
    maxUdpBytes < 512 ∨ maxTcpBytes < 512 ∨ 65535 < maxTcpBytes)

/-- `max_attempts` of a driver. -/
def DnsResolverConfig.maxAttempts (config : DnsResolverConfig) : Int :=
  config.servers.length * config.attemptsPerServer

inductive Protocol where
  | udp | tcp
  deriving DecidableEq, Repr

inductive IoStatus where
  | ok | wouldBlock | eof | error
  deriving DecidableEq, Repr

/-- One observation of the transport. -/
structure DnsIoResult where
  status : IoStatus
  handle : Int := -1
  count : Int := 0
  data : Bytes := []
  peer : DnsPeer := .none
  error : String := ""

/-- What the methods of a transport answer when a step calls them; `none` is a method that raises.
`open` gives a handle only when it reports that it has succeeded. -/
structure Transport where
  opens : DnsIoResult
  connects : Option DnsIoResult := none
  sends : Option DnsIoResult := none
  receives : Option DnsIoResult := none
  unopened : opens.status ≠ .ok → opens.handle = -1

/-- The calls of the transport, as a driver makes them. -/
inductive TransportCall where
  | opens (protocol : Protocol) (status : IoStatus) (handle : Int)
  | connects (handle : Int)
  | sends (handle : Int)
  | receives (handle : Int)
  | closes (handle : Int)
  deriving DecidableEq

/-- The `state` of a driver. -/
inductive DriveState where
  | opening | connecting | sending | receiving
  deriving DecidableEq, Repr

inductive DriveKind where
  | progress | waitRead | waitWrite | retry | ignored | error | complete
  deriving DecidableEq, Repr

structure DnsDriveResult where
  kind : DriveKind
  handle : Int := -1
  deadlineMs : Int := -1
  server : Option DnsServer := none
  values : List Text := []
  source : String := ""
  error : String := ""

/-- What leaves a step as an exception. -/
inductive StepExn where
  | transport
  | operation (error : DnsExn)

/-- A driver with an operation. `calls` are the calls of the transport so far. -/
structure DnsResolveDriver where
  operation : ResolveOperation
  config : DnsResolverConfig
  startServer : Int
  attempt : Nat := 0
  attemptDeadlineMs : Int
  server : Option DnsServer := none
  protocol : Protocol
  handle : Int := -1
  state : DriveState := .opening
  sendData : Bytes
  sendOffset : Nat := 0
  tcpBuffer : Bytes := []
  tcpExpected : Int := -1
  invalidReplies : Int := 0
  done : Bool := false
  values : List Text := []
  source : String := ""
  error : String := ""
  lastError : String := ""
  calls : List TransportCall := []

def DnsResolverConfig.protocol (config : DnsResolverConfig) : Protocol :=
  if config.useTcp then .tcp else .udp

/-- The bytes that an attempt sends first. -/
def DnsResolverConfig.firstData (config : DnsResolverConfig) (query : Bytes) : Bytes :=
  if config.useTcp then frame query else query

namespace DnsResolveDriver

/-- The deadline of an attempt that begins, or goes on, at a time. -/
def attemptDeadline (driver : DnsResolveDriver) (nowMs : Int) : Int :=
  let deadline := nowMs + driver.config.attemptTimeoutMs
  if driver.operation.deadlineMs < deadline then driver.operation.deadlineMs else deadline

/-- `_select_attempt`. -/
def selectAttempt (driver : DnsResolveDriver) (nowMs : Int) : DnsResolveDriver :=
  let index := (driver.startServer + driver.attempt / driver.config.attemptsPerServer) %
    driver.config.servers.length
  { driver with
    server := driver.config.servers[index.toNat]?
    attemptDeadlineMs := driver.attemptDeadline nowMs
    protocol := driver.config.protocol
    state := .opening
    handle := -1
    sendData := driver.config.firstData driver.operation.query
    sendOffset := 0
    tcpBuffer := []
    tcpExpected := -1
    invalidReplies := 0 }

/-- `_close`. -/
def close (driver : DnsResolveDriver) : DnsResolveDriver :=
  if driver.handle = -1 then driver else { driver with handle := -1, calls := driver.calls ++
    [.closes driver.handle] }

/-- The result of a driver that is done. -/
def finished (driver : DnsResolveDriver) : DnsDriveResult :=
  if driver.error ≠ "" then
    { kind := .error, values := driver.values, source := driver.source, error := driver.error }
  else { kind := .complete, values := driver.values, source := driver.source }

/-- The driver after `_terminal`. -/
def terminate (driver : DnsResolveDriver) (error : String) : DnsResolveDriver :=
  let driver := { driver.close with done := true }
  if error ≠ "" then
    { driver with
      error
      operation := if driver.operation.done then
        driver.operation else { driver.operation with error, done := true } }
  else
    { driver with values := driver.operation.values, source := driver.operation.source, error :=
      driver.operation.error }

/-- `_terminal`. -/
def terminal (driver : DnsResolveDriver) (error : String) : DnsDriveResult × DnsResolveDriver :=
  ((driver.terminate error).finished, driver.terminate error)

/-- `_retry`. -/
def retry (driver : DnsResolveDriver) (error : String) (nowMs : Int) : DnsDriveResult × DnsResolveDriver :=
  let driver := { driver.close with lastError := error, attempt := driver.attempt + 1 }
  if driver.operation.deadlineMs ≤ nowMs then driver.terminal "timeout"
  else if driver.config.maxAttempts ≤ driver.attempt then driver.terminal ("retry-exhausted:" ++ error)
  else
    let driver := driver.selectAttempt nowMs
    ({ kind := .retry, server := driver.server, error }, driver)

/-- `_wait`. -/
def wait (driver : DnsResolveDriver) (kind : DriveKind) : DnsDriveResult × DnsResolveDriver :=
  ({ kind, handle := driver.handle, deadlineMs := driver.attemptDeadlineMs, server := driver.server },
    driver)

/-- The result of a step that has only made progress. -/
def progress (driver : DnsResolveDriver) : DnsDriveResult × DnsResolveDriver :=
  ({ kind := .progress, server := driver.server }, driver)

/-- `_invalid`. -/
def invalid (driver : DnsResolveDriver) (code : String) (nowMs : Int) (tcp : Bool) :
    DnsDriveResult × DnsResolveDriver :=
  let driver := { driver with invalidReplies := driver.invalidReplies + 1 }
  if tcp ∨ code.startsWith "rcode-" ∨ driver.config.maxInvalidReplies ≤ driver.invalidReplies then
    driver.retry code nowMs
  else ({ kind := .ignored, server := driver.server, error := code }, driver)

/-- `_switch_to_tcp`. -/
def switchToTcp (driver : DnsResolveDriver) (framedQuery : Bytes) (nowMs : Int) :
    DnsDriveResult × DnsResolveDriver :=
  let driver := driver.close
  { driver with
    protocol := .tcp
    state := .opening
    sendData := framedQuery
    sendOffset := 0
    tcpBuffer := []
    tcpExpected := -1
    attemptDeadlineMs := driver.attemptDeadline nowMs }.progress

/-- `observed.error or ...`. -/
def errorOr (observed : DnsIoResult) (error : String) : String :=
  if observed.error ≠ "" then observed.error else error

/-- The driver after a call of the transport. -/
def called (driver : DnsResolveDriver) (call : TransportCall) : DnsResolveDriver :=
  { driver with calls := driver.calls ++ [call] }

def stepOpen (driver : DnsResolveDriver) (nowMs : Int) (observed : DnsIoResult) :
    DnsDriveResult × DnsResolveDriver :=
  let driver := driver.called (.opens driver.protocol observed.status observed.handle)
  if observed.status ≠ .ok ∨ observed.handle = -1 then
    driver.retry (errorOr observed "transport-open") nowMs
  else { driver with handle := observed.handle, state := .connecting }.progress

def stepConnect (driver : DnsResolveDriver) (nowMs : Int) (observed : DnsIoResult) :
    DnsDriveResult × DnsResolveDriver :=
  match observed.status with
  | .wouldBlock => driver.wait .waitWrite
  | .ok => { driver with state := .sending }.progress
  | .eof | .error => driver.retry (errorOr observed "transport-connect") nowMs

def stepSend (driver : DnsResolveDriver) (nowMs : Int) (observed : DnsIoResult) :
    DnsDriveResult × DnsResolveDriver :=
  match observed.status with
  | .wouldBlock => driver.wait .waitWrite
  | .eof | .error => driver.retry (errorOr observed "transport-send") nowMs
  | .ok =>
    let remaining : Int := driver.sendData.length - driver.sendOffset
    if observed.count ≤ 0 ∨ remaining < observed.count then driver.retry "invalid-send-progress" nowMs
    else if driver.protocol = .udp ∧ observed.count ≠ remaining then driver.retry "short-udp-send" nowMs
    else
      let driver := { driver with sendOffset := driver.sendOffset + observed.count.toNat }
      if driver.sendOffset = driver.sendData.length then { driver with state := .receiving }.progress
      else driver.progress

/-- A result without an exception. -/
def returning (outcome : DnsDriveResult × DnsResolveDriver) :
    Except StepExn DnsDriveResult × DnsResolveDriver := (.ok outcome.1, outcome.2)

/-- How a step goes on from `operation.receive`. -/
def received (driver : DnsResolveDriver) (nowMs : Int) (tcp : Bool)
    (outcome : Except DnsExn (Option Bytes) × ResolveOperation) :
    Except StepExn DnsDriveResult × DnsResolveDriver :=
  let driver := { driver with operation := outcome.2 }
  match outcome.1 with
  | .error (.dns code _) => returning (driver.invalid code nowMs tcp)
  | .error error => (.error (.operation error), driver)
  | .ok framed =>
    match framed, tcp with
    | some framed, false => returning (driver.switchToTcp framed nowMs)
    | _, _ => returning (driver.terminal "")

/-- The step of a driver that has got a datagram. -/
def receiveUdp (case : CaseMapping) (driver : DnsResolveDriver) (nowMs : Int) (observed : DnsIoResult) :
    Except StepExn DnsDriveResult × DnsResolveDriver :=
  if ¬ driver.server.any (·.matchesPeer observed.peer) then
    returning (driver.invalid "server-mismatch" nowMs false)
  else driver.received nowMs false (driver.operation.receive case observed.data nowMs)

/-- `tcp_expected` once a part of the reply has come. -/
def expected (driver : DnsResolveDriver) : Int :=
  if driver.tcpExpected < 0 ∧ 2 ≤ driver.tcpBuffer.length then
    match u16 driver.tcpBuffer 0 with
    | .ok length => length
    | .error _ => driver.tcpExpected
  else driver.tcpExpected

/-- The step of a driver that has got a part of a reply over TCP. -/
def receiveTcp (case : CaseMapping) (driver : DnsResolveDriver) (nowMs : Int) (observed : DnsIoResult) :
    Except StepExn DnsDriveResult × DnsResolveDriver :=
  if observed.peer ≠ .none ∧ ¬ driver.server.any (·.matchesPeer observed.peer) then
    returning (driver.invalid "server-mismatch" nowMs true)
  else
    let driver := { driver with tcpBuffer := driver.tcpBuffer ++ observed.data }
    if driver.config.maxTcpBytes + 2 < (driver.tcpBuffer.length : Int) then
      returning (driver.retry "response-too-large" nowMs)
    else
      let fresh := driver.tcpExpected < 0 ∧ 2 ≤ driver.tcpBuffer.length
      let driver := { driver with tcpExpected := driver.expected }
      if fresh ∧ (driver.tcpExpected ≤ 0 ∨ driver.config.maxTcpBytes < driver.tcpExpected) then
        returning (driver.retry "bad-tcp-frame-length" nowMs)
      else if driver.tcpExpected < 0 ∨ (driver.tcpBuffer.length : Int) < driver.tcpExpected + 2 then
        returning ({ driver with attemptDeadlineMs := driver.attemptDeadline nowMs }.progress)
      else
        let reply := driver.tcpBuffer.take (driver.tcpExpected + 2).toNat
        driver.received nowMs true (driver.operation.receive case reply nowMs)

/-- The limit of one receive. -/
def receiveLimit (driver : DnsResolveDriver) : Int :=
  match driver.protocol with
  | .udp => driver.config.maxUdpBytes
  | .tcp => driver.config.maxTcpBytes

def stepReceive (case : CaseMapping) (driver : DnsResolveDriver) (nowMs : Int) (observed : DnsIoResult) :
    Except StepExn DnsDriveResult × DnsResolveDriver :=
  match observed.status with
  | .wouldBlock => returning (driver.wait .waitRead)
  | .eof => returning (driver.retry "unexpected-eof" nowMs)
  | .error => returning (driver.retry (errorOr observed "transport-receive") nowMs)
  | .ok =>
    if observed.data = [] then returning (driver.retry "empty-response" nowMs)
    else if driver.receiveLimit < observed.data.length then
      returning (driver.retry "response-too-large" nowMs)
    else
      match driver.protocol with
      | .udp => driver.receiveUdp case nowMs observed
      | .tcp => driver.receiveTcp case nowMs observed

/-- A call of `connect`, `send` or `receive`, and the step from what it gives. -/
def observe (driver : DnsResolveDriver) (call : TransportCall) (observed : Option DnsIoResult)
    (next : DnsResolveDriver → DnsIoResult → Except StepExn DnsDriveResult × DnsResolveDriver) :
    Except StepExn DnsDriveResult × DnsResolveDriver :=
  match observed with
  | none => (.error .transport, driver.called call)
  | some observed => next (driver.called call) observed

/-- `step` in the state that the driver is in. -/
def stepState (case : CaseMapping) (driver : DnsResolveDriver) (nowMs : Int) (transport : Transport) :
    Except StepExn DnsDriveResult × DnsResolveDriver :=
  match driver.state with
  | .opening => returning (driver.stepOpen nowMs transport.opens)
  | .connecting =>
    driver.observe (.connects driver.handle) transport.connects fun driver observed =>
      returning (driver.stepConnect nowMs observed)
  | .sending =>
    driver.observe (.sends driver.handle) transport.sends fun driver observed =>
      returning (driver.stepSend nowMs observed)
  | .receiving =>
    driver.observe (.receives driver.handle) transport.receives fun driver observed =>
      driver.stepReceive case nowMs observed

def step (case : CaseMapping) (driver : DnsResolveDriver) (nowMs : Int) (transport : Transport) :
    Except StepExn DnsDriveResult × DnsResolveDriver :=
  if driver.done then (.ok driver.finished, driver)
  else if driver.operation.cancelled then returning (driver.terminal "cancelled")
  else if driver.operation.deadlineMs ≤ nowMs then returning (driver.terminal "timeout")
  else if driver.attemptDeadlineMs ≤ nowMs then returning (driver.retry "attempt-timeout" nowMs)
  else driver.stepState case nowMs transport

def cancel (driver : DnsResolveDriver) : DnsDriveResult × DnsResolveDriver :=
  if driver.done then driver.terminal driver.error
  else { driver with operation := driver.operation.cancel }.terminal "cancelled"

end DnsResolveDriver

/-- The constructor of `DnsResolveDriver` for an operation. -/
def newDriver (operation : ResolveOperation) (config : DnsResolverConfig) (nowMs startServer : Int)
    (terminalError : String) :
    DnsResolveDriver :=
  let driver : DnsResolveDriver :=
    { operation, config, startServer
      attemptDeadlineMs := nowMs
      protocol := config.protocol
      sendData := config.firstData operation.query
      done := terminalError ≠ ""
      error := terminalError }
  if driver.done then driver
  else if config.maxAttempts = 0 then { driver with done := true, error := "no-dns-servers" }
  else driver.selectAttempt nowMs

end Dns
end PccGateway
