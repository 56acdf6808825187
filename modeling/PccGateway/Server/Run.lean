import PccGateway.Server.Proxying

namespace PccGateway
namespace GatewayConnection
open Thread

variable (world : World) (fuel : Nat)

/-- One step of the handshake loop of `_run_tls_handshake`. -/
def handshakePass (deadline : Int) : Call (Pass Unit Bool) := do
  let connection ← get
  when (connection.closed = false ∧ world.running connection.tick) do
    let _ ← nowMs world
  match ← ask world World.tlsHandshake with
  | .ok alpn =>
    hook world
    if alpn ≠ "" ∧ alpn ≠ "http/1.1" then raise (.transport "TLS selected unsupported ALPN")
    else return .done true
  | .selectSni => return .again ()
  | .want _ =>
    let now ← nowMs world
    if deadline - now ≤ 0 then
      let _ ← ask world World.tlsHandshake
      hook world
      return .done false
    ask world World.wait
    return .again ()
  | .closed | .failed _ =>
    hook world
    return .done false

def runTlsHandshake : Call Bool := do
  let connection ← get
  if connection.tls = false then return true
  let now ← nowMs world
  hook world
  loop (fun _ => handshakePass world (now + connection.config.tlsHandshakeTimeoutMs)) fuel ()

/-- Best-effort shutdown of a channel that is still usable. -/
def runTlsCloseNotify : Call Unit := do
  let connection ← get
  if connection.tls = false ∨ world.tlsClosable connection.tick = false then return ()
  let start ← nowMs world
  let deadline := start + connection.config.tlsCloseTimeoutMs
  loop (fun _ => do
    let now ← nowMs world
    match ← ask world World.tlsCloseNotify with
    | .want _ =>
      if deadline - now ≤ 0 then
        hook world
        return .done ()
      ask world World.wait
      return .again ()
    | _ =>
      hook world
      return .done ()) fuel ()

/-- The part of a pass for a handler child: whether the pass goes on to read for it. -/
def servePendingLocal (id : Nat) : Call Bool := do
  let driven ← drivePendingLocal world
  if driven then return false
  let object ← requestObject id
  let now ← nowMs world
  if object.cancellation.deadlineMs - now ≤ 0 then
    deadlineTimeout world .request
    return false
  let writable ← waitWritable world id
  if writable then return true
  let now ← nowMs world
  when (object.cancellation.deadlineMs ≤ now) (deadlineTimeout world .request)
  when (now < object.cancellation.deadlineMs) (ask world World.wait)
  return false

/-- A message that is still in the codec's buffer: whether anything came of it. -/
def decodeBuffered : Call Bool := do
  let before ← get
  if before.codec.buffer = [] then return false
  let handled ← feedData world [] 1
  let connection ← get
  forSome connection.pendingProxy fun (_, id) => consumePendingProxyBodyEvents world id
  let connection ← get
  forSome connection.pendingLocal fun id => consumePendingLocalBodyEvents world id
  let connection ← get
  return decide (handled ≠ 0 ∨ connection.deferredEvents ≠ [] ∨
    connection.codec.buffer.length < before.codec.buffer.length)

/-- The deadline that a blocked read runs against. -/
def readDeadline (connection : GatewayConnection) : Int × DeadlinePhase :=
  match connection.currentRequest.bind (connection.requests[·]?) with
  | some object => (minimumDeadline connection.readDeadlineMs object.cancellation.deadlineMs, .request)
  | none =>
    if 0 ≤ connection.headerDeadlineMs then
      (minimumDeadline connection.readDeadlineMs connection.headerDeadlineMs, .header)
    else (connection.readDeadlineMs, .read)

/-- The read at the end of a pass. -/
def readClient (reason : String) : Call (Pass String String) := do
  match ← readTransport world with
  | .progress data =>
    if data = [] then raise (.transport "empty socket read progress")
    else
      let now ← nowMs world
      modify fun connection =>
        { connection with readDeadlineMs := now + connection.config.http1.idleTimeoutMs }
      let _ ← feedData world data 1
      let connection ← get
      forSome connection.pendingLocal fun id => consumePendingLocalBodyEvents world id
      return .again reason
  | .eof =>
    inputEof world
    let connection ← get
    if connection.output.queuedBytes = 0 then return .done "eof"
    return .again "eof"
  | .wouldBlock =>
    let now ← nowMs world
    let connection ← get
    let (deadline, phase) := connection.readDeadline
    if deadline ≤ now then
      deadlineTimeout world phase
      return .again (phase.name ++ "-timeout")
    ask world World.wait
    return .again reason
  | .failed => raise (.transport "socket read observation failed")

/-- A pass that has nothing to flush, to proxy or to drive: it decodes one message or reads. -/
def servePass (reason : String) : Call (Pass String String) := do
  let connection ← get
  if connection.pendingLocal.isNone ∧ connection.pendingStream.isSome then
    driveStreamingResponse world
    return .again reason
  if connection.pendingLocal.isNone ∧ connection.deferredEvents ≠ [] then
    resumeDeferredEvents world
    return .again reason
  if connection.closeAfterFlush then return .done "response-complete"
  if world.running connection.tick = false ∧ connection.currentRequest.isNone then return .done "drain"
  let decoded ← decodeBuffered world
  if decoded then return .again reason
  readClient world reason

/-- One pass of the `while not connection.closed` loop. The state is the reason so far. -/
def connectionPass (reason : String) : Call (Pass String String) := do
  let connection ← get
  if connection.closed then return .done reason
  if 0 < connection.output.queuedBytes then
    match ← flushTransport world with
    | .timeout => return .done "write-timeout"
    | .wouldBlock =>
      let _ ← nowMs world
      ask world World.wait
      return .again reason
    | .progress => return .again reason
  if connection.pendingProxy.isSome then
    runGatewayProxy world fuel
    return .again reason
  match connection.pendingLocal with
  | none => servePass world reason
  | some id =>
    let reads ← servePendingLocal world id
    if reads then servePass world reason else return .again reason

/-- The `try` of `_run_gateway_connection`, with the reason it ends for. -/
def serveConnection : Call String := do
  let connection ← get
  if connection.fd < 0 then raise (.transport "connection has no live transport")
  else
    hook world
    let now ← nowMs world
    modify fun connection =>
      { connection with readDeadlineMs := now + connection.config.http1.idleTimeoutMs }
    let ready ← runTlsHandshake world fuel
    if ready = false then return "tls-handshake-failed"
    else loop (connectionPass world fuel) fuel "closed"

def runGatewayConnection : Call Unit := do
  let outcome ← attempt (serveConnection world fuel)
  let reason := outcome.toOption.getD "transport-error"
  let connection ← get
  let childError ← settle [when connection.pendingLocal.isSome (cancelAndJoinPendingLocal world reason)]
  let connection ← get
  let closeError ← settle [
    when (connection.closed = false) (runTlsCloseNotify world fuel),
    when (connection.closed = false) (close world reason)]
  match outcome with
  | .error primary => raise primary
  | .ok _ => raiseFirst (childError.or closeError)

end GatewayConnection
end PccGateway
