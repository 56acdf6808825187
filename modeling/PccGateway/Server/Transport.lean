import PccGateway.Server.Connection

namespace PccGateway
namespace GatewayConnection
open Thread

variable (world : World)

/-- A child that raised, or was cancelled by someone else, is answered with a 500. -/
def childFailed : Call Dispatched := do
  let response ← lift (Response.text "internal server error" 500)
  modify fun connection => { connection with closeAfterFlush := true }
  return .response response

/-- What the child's join gives: its result, when it was not cancelled and returned. -/
def joinChild (expected : Bool) : Call Dispatched := do
  match ← attempt (ask world World.join) with
  | .ok result => if expected then return result else childFailed
  | .error _ => childFailed

/-- A child that ended before its body has no claim on the rest of it. -/
def leaveChildBody (id : Nat) : Call Unit := do
  let connection ← get
  when (connection.currentRequest = some id) do
    modify fun connection => { connection with currentRequest := none, currentAdmitted := false }
    let object ← requestObject id
    when (object.body.ended = false) do
      cancelRequest id "handler completed before body end"
      changeBody id BodyStream.cancel
      modify fun connection => { connection with closeAfterFlush := true }

/-- The end of `_drive_pending_local`. After a protocol error the response is out already. -/
def publishChild (id : Nat) (cancelled : Bool) (result : Dispatched) : Call Unit :=
  if cancelled then do
    release .request
    changeBody id BodyStream.close
  else completeLocalHandlerResponse world id result

/-- `_drive_pending_local`: whether the child's response was published. A child is joined when it is
terminal, or when its body has ended and nothing is left to read for it. -/
def drivePendingLocal : Call Bool := do
  let connection ← get
  match connection.pendingLocal with
  | none => return false
  | some id =>
    consumePendingLocalBodyEvents world id
    let outcome ← ask world fun world tick => .ok (world.outcome tick)
    let object ← requestObject id
    if outcome = .pending ∧ object.body.producerFinished = false then return false
    else
      let cancelled := object.cancellation.cancelled
      when (cancelled ∧ outcome = .pending) (ask world World.cancelThread)
      let result ← joinChild world (decide (outcome = .returned ∨ outcome = .pending ∧ cancelled = false))
      modify fun connection => { connection with pendingLocal := none }
      leaveChildBody id
      publishChild world id cancelled result
      return true

/-- A join that fails is evidence of the cancellation unless the child did not end that way. -/
def joinCancelled (signalled : Option Exn) : Call (Option Exn) := do
  match signalled, ← attempt (ask world World.join) with
  | none, .error error =>
    let outcome ← ask world fun world tick => .ok (world.outcome tick)
    return if outcome = .cancelled ∨ outcome = .raised then none else some error
  | signalled, _ => return signalled

def cancelAndJoinPendingLocal (reason : String) : Call Unit := do
  let connection ← get
  match connection.pendingLocal with
  | none => return ()
  | some id =>
    let signalled ← settle [signalPendingLocal world reason]
    let error ← joinCancelled world signalled
    modify fun connection => { connection with pendingLocal := none }
    let connection ← get
    when (connection.currentRequest = some id) <|
      modify fun connection => { connection with currentRequest := none, currentAdmitted := false }
    release .request
    changeBody id BodyStream.close
    raiseFirst error

/-- `BodyStream.wait_writable` with a positive wait: one bounded slice at most. -/
def waitWritable (id : Nat) : Call Bool := do
  let object ← requestObject id
  if object.body.streaming = false then return true
  else if object.body.producerFinished then return false
  else if object.body.backpressured = false then return true
  else
    ask world World.wait
    let object ← requestObject id
    return !object.body.backpressured

def inputEof : Call Unit := do
  let connection ← get
  if connection.closed then return ()
  match ← attempt (onCodec Http1ServerCodec.eof) with
  | .ok () => modify fun connection => { connection with closeAfterFlush := true }
  | .error (.http1 error) =>
    failHttp world error
    modify fun connection => { connection with closeAfterFlush := true }
  | .error error => raise error

def deadlineTimeout (phase : DeadlinePhase) : Call Unit := do
  hook world
  let connection ← get
  when (phase = .request ∨ phase = .header ∨ connection.currentRequest.isSome) do
    abortCurrentRequest "request deadline exceeded"
    let connection ← get
    when (connection.output.queuedBytes = 0) (queueText world "GET".toList "request timeout" 408)
  modify fun connection => { connection with closeAfterFlush := true }

/-- The socket or TLS write of `_flush_transport`. -/
def writeTransport (data : Bytes) : Call WriteOutcome := do
  let connection ← get
  if connection.tls = false then
    let outcome ← ask world fun world tick => world.write tick data
    modify fun connection => { connection with ioWaitInterest := .write }
    return outcome
  else
    let now ← nowMs world
    modify fun connection => if connection.writeDeadlineMs < 0 then
      { connection with writeDeadlineMs := now + connection.config.writeTimeoutMs } else connection
    match ← ask world (fun world tick => world.tlsWrite tick data) with
    | .ok count => return .progress count
    | .want interest =>
      modify fun connection => { connection with ioWaitInterest := interest }
      return .wouldBlock
    | .closed => raise (.transport "TLS peer closed during write")
    | .failed name => raise (.transport ("TLS write failed: " ++ name))

def flushTransport : Call FlushOutcome := do
  let connection ← get
  if connection.output.queuedBytes = 0 then return .progress
  let data := connection.peekOutput connection.config.buffers.segmentBytes
  match ← writeTransport world data with
  | .progress count =>
    if count ≤ 0 ∨ (data.length : Int) < count then raise (.transport "invalid socket write progress")
    else
      note (.clientWrite (data.take count.toNat))
      consumeOutput world count
      return .progress
  | .wouldBlock =>
    let now ← nowMs world
    modify fun connection => if connection.writeDeadlineMs < 0 then
      { connection with writeDeadlineMs := now + connection.config.writeTimeoutMs } else connection
    let connection ← get
    if connection.writeDeadlineMs ≤ now then
      deadlineTimeout world .write
      return .timeout
    return .wouldBlock
  | .failed => raise (.transport "socket write observation failed")

/-- The socket or TLS read of `_read_transport`. -/
def observeTransport : Call ReadOutcome := do
  let connection ← get
  if connection.tls = false then
    modify fun connection => { connection with ioWaitInterest := .read }
    ask world World.read
  else
    let _ ← nowMs world
    match ← ask world World.tlsRead with
    | .ok data =>
      modify fun connection => { connection with ioWaitInterest := .read }
      return .progress data
    | .want interest =>
      modify fun connection => { connection with ioWaitInterest := interest }
      return .wouldBlock
    | .closed => return .eof
    | .failed name => raise (.transport ("TLS read failed: " ++ name))

def readTransport : Call ReadOutcome := do
  match ← observeTransport world with
  | .progress data =>
    note (.clientRead data)
    return .progress data
  | outcome => return outcome

/-- `close`. The owners are taken first, every cleanup runs, and the first exception is raised. -/
def close (reason : String) : Call Unit := do
  let connection ← get
  if connection.closed then return ()
  modify fun connection => { connection with
    closed := true
    closeReason := reason
    deferredEvents := []
    tls := false
    fd := -1 }
  let first ← settle [abortCurrentRequest reason, signalPendingLocal world reason,
    cancelPendingProxy reason, cancelPendingStream reason]
  let after ← get
  let unsettled := if after.pendingLocal.isSome then
    [raise (.runtime "pending local handler settlement requires connection owner")] else []
  let later ← settle (unsettled ++ [
    dropEvents true connection.deferredEvents,
    modify fun connection => { connection with output := connection.output.close },
    releaseBuffered world connection.output.queuedBytes,
    when connection.tls (ask world World.close),
    when (0 ≤ connection.fd) (ask world World.close),
    when (0 ≤ connection.fd) (ask world World.close),
    hook world])
  raiseFirst (first.or later)

end GatewayConnection
end PccGateway
