import PccGateway.Proxy.Target
import PccGateway.Server.Transport

namespace PccGateway

/-- What `_proxy_exchange_attempt` returns: the upstream's status, the failure if any, and whether a
final response head was committed. -/
structure AttemptResult where
  status : Nat
  failure : Option Failure
  committed : Bool
  deriving DecidableEq

namespace GatewayConnection
open Thread

variable (world : World) (fuel : Nat)

/-- A call on the exchange of the running attempt. It accounts in the shared budget. -/
def onExchange {α : Type} (call : ProxyExchange.Call α) : Call α := fun connection =>
  match connection.exchange with
  | none => (connection, .error (.raised (.lookup "exchange")))
  | some exchange =>
    let others := world.othersBuffered connection.tick
    let ledger : Ledger := {
      buffered := connection.buffered + others
      maxBuffered := connection.config.maxBufferedBytes }
    let (next, result) := call { exchange with accounting := some ledger }
    let held := next.accounting.elim connection.buffered fun ledger => ledger.buffered - others
    reraise result { connection with exchange := some next, buffered := held }

def exchangeView : Call ProxyExchange := fun connection =>
  match connection.exchange with
  | none => (connection, .error (.raised (.lookup "exchange")))
  | some exchange => (connection, .ok exchange)

/-- One look at the client while an upstream owns the connection. Decoded events stay behind the
pending proxy, except the body of its own request. -/
def proxyObserveDownstream (id : Nat) : Call (Option Failure) := do
  match ← readTransport world with
  | .progress data =>
    if data = [] then
      cancelRequest id "downstream closed"
      return some .cancelled
    let now ← nowMs world
    modify fun connection =>
      { connection with readDeadlineMs := now + connection.config.http1.idleTimeoutMs }
    let handled ← feedData world data 1
    let connection ← get
    if handled < 0 ∨ connection.closeAfterFlush then return some .downstreamProtocolCommitted
    let object ← requestObject id
    if object.cancellation.cancelled then return some .cancelled
    consumePendingProxyBodyEvents world id
    return none
  | .eof =>
    cancelRequest id "downstream closed"
    return some .cancelled
  | .wouldBlock => return none
  | .failed =>
    cancelRequest id "downstream read failed"
    return some .cancelled

def proxyWaitUpstream (timeoutMs : Int) (id : Nat) : Call (Option Failure) := do
  if timeoutMs ≤ 0 then return none
  ask world World.wait
  proxyObserveDownstream world id

def proxyReadDownstreamBody (id : Nat) (timeoutMs : Int) : Call (Option Failure) := do
  consumePendingProxyBodyEvents world id
  let object ← requestObject id
  if object.body.ended then return none
  let observation ← proxyObserveDownstream world id
  let object ← requestObject id
  if observation.isSome ∨ object.body.ended ∨ 0 < object.body.queuedBytes then return observation
  when (0 < timeoutMs) (ask world World.wait)
  return none

def proxyRemainingMs (id : Nat) : Call Int := do
  let now ← nowMs world
  let connection ← get
  let object ← requestObject id
  let limit := if 0 ≤ object.cancellation.deadlineMs then
      minimumDeadline connection.deadline.deadlineMs object.cancellation.deadlineMs
    else connection.deadline.deadlineMs
  return if limit < 0 then 0 else limit - now

def proxyDeadlineFailure (id : Nat) : Call (Option Failure) := do
  let object ← requestObject id
  if object.cancellation.cancelled then return some .cancelled
  let remaining ← proxyRemainingMs world id
  if 0 < remaining then return none
  cancelRequest id "proxy deadline exceeded"
  hook world
  let connection ← get
  return some connection.deadline.failure

def cancelDriver (failure : Failure) : Call (List Text × Option Failure) := do
  ask world World.close
  hook world
  return ([], some failure)

/-- A DNS step that waits: for its deadline at most, with one look at the client. -/
def dnsWait (remaining : Int) (id : Nat) (ipv6 : Bool) : Call (Pass Bool (List Text × Option Failure)) := do
  if remaining ≤ 0 then
    let result ← cancelDriver world .dnsTimeout
    return .done result
  ask world World.wait
  match ← proxyObserveDownstream world id with
  | none => return .again ipv6
  | some failure =>
    let result ← cancelDriver world failure
    return .done result

/-- One pass of the driver loop. The state is whether the IPv6 query is running. -/
def dnsPass (limit : Int) (id : Nat) (ipv6 : Bool) : Call (Pass Bool (List Text × Option Failure)) := do
  let object ← requestObject id
  if object.cancellation.cancelled then
    let result ← cancelDriver world .cancelled
    return .done result
  let now ← nowMs world
  match ← ask world World.dnsStep with
  | .complete values =>
    if values = [] then
      hook world
      return .done ([], some .dns)
    let addresses ← ask world World.orderAddresses
    hook world
    return .done (addresses, none)
  | .error code =>
    if ipv6 = false ∧ (code = "no-address" ∨ code = "cached-negative") then
      ask world World.beginDriver
      return .again true
    hook world
    if code = "timeout" ∨ code.endsWith ":attempt-timeout" ∨
      code.startsWith "retry-exhausted:attempt-timeout" ∨
        limit ≤ now then return .done ([], some .dnsTimeout)
    return .done ([], some .dns)
  | .wait deadlineMs => dnsWait world (minimumDeadline deadlineMs limit - now) id ipv6
  | .ignored attemptDeadlineMs => dnsWait world (attemptDeadlineMs - now) id ipv6
  | .progress => return .again ipv6

def resolveUpstreamAddress (endpoint : UpstreamEndpoint) (limit : Int) (id : Nat) :
    Call (List Text × Option Failure) := do
  if let some numeric := world.numericAddress endpoint.host then return ([numeric], none)
  let connection ← get
  if connection.resolver = false ∨ connection.dnsTransport = false then return ([], some .dns)
  let now ← nowMs world
  let object ← requestObject id
  let limit := if 0 ≤ object.cancellation.deadlineMs then
    minimumDeadline limit object.cancellation.deadlineMs else limit
  if limit ≤ now then return ([], some .dnsTimeout)
  let outcome ← attempt do
    hook world
    ask world World.beginDriver
    loop (dnsPass world limit id) fuel false
  match outcome with
  | .ok result => return result
  | .error _ =>
    note .resolverError
    let _ ← settle [ask world World.close, hook world]
    return ([], some .dns)

/-- Connect observations until the outcome is known. -/
def connectLoop (id : Nat) : Call (ConnectOutcome × Option Failure) := do
  let outcome ← ask world World.connectObserve
  loop (fun outcome => do
    if outcome ≠ .wouldBlock then return .done (outcome, none)
    match ← proxyDeadlineFailure world id with
    | some failure => return .done (outcome, some failure)
    | none =>
      let remaining ← proxyRemainingMs world id
      match ← proxyWaitUpstream world remaining id with
      | some failure => return .done (outcome, some failure)
      | none =>
        let outcome ← ask world World.connectObserve
        return .again outcome) fuel outcome

def closeUpstream (handle : Int) : Call Unit := do
  note (.closed handle)
  ask world World.close

/-- The address loop: the first handle that connects, or `-1`. -/
def openAddresses (id : Nat) : List Text → Call (Int × Option Failure)
  | [] => return (-1, none)
  | _ :: rest => do
    match ← proxyDeadlineFailure world id with
    | some failure => return (-1, some failure)
    | none =>
      let handle ← ask world World.openUpstream
      if handle < 0 then openAddresses id rest
      else
        note (.opened handle)
        let (outcome, failure) ← connectLoop world fuel id
        note (.connectOver handle)
        if failure = none ∧ outcome = .connected then return (handle, none)
        closeUpstream world handle
        match failure with
        | some failure => return (-1, some failure)
        | none => openAddresses id rest

def setPooled (pooled : Option PooledUpstreamConnection) : Call Unit :=
  modify fun connection => { connection with pooled := pooled }

/-- `pool.opened(pooled, handle)`, on the reservation that this attempt holds. -/
def poolOpened (pooled : PooledUpstreamConnection) (handle : Int) :
    Call (Option PooledUpstreamConnection) := do
  if handle < 0 then
    note .returned
    note .unleased
    return none
  else if pooled.released ∨ 0 ≤ pooled.handle then
    closeUpstream world handle
    raise (.runtime "upstream reservation is not openable")
  else return some { pooled with handle := handle }

/-- Without a resolver the transport is given the host itself. -/
def candidateAddresses (endpoint : UpstreamEndpoint) (id : Nat) : Call (List Text × Option Failure) := do
  let connection ← get
  if connection.resolver = false then
    return ([(world.numericAddress endpoint.host).getD endpoint.host], none)
  else resolveUpstreamAddress world fuel endpoint connection.deadline.deadlineMs id

/-- The connect phase for a reservation without a socket. -/
def openReservation (pooled : PooledUpstreamConnection) (id : Nat) :
    Call (Except Failure PooledUpstreamConnection) := do
  let (addresses, failure) ← candidateAddresses world fuel pooled.endpoint id
  if let some failure := failure then return .error failure
  let (handle, failure) ← openAddresses world fuel id addresses
  if let some failure := failure then return .error failure
  match ← poolOpened world pooled handle with
  | none =>
    setPooled none
    return .error .connect
  | some opened =>
    setPooled (some { opened with connected := true })
    return .ok { opened with connected := true }

/-- The connect phase for a connection that has its socket. -/
def awaitConnected (pooled : PooledUpstreamConnection) (id : Nat) :
    Call (Except Failure PooledUpstreamConnection) := do
  if pooled.connected then return .ok pooled
  let (outcome, failure) ← connectLoop world fuel id
  match failure with
  | some failure => return .error failure
  | none =>
    if outcome ≠ .connected then return .error .connect
    setPooled (some { pooled with connected := true })
    return .ok { pooled with connected := true }

/-- From the reservation to a connected upstream. The pool hands out no connection that was released. -/
def acquireUpstream (id : Nat) : Call (Except Failure PooledUpstreamConnection) := do
  let saturated ← ask world fun world tick => .ok (world.poolSaturated tick)
  let _ ← nowMs world
  match ← ask world World.poolReserve with
  | none => return .error (if saturated then .overloaded else .connect)
  | some reserved =>
    let pooled := { reserved with released := false }
    note (.leased pooled.handle)
    setPooled (some pooled)
    if pooled.handle < 0 then openReservation world fuel pooled id else awaitConnected world fuel pooled id

/-- The bytes of one `take_upstream`, with partial writes. -/
def sendData (handle : Int) (id : Nat) (data : Bytes) : Call (Option Failure) :=
  loop (fun remaining => do
    if remaining = [] then return .done none
    match ← proxyDeadlineFailure world id with
    | some failure => return .done (some failure)
    | none =>
      match ← ask world (fun world tick => world.upstreamWrite tick remaining) with
      | .progress count =>
        if count ≤ 0 ∨ (remaining.length : Int) < count then return .done (some .resetBeforeHead)
        note (.upstreamWrite handle (remaining.take count.toNat))
        return .again (remaining.drop count.toNat)
      | .wouldBlock =>
        let budget ← proxyRemainingMs world id
        match ← proxyWaitUpstream world budget id with
        | some failure => return .done (some failure)
        | none => return .again remaining
      | .failed => return .done (some .resetBeforeHead)) fuel data

def proxyWriteQueued (handle : Int) (id : Nat) : Call (Option Failure) :=
  loop (fun _ => do
    let exchange ← exchangeView
    if exchange.toUpstream.queuedBytes = 0 then return .done none
    let connection ← get
    let (data, _) ← onExchange world (ProxyExchange.takeUpstream connection.config.buffers.segmentBytes)
    match ← sendData world fuel handle id data with
    | some failure => return .done (some failure)
    | none => return .again ()) fuel ()

/-- The inner loop of `_proxy_flush_downstream`. -/
def drainOutput : Call (Option Failure) :=
  loop (fun _ => do
    let connection ← get
    if connection.output.queuedBytes = 0 then return .done none
    match ← flushTransport world with
    | .timeout => return .done (some .downstreamTimeout)
    | .wouldBlock =>
      let _ ← nowMs world
      ask world World.wait
      return .again ()
    | .progress => return .again ()) fuel ()

def proxyFlushDownstream : Call (Option Failure) :=
  loop (fun _ => do
    let exchange ← exchangeView
    if exchange.toDownstream.queuedBytes = 0 then return .done none
    let connection ← get
    let (data, _) ← onExchange world (ProxyExchange.takeDownstream connection.config.buffers.segmentBytes)
    queueBytes world data
    match ← drainOutput world fuel with
    | some failure => return .done (some failure)
    | none => return .again ()) fuel ()

/-- `request.body.read_chunk()` as the attempt calls it. -/
def readBodyChunk (id : Nat) : Call (Option Bytes) := do
  let object ← requestObject id
  note (.bodyRead object.body)
  onBody id BodyStream.readChunk

/-- Chunks that are there already: each is framed and written before the next one is read. -/
def forwardChunks (handle : Int) (id : Nat) : Call (Option Failure) := do
  let chunk ← readBodyChunk id
  loop (fun chunk => do
    match chunk with
    | none | some [] => return .done none
    | some data =>
      let _ ← onExchange world (ProxyExchange.feedRequestBody data)
      match ← proxyWriteQueued world fuel handle id with
      | some failure => return .done (some failure)
      | none =>
        let chunk ← readBodyChunk id
        return .again chunk) fuel chunk

/-- The end of the request's body has been decoded: it waits among the deferred events, in front of any
later head. -/
def bodyDecoded (id : Nat) (connection : GatewayConnection) : Bool :=
  decide (connection.currentRequest = some id) &&
    (connection.deferredEvents.takeWhile fun event => !isHead event).any Event.isEnd

/-- The body loop: downstream parsing and upstream writes in turn until the request has ended. -/
def forwardBody (handle : Int) (id : Nat) : Call (Option Failure) :=
  loop (fun _ => do
    let object ← requestObject id
    if object.body.ended then return .done none
    let connection ← get
    note (.bodyPass (!object.body.streaming || connection.bodyDecoded id))
    consumePendingProxyBodyEvents world id
    match ← forwardChunks world fuel handle id with
    | some failure => return .done (some failure)
    | none =>
      let object ← requestObject id
      if object.body.ended then return .done none
      match ← proxyDeadlineFailure world id with
      | some failure => return .done (some failure)
      | none =>
        let budget ← proxyRemainingMs world id
        match ← proxyReadDownstreamBody world id budget with
        | some failure => return .done (some failure)
        | none => return .again ()) fuel ()

/-- The exchange is built and the whole request is written. -/
def sendRequest (plan : ProxyPlan) (pooled : PooledUpstreamConnection) (id : Nat) :
    Call (Option Failure) := do
  let object ← requestObject id
  modify fun connection => { connection with
    deadline := connection.deadline.requestBody object.cancellation.deadlineMs }
  let target ← lift (proxyTarget object.request plan.spec.stripPrefix)
  let connection ← get
  let others := world.othersBuffered connection.tick
  let built := ProxyExchange.construct {
      method := object.request.method
      target := target
      headers := object.request.headers
      upstreamAuthority := proxyAuthority pooled.endpoint
      clientIp := object.request.clientIp
      scheme := object.request.scheme
      originalHost := (object.request.header "host").getD []
      contentLength := object.request.contentLength
      chunkedRequest := object.request.chunkedBody
      trustForwarded := plan.spec.trustForwarded
      expectContinueHandled := object.request.expectContinueHandled }
    { segmentBytes := connection.config.buffers.segmentBytes
      lowWatermark := connection.config.buffers.lowWatermark
      highWatermark := connection.config.buffers.highWatermark
      maxBufferedBytes := connection.config.buffers.connectionBytes }
    (some { buffered := connection.buffered + others, maxBuffered := connection.config.maxBufferedBytes })
  modify fun connection => { connection with
    buffered := built.1.elim connection.buffered fun ledger => ledger.buffered - others }
  let exchange ← lift built.2
  modify fun connection => { connection with exchange := some exchange }
  if let some failure ← proxyWriteQueued world fuel pooled.handle id then return some failure
  if let some failure ← forwardBody world fuel pooled.handle id then return some failure
  -- a last fragment that came with the request's end
  if let some failure ← forwardChunks world fuel pooled.handle id then return some failure
  let object ← requestObject id
  let _ ← onExchange world (ProxyExchange.finishRequest object.request.trailers)
  proxyWriteQueued world fuel pooled.handle id

/-- `return exchange.response_status, failure, exchange.response_committed`. -/
def attemptFailed (failure : Failure) : Call AttemptResult := do
  let exchange ← exchangeView
  return ⟨exchange.responseStatus, some failure, exchange.responseCommitted⟩

/-- The deadlines after one read of response bytes. -/
def responseProgress (wasCommitted : Bool) : Call Unit := do
  let now ← nowMs world
  let exchange ← exchangeView
  if wasCommitted = false ∧ exchange.responseCommitted then
    modify fun connection => { connection with
      deadline := connection.deadline.responseHead now (!exchange.responseFinished) }
  else if exchange.responseCommitted ∧ exchange.responseFinished = false then
    modify fun connection => { connection with deadline := connection.deadline.bodyProgress now }

/-- The result once the downstream queue was flushed: a failure there is a failure after commit. -/
def flushedOr (next : Pass Unit (Option AttemptResult)) : Call (Pass Unit (Option AttemptResult)) := do
  match ← proxyFlushDownstream world fuel with
  | none => return next
  | some failure =>
    let exchange ← exchangeView
    return .done (some ⟨exchange.responseStatus, some failure, true⟩)

/-- One pass of the response loop. The loop ends without a result when the response is over. -/
def receivePass (handle : Int) (id : Nat) : Call (Pass Unit (Option AttemptResult)) := do
  let exchange ← exchangeView
  if exchange.responseFinished then return .done none
  if let some failure ← proxyDeadlineFailure world id then
    let result ← attemptFailed failure
    return .done (some result)
  match ← ask world World.upstreamRead with
  | .progress data =>
    if data = [] then
      note (.upstreamClosed false)
      let result ← attemptFailed .resetBeforeHead
      return .done (some result)
    note (.upstreamRead handle data)
    let _ ← onExchange world (ProxyExchange.feedUpstream data)
    responseProgress world exchange.responseCommitted
    flushedOr world fuel (.again ())
  | .eof =>
    note (.upstreamClosed true)
    let _ ← onExchange world ProxyExchange.upstreamEof
    flushedOr world fuel (.done none)
  | .wouldBlock =>
    let budget ← proxyRemainingMs world id
    match ← proxyWaitUpstream world budget id with
    | some failure =>
      let result ← attemptFailed failure
      return .done (some result)
    | none => return .again ()
  | .failed =>
    note (.upstreamClosed false)
    let result ← attemptFailed .resetBeforeHead
    return .done (some result)

/-- The `try` of `_proxy_exchange_attempt`: its result, and whether the upstream may be reused. -/
def exchangeOnce (plan : ProxyPlan) (id : Nat) : Call (AttemptResult × Bool) := do
  match ← acquireUpstream world fuel id with
  | .error failure => return (⟨0, some failure, false⟩, false)
  | .ok pooled =>
    if let some failure ← sendRequest world fuel plan pooled id then
      let exchange ← exchangeView
      return (⟨0, some failure, exchange.responseCommitted⟩, false)
    let now ← nowMs world
    modify fun connection => { connection with deadline := connection.deadline.connected now }
    if let some result ← loop (fun _ => receivePass world fuel pooled.handle id) fuel () then
      return (result, false)
    modify fun connection => { connection with deadline := connection.deadline.finish }
    let exchange ← exchangeView
    return (⟨exchange.responseStatus, none, true⟩, exchange.upstreamKeepAlive && exchange.responseFinished)

/-- `pool.release`: the upstream goes to the idle list, or its handle is closed. -/
def releasePooled (reusable : Bool) : Call Unit := do
  let connection ← get
  match connection.pooled with
  | none => return ()
  | some pooled =>
    if pooled.released then return ()
    let _ ← nowMs world
    note .returned
    let room ← ask world fun world tick => .ok (world.poolRoom tick)
    if 0 ≤ pooled.handle ∧ reusable ∧ room then note (.idle pooled.handle)
    else
      setPooled (some { pooled with released := true })
      note .unleased
      when (0 ≤ pooled.handle) (closeUpstream world pooled.handle)

/-- The `except ProxyProtocolError` branch. -/
def protocolFailure (code : String) : Call AttemptResult := do
  let connection ← get
  let status := connection.exchange.elim 0 (·.responseStatus)
  let committed := connection.exchange.elim false (·.responseCommitted)
  return ⟨status, some (if code = "buffer-overload" then .overloaded else .protocol), committed⟩

def recoverProtocol : Except Exn (AttemptResult × Bool) → Call (Except Exn (AttemptResult × Bool))
  | .error (.proxyProtocol code _) => do
    let result ← protocolFailure code
    return .ok (result, false)
  | outcome => return outcome

def proxyExchangeAttempt (plan : ProxyPlan) (id : Nat) (number : Nat) : Call AttemptResult := do
  note (.attempt number)
  let now ← nowMs world
  modify fun connection => { connection with
    deadline := ProxyDeadline.init plan.spec.timeouts now
    pooled := none
    exchange := none }
  let admitted ← grant world World.admitUpstream .upstream
  if admitted = false then return ⟨0, some .overloaded, false⟩
  let outcome ← attempt (exchangeOnce world fuel plan id)
  let outcome ← recoverProtocol outcome
  let connection ← get
  let error ← settle [
    when connection.exchange.isSome (onExchange world (ProxyExchange.cancel "attempt complete")),
    releasePooled world (outcome.toOption.elim false (·.2)),
    release .upstream]
  match outcome with
  | .error primary => raise primary
  | .ok (result, _) =>
    raiseFirst error
    return result

/-- The retry loop. A response that the parser committed counts as a commit. -/
def proxyAttempts (plan : ProxyPlan) (id : Nat) : Nat → Nat → AttemptResult → Call AttemptResult
  | 0, _, last => return last
  | remaining + 1, number, _ => do
    let result ← proxyExchangeAttempt world fuel plan id number
    match result.failure with
    | none => return result
    | some failure =>
      let committed := result.committed || decide (failure = .downstreamProtocolCommitted)
      let object ← requestObject id
      if plan.spec.retry.allows object.request.method number committed
          (if failure = .headerTimeout then .timeoutBeforeHead else failure)
            (decide (object.body.consumedBytes = 0)) then
        proxyAttempts plan id remaining (number + 1) { result with committed := committed }
      else return { result with committed := committed }

def proxyResult (plan : ProxyPlan) (id : Nat) : Call AttemptResult := do
  let connection ← get
  if plan.upstream ∈ connection.proxyPools then
    proxyAttempts world fuel plan id plan.spec.retry.attempts 1 ⟨0, some .noEndpoint, false⟩
  else return ⟨0, some .noEndpoint, false⟩

/-- A failure before the commit is answered; after it, the connection can only close. -/
def reportFailure (method : Text) (status : Nat) (failure : Failure) (committed : Bool) : Call Unit := do
  if committed = false then
    queueText world method ("upstream " ++ failure.name) (proxyFailureStatus failure)
  else
    modify fun connection => { connection with closeAfterFlush := true }
    let _ ← lift (Response.init (if status = 0 then 502 else status) (.bytes []))

/-- The `try` of `_run_gateway_proxy`. -/
def driveProxy (plan : ProxyPlan) (id : Nat) : Call Unit := do
  let result ← proxyResult world fuel plan id
  let object ← requestObject id
  match result.failure with
  | some .downstreamProtocolCommitted =>
    modify fun connection => { connection with closeAfterFlush := true }
  | some failure =>
    reportFailure world object.request.method result.status failure result.committed
    hook world
  | none =>
    let _ ← lift (Response.init result.status (.bytes []))
    hook world

/-- The `finally` of `_run_gateway_proxy`: the pending request is taken exactly once. -/
def finishProxy (id : Nat) : Call Unit := do
  let connection ← get
  if connection.pendingProxy.map (·.2) ≠ some id then return ()
  modify fun connection => { connection with pendingProxy := none }
  when (connection.currentRequest = some id) <|
    modify fun connection => { connection with currentRequest := none, currentAdmitted := false }
  let object ← requestObject id
  when (object.body.ended = false) do
    modify fun connection => { connection with closeAfterFlush := true }
    when (object.cancellation.cancelled = false)
      (cancelRequest id "proxy completed before request body end")
    changeBody id BodyStream.cancel
  changeBody id BodyStream.close
  release .request
  modify fun connection => { connection with requestsCompleted := connection.requestsCompleted + 1 }
  retire world

def runGatewayProxy : Call Unit := do
  let connection ← get
  match connection.pendingProxy with
  | none => return ()
  | some (plan, id) => ensuring (driveProxy world fuel plan id) (finishProxy world id)

end GatewayConnection
end PccGateway
