import PccGateway.Server.Environment

namespace PccGateway

/-- A request object with the two parts that change while it is served. -/
structure RequestObject where
  request : Request
  body : BodyStream
  cancellation : Cancellation

/-- A response whose iterator the connection is driving. -/
structure PendingStream where
  request : Nat
  response : Response
  chunk : Bytes := []
  offset : Nat := 0
  admitted : Bool
  emptyChunks : Nat := 0

/-- One connection and what its thread holds. Requests are named by their place in `requests`. A
pending plan is kept with its request: the source sets and clears the two together. The fields from
`deadline` on are the locals of the running `_proxy_exchange_attempt` that its `finally` reads, then the
connection's share of the lifecycle's buffered bytes and the record of the run. -/
structure GatewayConnection where
  config : GatewayConfig
  codec : Http1ServerCodec
  output : ChannelBuffer
  clientIp : Text := []
  fd : Int := 0
  tls : Bool := false
  resolver : Bool := false
  dnsTransport : Bool := false
  proxyPools : List Text := []
  requests : List RequestObject := []
  currentRequest : Option Nat := none
  currentKeepAlive : Bool := true
  currentAdmitted : Bool := false
  pendingProxy : Option (ProxyPlan × Nat) := none
  pendingLocal : Option Nat := none
  pendingStream : Option PendingStream := none
  deferredEvents : List Event := []
  requestsCompleted : Nat := 0
  closeAfterFlush : Bool := false
  closed : Bool := false
  closeReason : String := ""
  ioWaitInterest : Interest := .read
  readDeadlineMs : Int := -1
  headerDeadlineMs : Int := -1
  writeDeadlineMs : Int := -1
  deadline : ProxyDeadline := {}
  pooled : Option PooledUpstreamConnection := none
  exchange : Option ProxyExchange := none
  buffered : Nat := 0
  tick : Nat := 0
  trace : List Entry := []

inductive FlushOutcome where
  | progress
  | wouldBlock
  | timeout
  deriving DecidableEq

inductive DeadlinePhase where
  | read
  | request
  | header
  | write
  deriving DecidableEq

def DeadlinePhase.name : DeadlinePhase → String
  | .read => "read"
  | .request => "request"
  | .header => "header"
  | .write => "write"

namespace GatewayConnection
open Thread

def init (config : GatewayConfig) : GatewayConnection where
  config := config
  codec := { limits := {
    maxRequestLine := config.http1.requestLineBytes
    maxHeaderBytes := config.http1.headerBytes
    maxHeaderCount := config.http1.headerCount
    maxBodyBytes := config.http1.bodyBytes
    maxChunkBytes := config.http1.chunkBytes
    requestLine_pos := by have := config.http1.requestLine_pos; omega
    headerBytes_pos := by have := config.http1.header_pos; omega } }
  output := {
    segmentSize := config.buffers.segmentBytes
    lowWatermark := config.buffers.lowWatermark
    highWatermark := config.buffers.highWatermark
    maxBytes := config.buffers.connectionBytes
    segment_pos := config.buffers.segment_pos
    watermarks := config.buffers.watermarks
    covers := config.buffers.covers }

abbrev Call (α : Type) : Type := Thread GatewayConnection Exn α

def get : Call GatewayConnection := Method.get

def modify (change : GatewayConnection → GatewayConnection) : Call Unit := Method.modify change

def lift {α : Type} (result : Except Exn α) : Call α := reraise result

def note (entry : Entry) : Call Unit :=
  modify fun connection => { connection with trace := connection.trace ++ [entry] }

/-- `read_chunk` calls of a handler child, which keeps running between two observations. -/
def childReads : Nat → BodyStream → BodyStream
  | 0, body => body
  | reads + 1, body => childReads reads (BodyStream.readChunk body).1

variable (world : World)

/-- One observation. Meanwhile the handler child of the pending local request reads its body. -/
def ask {α : Type} (answer : World → Nat → Except Exn α) : Call α := fun connection =>
  let requests := match connection.pendingLocal with
    | none => connection.requests
    | some id => connection.requests.modify id fun object =>
        { object with body := childReads (world.childReads connection.tick) object.body }
  reraise (answer world connection.tick) { connection with
    tick := connection.tick + 1, requests := requests }

def nowMs : Call Int := ask world World.nowMs

def hook : Call Unit := ask world World.hook

/-- An admission test of the lifecycle, with its place in the record when it passes. -/
def grant (answer : World → Nat → Bool) (gauge : Gauge) : Call Bool := do
  let admitted ← ask world fun world tick => .ok (answer world tick)
  when admitted (note (.admitted gauge))
  return admitted

def release (gauge : Gauge) : Call Unit := note (.released gauge)

def requestObject (id : Nat) : Call RequestObject := fun connection =>
  match connection.requests[id]? with
  | some object => (connection, .ok object)
  | none => (connection, .error (.raised (.lookup "request")))

def changeRequest (id : Nat) (change : RequestObject → RequestObject) : Call Unit :=
  modify fun connection => { connection with requests := connection.requests.modify id change }

def changeBody (id : Nat) (change : BodyStream → BodyStream) : Call Unit :=
  changeRequest id fun object => { object with body := change object.body }

def onBody {α : Type} (id : Nat) (call : Thread BodyStream Exn α) : Call α := do
  let object ← requestObject id
  Method.on (fun _ => object.body)
    (fun body connection => { connection with requests := connection.requests.set id { object with
      body := body } }) call

/-- `request.cancellation.cancel(reason)`. -/
def cancelRequest (id : Nat) (reason : String) : Call Unit :=
  changeRequest id fun object => { object with cancellation := object.cancellation.cancel reason }

def onOutput {α : Type} (call : Method ChannelBuffer Exn α) : Call α :=
  Thread.call (Method.on (·.output) (fun output connection => { connection with output := output }) call)

def onCodec {α : Type} (call : Method Http1ServerCodec Exn α) : Call α :=
  Thread.call (Method.on (·.codec) (fun codec connection => { connection with codec := codec }) call)

/-- `lifecycle.reserve_buffered(count)`: the budget is shared. -/
def reserveBuffered (count : Nat) : Call Bool := fun connection =>
  if connection.buffered + world.othersBuffered connection.tick + count ≤
      connection.config.maxBufferedBytes then
    ({ connection with buffered := connection.buffered + count }, .ok true)
  else (connection, .ok false)

def releaseBuffered (count : Nat) : Call Unit := fun connection =>
  if connection.buffered + world.othersBuffered connection.tick < count then
    (connection, .error (.raised (.runtime "buffer reservation released out of range")))
  else ({ connection with buffered := connection.buffered - count }, .ok ())

def restartWriteDeadline : Call Unit := do
  let now ← nowMs world
  modify fun connection => { connection with writeDeadlineMs := now + connection.config.writeTimeoutMs }

def queueBytes (data : Bytes) : Call Unit := do
  if data = [] then return ()
  let reserved ← reserveBuffered world data.length
  if reserved = false then raise (.bufferLimit "gateway global buffered-byte limit exceeded")
  else
    match ← attempt (onOutput (ChannelBuffer.append data)) with
    | .error error =>
      releaseBuffered world data.length
      raise error
    | .ok transition =>
      note (.queued data)
      let connection ← get
      when (connection.writeDeadlineMs < 0) (restartWriteDeadline world)
      when (transition = .high) (hook world)

def consumeOutput (count : Int) : Call Unit := do
  if count ≤ 0 then return ()
  let transition ← onOutput (ChannelBuffer.consume count)
  releaseBuffered world count.toNat
  when (transition = .low) (hook world)
  let connection ← get
  if connection.output.queuedBytes = 0 then
    modify fun connection => { connection with writeDeadlineMs := -1 }
  else restartWriteDeadline world

def peekOutput (limit : Int) (connection : GatewayConnection) : Bytes :=
  (connection.output.peekViews limit).flatten

def takeOutput (limit : Int) : Call Bytes := do
  let connection ← get
  let result := connection.peekOutput limit
  consumeOutput world result.length
  return result

/-- The pending proxy owns its request's body and admission; a pending child owns its admission. -/
def abortCurrentRequest (reason : String) : Call Unit := do
  let connection ← get
  match connection.currentRequest with
  | none => return ()
  | some id =>
    modify fun connection => { connection with currentRequest := none, currentAdmitted := false }
    cancelRequest id reason
    if connection.pendingLocal = some id then changeBody id BodyStream.cancel
    else if connection.pendingProxy.map (·.2) ≠ some id then
      changeBody id BodyStream.cancel
      changeBody id BodyStream.close
      when connection.currentAdmitted (release .request)

def signalPendingLocal (reason : String) : Call Unit := do
  let connection ← get
  match connection.pendingLocal with
  | none => return ()
  | some id =>
    cancelRequest id reason
    changeBody id BodyStream.cancel
    ask world World.cancelThread

def cancelPendingProxy (reason : String) : Call Unit := do
  let connection ← get
  match connection.pendingProxy with
  | none => return ()
  | some (_, id) =>
    modify fun connection => { connection with pendingProxy := none }
    cancelRequest id reason
    changeBody id BodyStream.cancel
    changeBody id BodyStream.close
    release .request

def cancelPendingStream (reason : String) : Call Unit := do
  let connection ← get
  match connection.pendingStream with
  | none => return ()
  | some stream =>
    modify fun connection => { connection with pendingStream := none }
    cancelRequest stream.request reason
    changeBody stream.request BodyStream.close
    when stream.admitted (release .request)

def beginStreamingResponse (id : Nat) (response : Response) (admitted : Bool) : Call Unit := do
  ask world World.iterate
  let connection ← get
  let head ← lift (Http1ResponseEncoder.head response.status response.ownHeaders (-1) true
    (connection.currentKeepAlive && !connection.closeAfterFlush))
  queueBytes world head
  modify fun connection => { connection with
    pendingStream := some { request := id, response := response, admitted := admitted } }

/-- The end of every request: the connection closes when the request was its last one. -/
def retire : Call Unit := modify fun connection =>
  if connection.currentKeepAlive = false ∨ connection.config.maxRequestsPerConnection ≤
    connection.requestsCompleted ∨
      world.running connection.tick = false then { connection with closeAfterFlush := true }
  else connection

def completeStreamingResponse : Call Unit := do
  let connection ← get
  match connection.pendingStream with
  | none => return ()
  | some stream =>
    modify fun connection => { connection with
      pendingStream := none
      requestsCompleted := connection.requestsCompleted + 1 }
    let error ← settle [hook world, changeBody stream.request BodyStream.close,
      when stream.admitted (release .request)]
    retire world
    raiseFirst error

/-- The part of `_drive_streaming_response` behind the fetch: one bounded piece of the chunk. -/
def driveStreamChunk (stream : PendingStream) (available : Int) : Call Unit := do
  modify fun connection => { connection with pendingStream := some stream }
  let connection ← get
  let take := min (min ((stream.chunk.length : Int) - stream.offset)
    connection.config.buffers.segmentBytes) (available - 32)
  if take ≤ 0 then return ()
  modify fun connection => { connection with
    pendingStream := some { stream with offset := stream.offset + take.toNat } }
  queueBytes world (Http1ResponseEncoder.chunk ((stream.chunk.drop stream.offset).take take.toNat))

def driveStreamingResponse : Call Unit := do
  let connection ← get
  match connection.pendingStream with
  | none => return ()
  | some stream =>
    let object ← requestObject stream.request
    if object.cancellation.cancelled then
      cancelPendingStream "streaming response cancelled"
      modify fun connection => { connection with closeAfterFlush := true }
    else
      let available : Int := connection.config.buffers.connectionBytes - connection.output.queuedBytes
      if available ≤ 32 then return ()
      if stream.offset < stream.chunk.length then driveStreamChunk world stream available
      else
        match ← ask world World.nextChunk with
        | none =>
          let ending ← lift (Http1ResponseEncoder.endChunks [])
          queueBytes world ending
          completeStreamingResponse world
        | some .other =>
          cancelPendingStream "invalid response stream chunk"
          modify fun connection => { connection with closeAfterFlush := true }
        | some (.bytes data) => driveFetched data stream available
        | some (.text value) => driveFetched (utf8 value) stream available
where
  driveFetched (data : Bytes) (stream : PendingStream) (available : Int) : Call Unit := do
    if data = [] then
      modify fun connection => { connection with pendingStream := some { stream with
        emptyChunks := stream.emptyChunks + 1 } }
      if 1024 < stream.emptyChunks + 1 then
        cancelPendingStream "too many empty response chunks"
        modify fun connection => { connection with closeAfterFlush := true }
    else driveStreamChunk world { stream with chunk := data, offset := 0, emptyChunks := 0 } available

/-- The end of `_begin_request` for an admitted request: a direct proxy route takes the admission over,
and so does the handler child of a request with a streamed body. -/
def routeRequest (id : Nat) (streaming expectContinue : Bool) : Call Unit := do
  hook world
  when expectContinue (queueBytes world (ascii "HTTP/1.1 100 Continue" ++ crlf ++ crlf))
  match ← ask world World.dispatchProxyHead with
  | some plan =>
    modify fun connection => { connection with pendingProxy := some (plan, id), currentAdmitted := false }
  | none =>
    if streaming then
      ask world World.spawn
      modify fun connection => { connection with pendingLocal := some id, currentAdmitted := false }
    else return ()

/-- `_begin_request`. Whether the body stream may park its reader is decided here, before the route is
known. -/
def beginRequest (head : RequestHead) : Call Unit := do
  let connection ← get
  if connection.currentRequest.isSome then
    raise (.http1 ⟨400, "overlapping-request", "request body overlaps"⟩)
  else
    let now ← nowMs world
    let streaming := world.localBodyStreaming && (decide (0 < head.contentLength) || head.chunked)
    let body ← lift (BodyStream.init connection.config.http1.bodyBytes
      connection.config.buffers.lowWatermark
      connection.config.buffers.highWatermark streaming)
    let request ← lift (Request.init head.method head.target head.version head.headers connection.clientIp
      (if connection.tls then "https".toList else "http".toList) head.contentLength head.chunked
        head.expectContinue)
    let id := connection.requests.length
    modify fun connection => { connection with
      requests := connection.requests ++
        [⟨request, body, { deadlineMs := now + connection.config.http1.bodyTimeoutMs }⟩]
      headerDeadlineMs := -1
      currentRequest := some id
      currentKeepAlive := head.keepAlive }
    let admitted ← grant world World.admitRequest .request
    modify fun connection => { connection with currentAdmitted := admitted }
    when admitted (routeRequest world id streaming head.expectContinue)

def responsePayload (method : Text) (response : Response) : Call Bytes := do
  let connection ← get
  let keepAlive := connection.currentKeepAlive && !connection.closeAfterFlush
  if response.streaming then
    lift (Http1ResponseEncoder.head response.status response.ownHeaders (-1)
      (!response.withoutBody && decide (method ≠ "HEAD".toList)) keepAlive)
  else
    let body ← lift response.body.encoded
    let head ← lift (Http1ResponseEncoder.head response.status response.ownHeaders
      (if response.contentLengthForbidden then -1 else body.length) false keepAlive)
    return if response.withoutBody ∨ method = "HEAD".toList then head else head ++ body

/-- A response of the gateway itself: text, status and the method it answers. -/
def queueText (method : Text) (body : String) (status : Nat) : Call Unit := do
  let response ← lift (Response.text body status)
  let payload ← responsePayload method response
  queueBytes world payload

/-- The `except BufferLimitError` branch that both dispatch paths have. -/
def responseOverflow (method : Text) : Call Unit := do
  modify fun connection => { connection with closeAfterFlush := true }
  let connection ← get
  when (connection.output.queuedBytes = 0) (queueText world method "response buffer limit exceeded" 503)

/-- A streaming response takes over its request's admission; any other one is queued whole. The result
is whether the admission was taken over. -/
def publishResponse (id : Nat) (method : Text) (response : Response) (admitted : Bool) : Call Bool := do
  if response.streaming ∧ response.withoutBody = false ∧ method ≠ "HEAD".toList then
    beginStreamingResponse world id response admitted
    return true
  else
    let payload ← responsePayload method response
    queueBytes world payload
    hook world
    return false

/-- The exception that is left when an overflow has been answered. -/
def recoverOverflow (method : Text) : Except Exn Bool → Call (Option Exn)
  | .ok _ => return none
  | .error (.bufferLimit _) => settle [responseOverflow world method]
  | .error error => return some error

/-- A handler child that returns something else than a response gave an internal error. -/
def handlerResponse : Dispatched → Call Response
  | .response response => return response
  | _ => lift (Response.text "internal server error" 500)

def completeLocalHandlerResponse (id : Nat) (result : Dispatched) : Call Unit := do
  let object ← requestObject id
  let response ← handlerResponse result
  let outcome ← attempt (publishResponse world id object.request.method response true)
  if outcome matches .ok true then return ()
  let error ← recoverOverflow world object.request.method outcome
  release .request
  changeBody id BodyStream.close
  raiseFirst error
  modify fun connection => { connection with requestsCompleted := connection.requestsCompleted + 1 }
  retire world

/-- The branches of `_finish_request` that answer 408. -/
def requestTimeout (id : Nat) : Call Response := do
  cancelRequest id "request deadline exceeded"
  hook world
  let response ← lift (Response.text "request timeout" 408)
  modify fun connection => { connection with closeAfterFlush := true }
  return response

/-- The `try` of `_finish_request`; the result is whether someone else now owns the admission. -/
def dispatchRequest (id : Nat) (admitted : Bool) : Call Bool := do
  let object ← requestObject id
  let method := object.request.method
  if admitted = false then
    let response ← lift (Response.text "gateway overloaded" 503)
    modify fun connection => { connection with closeAfterFlush := true }
    publishResponse world id method response admitted
  else
    let now ← nowMs world
    if object.cancellation.deadlineMs ≤ now then
      let response ← requestTimeout world id
      publishResponse world id method response admitted
    else
      let result ← ask world World.dispatch
      match result with
      | .proxy plan =>
        modify fun connection => { connection with pendingProxy := some (plan, id) }
        return true
      | _ =>
        let now ← nowMs world
        if object.cancellation.deadlineMs ≤ now then
          let response ← requestTimeout world id
          publishResponse world id method response admitted
        else
          match result with
          | .response response => publishResponse world id method response admitted
          | _ => raise .external

def finishRequest : Call Unit := do
  let connection ← get
  modify fun connection => { connection with currentRequest := none, currentAdmitted := false }
  match connection.currentRequest with
  | none => raise (.http1 ⟨400, "orphan-request-end", "request end without head"⟩)
  | some id =>
    changeBody id BodyStream.finish
    if connection.pendingProxy.map (·.2) = some id ∨ connection.pendingLocal = some id then return ()
    let object ← requestObject id
    let outcome ← attempt (dispatchRequest world id connection.currentAdmitted)
    let error ← recoverOverflow world object.request.method outcome
    let after ← get
    let handedOver := after.pendingProxy.isSome || after.pendingStream.isSome
    when (handedOver = false) do
      when connection.currentAdmitted (release .request)
      changeBody id BodyStream.close
    raiseFirst error
    when (handedOver = false) do
      modify fun connection => { connection with requestsCompleted := connection.requestsCompleted + 1 }
      retire world

def handleEvent (event : Event) : Call Unit := do
  note (.handled event)
  match event with
  | .requestHead head =>
    match ← attempt (beginRequest world head) with
    | .ok () => return ()
    | .error error =>
      if error.isValueError then raise (.http1 ⟨400, "bad-target", error.message⟩) else raise error
  | .bodyChunk data =>
    let connection ← get
    match connection.currentRequest with
    | none =>
      note (.chunkReleased data)
      raise (.http1 ⟨400, "orphan-body", "body without request head"⟩)
    | some id =>
      let _ ← ensuring (onBody id (Thread.call (BodyStream.feed data))) (note (.chunkReleased data))
      return ()
  | .requestEnd trailers =>
    let connection ← get
    match connection.currentRequest with
    | none => finishRequest world
    | some id =>
      changeRequest id fun object => { object with request := { object.request with trailers := trailers } }
      finishRequest world

def isHead : Event → Bool
  | .requestHead _ => true
  | _ => false

/-- A proxied, local or streaming response is outstanding: later events wait behind it. -/
def pending (connection : GatewayConnection) : Bool :=
  connection.pendingProxy.isSome || connection.pendingLocal.isSome || connection.pendingStream.isSome

def defer (event : Event) : Call Unit :=
  modify fun connection => { connection with deferredEvents := connection.deferredEvents ++ [event] }

def dropEvent (queuedHeads : Bool) (event : Event) : Call Unit := do
  note (.dropped event)
  match event with
  | .bodyChunk data => note (.chunkReleased data)
  | .requestHead _ => when queuedHeads (release .queued)
  | .requestEnd _ => return ()

/-- `_release_event_suffix`: events that nobody will handle. Their heads were queued or not. -/
def dropEvents (queuedHeads : Bool) : List Event → Call Unit
  | [] => return ()
  | event :: rest => do
    dropEvent queuedHeads event
    dropEvents queuedHeads rest

/-- A head has to be admitted to the queue; what follows it goes along. -/
def queueEvent (event : Event) : Call Bool :=
  if isHead event then grant world World.queueRequest .queued else return true

/-- The event loop of `feed_data`, with the number of events handled so far. What is left over when it
stops early is released. -/
def feedEvents : List Event → Int → Call Int
  | [], handled => return handled
  | event :: rest, handled => do
    let connection ← get
    if connection.closeAfterFlush then
      dropEvents false (event :: rest)
      return handled
    else if connection.pending then
      let queued ← queueEvent world event
      if queued then
        defer event
        feedEvents rest handled
      else
        modify fun connection => { connection with closeAfterFlush := true }
        dropEvents false (event :: rest)
        return handled
    else
      match ← attempt (handleEvent world event) with
      | .ok () => feedEvents rest (handled + 1)
      | .error error =>
        dropEvents false rest
        raise error

def discardDeferredEvents : Call Unit := do
  let connection ← get
  modify fun connection => { connection with deferredEvents := [] }
  dropEvents true connection.deferredEvents

def failHttp (error : Http1Error) : Call Unit := do
  abortCurrentRequest error.code
  discardDeferredEvents
  modify fun connection => { connection with closeAfterFlush := true }
  let connection ← get
  when (connection.output.queuedBytes = 0) (queueText world "GET".toList error.message error.status)

/-- The `try` of `feed_data`. -/
def feedDecoded (data : Bytes) (maxMessages : Int) : Call Int := do
  let events ← onCodec fun codec => codec.feed data maxMessages
  modify fun connection => { connection with trace := connection.trace ++ events.map .decoded }
  let handled ← feedEvents world events 0
  let connection ← get
  when (connection.currentRequest.isNone ∧ connection.codec.state = .head ∧ connection.codec.buffer ≠ [] ∧
      connection.headerDeadlineMs < 0) do
    let now ← nowMs world
    modify fun connection =>
      { connection with headerDeadlineMs := now + connection.config.http1.headerTimeoutMs }
  return handled

def feedData (data : Bytes) (maxMessages : Int) : Call Int := do
  let connection ← get
  if connection.closed ∨ connection.closeAfterFlush then return 0
  match ← attempt (feedDecoded world data maxMessages) with
  | .ok handled => return handled
  | .error (.http1 error) =>
    failHttp world error
    return -1
  | .error error =>
    discardDeferredEvents
    note .feedRaised
    raise error

/-- The loop of `_resume_deferred_events`. -/
def resumeEvents : List Event → Call Unit
  | [] => return ()
  | event :: rest => do
    let connection ← get
    if connection.closeAfterFlush then dropEvents true (event :: rest)
    else if connection.pending then
      defer event
      resumeEvents rest
    else
      when (isHead event) (release .queued)
      match ← attempt (handleEvent world event) with
      | .ok () => resumeEvents rest
      | .error error =>
        dropEvents true rest
        raise error

def resumeDeferredEvents : Call Unit := do
  let connection ← get
  modify fun connection => { connection with deferredEvents := [] }
  resumeEvents world connection.deferredEvents

/-- The loop of the two `_consume_pending_*_body_events` methods. -/
def consumeEvents (id : Nat) : List Event → Call Unit
  | [] => return ()
  | event :: rest => do
    let connection ← get
    if connection.currentRequest = some id ∧ isHead event = false then
      match ← attempt (handleEvent world event) with
      | .ok () => consumeEvents id rest
      | .error error =>
        modify fun connection => { connection with deferredEvents := connection.deferredEvents ++ rest }
        raise error
    else
      defer event
      consumeEvents id rest

def consumePendingBodyEvents (id : Nat) : Call Unit := do
  let connection ← get
  modify fun connection => { connection with deferredEvents := [] }
  consumeEvents world id connection.deferredEvents

def consumePendingProxyBodyEvents (id : Nat) : Call Unit := consumePendingBodyEvents world id

def consumePendingLocalBodyEvents (id : Nat) : Call Unit := consumePendingBodyEvents world id

end GatewayConnection
end PccGateway
