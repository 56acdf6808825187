import PccGateway.Buffer
import PccGateway.Http1.ResponseEncoder
import PccGateway.Proxy.UpstreamFeed

namespace PccGateway

/-- The header list of `encode_proxy_request_head`: the authority, then the forwarded fields that the
gateway does not write itself. -/
def proxyRequestHeaders (headers : List Header) (upstreamAuthority clientIp scheme originalHost : Text)
    (trustForwarded expectContinueHandled : Bool) : List Header :=
  ("host".toList, upstreamAuthority) ::
    (forwardedRequestHeaders headers clientIp scheme originalHost trustForwarded).filter fun header =>
      ¬ (lower header.1 ∈ ["host".toList, "content-length".toList, "transfer-encoding".toList] ∨
        expectContinueHandled ∧ lower header.1 = "expect".toList)

/-- `text.encode(...)`, which raises a `UnicodeEncodeError`. -/
def encoded (result : Option Bytes) : Except Exn Bytes :=
  match result with
  | some data => .ok data
  | none => .error .unicode

def proxyRequestFields : List Header → Except Exn Bytes
  | [] => .ok []
  | (name, value) :: rest => do
    let nameBytes ← encoded (encodeAscii name)
    let valueBytes ← encoded (encodeLatin1 value)
    if isToken nameBytes = false ∨ containsBadValueByte valueBytes = true then
      raiseProxy "bad-header" "unsafe proxy request header"
    else
      let more ← proxyRequestFields rest
      return fieldLine nameBytes valueBytes ++ crlf ++ more

def encodeProxyRequestHead (method target : Text) (headers : List Header)
    (upstreamAuthority clientIp scheme originalHost : Text) (contentLength : Int)
    (chunked trustForwarded expectContinueHandled : Bool) : Except Exn Bytes := do
  let methodBytes ← encoded (encodeAscii method)
  let targetBytes ← encoded (encodeLatin1 target)
  if isToken methodBytes = false ∨ targetBytes = [] then
    raiseProxy "bad-request" "invalid proxy request line"
  else if targetBytes.any (fun value => value ≤ 32 || value == 127) then
    raiseProxy "bad-target" "unsafe proxy target"
  else if upstreamAuthority = [] then raiseProxy "bad-upstream" "upstream authority is required"
  else if contentLength < 0 ∧ chunked = false then
    raiseProxy "unknown-framing" "unknown request length must be chunked"
  else if 0 ≤ contentLength ∧ chunked = true then
    raiseProxy "ambiguous-framing" "proxy request framing is ambiguous"
  else
    let fields ← proxyRequestFields
      (proxyRequestHeaders headers upstreamAuthority clientIp scheme originalHost trustForwarded
        expectContinueHandled)
    return methodBytes ++ ascii " " ++ targetBytes ++ ascii " HTTP/1.1" ++ crlf ++ fields ++
      (if chunked then ascii "transfer-encoding: chunked"
        else ascii "content-length: " ++ (decimal contentLength.toNat).map charByte) ++ crlf ++ crlf

/-- The gauge of buffered bytes that all connections share, as an exchange finds it. -/
structure Ledger where
  buffered : Nat
  maxBuffered : Int

structure ProxyExchange where
  method : Text
  contentLength : Int
  chunkedRequest : Bool
  expectContinueHandled : Bool
  accounting : Option Ledger
  codec : Http1UpstreamCodec
  toUpstream : ChannelBuffer
  toDownstream : ChannelBuffer
  requestSent : Nat := 0
  requestFinished : Bool := false
  responseCommitted : Bool := false
  responseStatus : Nat := 0
  responseFinished : Bool := false
  cancelled : Bool := false
  cancelReason : String := ""
  upstreamKeepAlive : Bool := false
  downstreamChunked : Bool := false

/-- The arguments of the constructor, with its defaults. -/
structure ExchangeRequest where
  method : Text
  target : Text
  headers : List Header
  upstreamAuthority : Text
  clientIp : Text
  scheme : Text
  originalHost : Text
  contentLength : Int := 0
  chunkedRequest : Bool := false
  trustForwarded : Bool := false
  expectContinueHandled : Bool := false

structure ExchangeLimits where
  segmentBytes : Int := 16384
  lowWatermark : Int := -1
  highWatermark : Int := -1
  maxBufferedBytes : Int := 1048576

namespace ProxyExchange

abbrev Call (α : Type) : Type := Method ProxyExchange Exn α

def onUpstream {α : Type} (call : Method ChannelBuffer Exn α) : Call α :=
  Method.on (·.toUpstream) (fun buffer exchange => { exchange with toUpstream := buffer }) call

def onDownstream {α : Type} (call : Method ChannelBuffer Exn α) : Call α :=
  Method.on (·.toDownstream) (fun buffer exchange => { exchange with toDownstream := buffer }) call

def onCodec {α : Type} (call : Method Http1UpstreamCodec Exn α) : Call α :=
  Method.on (·.codec) (fun codec exchange => { exchange with codec := codec }) call

/-- `_reserve`, with `reserve_buffered` of the lifecycle. -/
def reserve (count : Nat) : Call Unit := fun exchange =>
  match exchange.accounting with
  | none => (exchange, .ok ())
  | some ledger =>
    if count = 0 then (exchange, .ok ())
    else if ledger.maxBuffered < (ledger.buffered + count : Nat) then
      (exchange, raiseProxy "buffer-overload" "gateway global buffered-byte limit exceeded")
    else ({ exchange with accounting := some { ledger with buffered := ledger.buffered + count } }, .ok ())

/-- `_release`, with `release_buffered` of the lifecycle. -/
def release (count : Nat) : Call Unit := fun exchange =>
  match exchange.accounting with
  | none => (exchange, .ok ())
  | some ledger =>
    if count = 0 then (exchange, .ok ())
    else if ledger.buffered < count then
      (exchange, .error (.runtime "buffer reservation released out of range"))
    else ({ exchange with accounting := some { ledger with buffered := ledger.buffered - count } }, .ok ())

/-- `_append_upstream`: a view is kept, bytes are copied. -/
def appendUpstream (data : Bytes) (isView : Bool) : Call Transition := do
  reserve data.length
  Method.cleaning (onUpstream (if isView then ChannelBuffer.appendView data else ChannelBuffer.append data))
    (release data.length)

def feedRequestBody (data : Bytes) (isView : Bool := false) : Call Transition := do
  let exchange ← Method.get
  if exchange.cancelled ∨ exchange.requestFinished then
    Method.raise (.runtime "proxy request is not writable")
  else if exchange.chunkedRequest = false ∧ exchange.contentLength <
      (exchange.requestSent + data.length : Nat) then
    Method.lift (raiseProxy "request-overflow" "proxy request exceeds declared length")
  else
    Method.modify fun exchange => { exchange with requestSent := exchange.requestSent + data.length }
    if exchange.chunkedRequest ∧ data ≠ [] then
      appendUpstream ((hexadecimal data.length).map charByte ++ crlf ++ data ++ crlf) false
    else appendUpstream data isView

/-- The trailer loop of `finish_request`. -/
def requestTrailers : List Header → Except Exn Bytes
  | [] => .ok []
  | (name, value) :: rest => do
    if lower name ∈ ["content-length".toList, "transfer-encoding".toList, "host".toList] then
      raiseProxy "bad-trailer" "forbidden proxy request trailer"
    else
      let nameBytes ← encoded (encodeAscii (lower name))
      let valueBytes ← encoded (encodeLatin1 value)
      let more ← requestTrailers rest
      return fieldLine nameBytes valueBytes ++ crlf ++ more

def finishRequest (trailers : List Header) : Call Transition := do
  let exchange ← Method.get
  if exchange.requestFinished then return .none
  else if exchange.chunkedRequest = false ∧ (exchange.requestSent : Int) ≠ exchange.contentLength then
    Method.lift (raiseProxy "request-underflow" "proxy request ended before declared length")
  else
    Method.modify fun exchange => { exchange with requestFinished := true }
    if exchange.chunkedRequest = false then return .none
    else
      let lines ← Method.lift (requestTrailers (sanitizeHopByHop trailers))
      appendUpstream (ascii "0" ++ crlf ++ lines ++ crlf) false

/-- `take_upstream`: the bytes, and whether backpressure ended. -/
def takeUpstream (limit : Int := -1) : Call (Bytes × Bool) := do
  let before ← Method.get
  let data ← onUpstream (ChannelBuffer.read limit)
  release data.length
  let after ← Method.get
  return (data, before.toUpstream.backpressured && !after.toUpstream.backpressured)

def appendDownstream (data : Bytes) : Call Transition := do
  if data = [] then return .none
  else
    reserve data.length
    Method.cleaning (onDownstream (ChannelBuffer.append data)) (release data.length)

/-- The fields of an upstream head that go to the client. -/
def downstreamHeaders (headers : List Header) : List Header :=
  (sanitizeHopByHop headers).filter fun header =>
    lower header.1 ∉ ["content-length".toList, "transfer-encoding".toList]

/-- The branch of `feed_upstream` for a final head. -/
def forwardFinalHead (head : UpstreamResponseHead) (transition : Transition) : Call Transition := do
  let chunked := head.bodyExpected && decide (head.contentLength < 0)
  Method.modify fun exchange => { exchange with
    responseCommitted := true
    responseStatus := head.status
    upstreamKeepAlive := head.keepAlive
    downstreamChunked := chunked }
  let exchange ← Method.get
  let length := if head.bodyExpected = false ∧ exchange.method ≠ "HEAD".toList ∧ head.status ≠ 304 then -1
    else head.contentLength
  let data ← Method.lift (Http1ResponseEncoder.head head.status (downstreamHeaders head.headers)
    (if chunked then -1 else length) chunked)
  let grown ← appendDownstream data
  return grown.or transition

/-- The end of a chunked body, when the response is forwarded as one. -/
def endDownstream (trailers : List Header) (transition : Transition) : Call Transition := do
  let exchange ← Method.get
  if exchange.downstreamChunked then
    let data ← Method.lift (Http1ResponseEncoder.endChunks trailers)
    let grown ← appendDownstream data
    return grown.or transition
  else return transition

/-- One pass of the event loop of `feed_upstream`. -/
def forwardEvent (transition : Transition) : UpstreamEvent → Call Transition
  | .responseHead head => do
    let exchange ← Method.get
    if head.informational then
      if head.status = 100 ∧ exchange.expectContinueHandled then return transition
      else
        let data ← Method.lift (Http1ResponseEncoder.head head.status (downstreamHeaders head.headers))
        let grown ← appendDownstream data
        return grown.or transition
    else forwardFinalHead head transition
  | .responseBody data => do
    let exchange ← Method.get
    let grown ← appendDownstream (if exchange.downstreamChunked then
      Http1ResponseEncoder.chunk data else data)
    return grown.or transition
  | .responseEnd trailers => do
    let transition ← endDownstream trailers transition
    Method.modify fun exchange => { exchange with responseFinished := true }
    return transition

def forwardEvents (events : List UpstreamEvent) : Call Transition := events.foldlM forwardEvent .none

def feedUpstream (data : Bytes) : Call Transition := do
  let exchange ← Method.get
  if exchange.cancelled ∨ exchange.responseFinished then
    Method.raise (.runtime "proxy response is not readable")
  else
    let events ← onCodec (fun codec => codec.feed data)
    forwardEvents events

/-- `upstream_eof`. The codec's `eof` yields an end without trailers at most. -/
def upstreamEof : Call Transition := do
  let events ← onCodec Http1UpstreamCodec.eof
  forwardEvents events

def takeDownstream (limit : Int := -1) : Call (Bytes × Bool) := do
  let before ← Method.get
  let data ← onDownstream (ChannelBuffer.read limit)
  release data.length
  let after ← Method.get
  return (data, before.toDownstream.backpressured && !after.toDownstream.backpressured)

def cancel (reason : String) : Call Unit := do
  let exchange ← Method.get
  if exchange.cancelled then return ()
  else
    Method.modify fun exchange => { exchange with
      cancelled := true
      cancelReason := reason
      toUpstream := exchange.toUpstream.close
      toDownstream := exchange.toDownstream.close }
    release (exchange.toUpstream.queuedBytes + exchange.toDownstream.queuedBytes)

/-- An exchange whose request head is not queued yet. -/
def unsent (request : ExchangeRequest) (accounting : Option Ledger) (buffer : ChannelBuffer) :
    ProxyExchange where
  method := upper request.method
  contentLength := request.contentLength
  chunkedRequest := request.chunkedRequest
  expectContinueHandled := request.expectContinueHandled
  accounting := accounting
  codec := { requestMethod := upper (upper request.method), limits := {} }
  toUpstream := buffer
  toDownstream := buffer

/-- The constructor up to the head, which it has encoded. Until then it reserves nothing. -/
def opening (request : ExchangeRequest) (limits : ExchangeLimits) (accounting : Option Ledger) :
    Except Exn (ProxyExchange × Bytes) := do
  if limits.maxBufferedBytes ≤ 0 then .error (.value "max buffered bytes must be positive")
  else
    let high := if limits.highWatermark = -1 then min 65536 limits.maxBufferedBytes
      else limits.highWatermark
    let low := if limits.lowWatermark = -1 then min 32768 (high / 2) else limits.lowWatermark
    let buffer ← ChannelBuffer.init limits.segmentBytes low high limits.maxBufferedBytes
    let exchange := unsent request accounting buffer
    let head ← encodeProxyRequestHead exchange.method request.target request.headers
      request.upstreamAuthority
      request.clientIp request.scheme request.originalHost request.contentLength request.chunkedRequest
      request.trustForwarded request.expectContinueHandled
    return (exchange, head)

/-- The constructor, with the accounting as it leaves it, also where it raises. -/
def construct (request : ExchangeRequest) (limits : ExchangeLimits) (accounting : Option Ledger) :
    Option Ledger × Except Exn ProxyExchange :=
  match opening request limits accounting with
  | .error error => (accounting, .error error)
  | .ok (exchange, head) =>
    match appendUpstream head false exchange with
    | (started, .ok _) => (started.accounting, .ok started)
    | (failed, .error error) => (failed.accounting, .error error)

def init (request : ExchangeRequest) (limits : ExchangeLimits) (accounting : Option Ledger) :
    Except Exn ProxyExchange :=
  (construct request limits accounting).2

theorem opening_eq_ok {request : ExchangeRequest} {limits : ExchangeLimits}
    {accounting : Option Ledger} {exchange : ProxyExchange}
    {head : Bytes} (opened : opening request limits accounting = .ok (exchange, head)) :
    ∃ low high buffer, ChannelBuffer.init limits.segmentBytes low high limits.maxBufferedBytes =
      .ok buffer ∧ exchange = unsent request accounting buffer ∧
      encodeProxyRequestHead (upper request.method) request.target request.headers request.upstreamAuthority
        request.clientIp request.scheme request.originalHost request.contentLength request.chunkedRequest
        request.trustForwarded request.expectContinueHandled = .ok head := by
  unfold opening at opened
  split at opened
  · cases opened
  · simp only [bind_eq_ok] at opened
    obtain ⟨buffer, made, head, encodes, result⟩ := opened
    cases result
    exact ⟨_, _, buffer, made, rfl, encodes⟩

/-- A new exchange has its head queued. -/
theorem init_eq_ok {request : ExchangeRequest} {limits : ExchangeLimits} {accounting : Option Ledger}
    {exchange : ProxyExchange} (start : init request limits accounting = .ok exchange) :
    ∃ low high buffer head transition,
      ChannelBuffer.init limits.segmentBytes low high limits.maxBufferedBytes = .ok buffer ∧
      encodeProxyRequestHead (upper request.method) request.target request.headers request.upstreamAuthority
        request.clientIp request.scheme request.originalHost request.contentLength request.chunkedRequest
        request.trustForwarded request.expectContinueHandled = .ok head ∧
      appendUpstream head false (unsent request accounting buffer) = (exchange, .ok transition) := by
  unfold init construct at start
  split at start
  · cases start
  · rename_i first head opened
    obtain ⟨low, high, buffer, made, rfl, encodes⟩ := opening_eq_ok opened
    split at start
    · rename_i started transition appended
      cases start
      exact ⟨low, high, buffer, head, transition, made, encodes, appended⟩
    · cases start

end ProxyExchange

abbrev UpstreamLimits.standard : UpstreamLimits := {}

end PccGateway
