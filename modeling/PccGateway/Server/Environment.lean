import PccGateway.Proxy.Exchange
import PccGateway.Request
import PccGateway.Server.BodyStream

namespace PccGateway

structure Http1Limits where
  requestLineBytes : Nat := 8192
  headerBytes : Nat := 32768
  headerCount : Nat := 100
  bodyBytes : Nat := 16777216
  chunkBytes : Nat := 1048576
  headerTimeoutMs : Nat := 10000
  bodyTimeoutMs : Nat := 30000
  idleTimeoutMs : Nat := 30000
  requestLine_pos : 0 < requestLineBytes := by decide
  header_pos : 0 < headerBytes := by decide
  count_pos : 0 < headerCount := by decide
  chunk_pos : 0 < chunkBytes := by decide
  chunk_le_body : chunkBytes ≤ bodyBytes := by decide

abbrev Http1Limits.standard : Http1Limits := {}

structure BufferLimits where
  segmentBytes : Nat := 16384
  lowWatermark : Nat := 32768
  highWatermark : Nat := 65536
  connectionBytes : Nat := 1048576
  segment_pos : 0 < segmentBytes := by decide
  watermarks : lowWatermark < highWatermark := by decide
  covers : highWatermark ≤ connectionBytes := by decide

abbrev BufferLimits.standard : BufferLimits := {}

/-- The part of a generation that a connection reads, with the buffer budget of its lifecycle. -/
structure GatewayConfig where
  http1 : Http1Limits := .standard
  buffers : BufferLimits := .standard
  maxRequestsPerConnection : Nat := 1000
  writeTimeoutMs : Nat := 30000
  tlsHandshakeTimeoutMs : Nat := 10000
  tlsCloseTimeoutMs : Nat := 3000
  maxBufferedBytes : Nat := 67108864

/-- What a handler put into a response. An object that is neither bytes nor text goes through
`bytes(...)`. -/
inductive ResponseBody where
  | bytes (data : Bytes)
  | text (value : Text)
  | object (converted : Except Exn Bytes)

/-- `str.encode("utf-8")`. -/
def utf8 (text : Text) : Bytes := text.flatMap String.utf8EncodeChar

def ResponseBody.encoded : ResponseBody → Except Exn Bytes
  | .bytes data => .ok data
  | .text value => .ok (utf8 value)
  | .object converted => converted

/-- One terminal response. The constructor refuses every other status. -/
structure Response where
  status : Nat
  body : ResponseBody
  headers : List Header
  streaming : Bool
  final : 200 ≤ status ∧ status ≤ 599

namespace Response

def init (status : Nat) (body : ResponseBody) (headers : List Header := []) (streaming : Bool := false) :
    Except Exn Response :=
  if final : 200 ≤ status ∧ status ≤ 599 then
    .ok { status := status, body := body, headers := headers, streaming := streaming, final := final }
  else .error (.value "final HTTP response status must be 200..599")

def text (body : String) (status : Nat) : Except Exn Response :=
  init status (.bytes (utf8 body.toList)) [("content-type".toList, "text/plain; charset=utf-8".toList)]

/-- `100 <= status < 200 or status == 204`. -/
def contentLengthForbidden (response : Response) : Bool :=
  decide (100 ≤ response.status ∧ response.status < 200 ∨ response.status = 204)

def withoutBody (response : Response) : Bool :=
  response.contentLengthForbidden || decide (response.status = 304)

/-- Framing and persistence belong to the codec, not to a handler. -/
def ownHeaders (response : Response) : List Header :=
  response.headers.filter fun header =>
    lower header.1 ∉ ["content-length".toList, "transfer-encoding".toList, "connection".toList]

end Response

structure ProxyTimeouts where
  connectMs : Nat := 5000
  headerMs : Nat := 10000
  bodyMs : Nat := 30000
  idleMs : Nat := 30000
  connect_pos : 0 < connectMs := by decide
  header_pos : 0 < headerMs := by decide
  body_pos : 0 < bodyMs := by decide
  idle_pos : 0 < idleMs := by decide

abbrev ProxyTimeouts.standard : ProxyTimeouts := {}

/-- Why an attempt failed. The last two name classes that only the retry policy knows. -/
inductive Failure where
  | noEndpoint
  | overloaded
  | dns
  | dnsTimeout
  | connect
  | connectTimeout
  | requestBodyTimeout
  | headerTimeout
  | bodyTimeout
  | resetBeforeHead
  | protocol
  | cancelled
  | downstreamTimeout
  | downstreamProtocolCommitted
  | timeoutBeforeHead
  | refused
  deriving DecidableEq, Repr

def Failure.name : Failure → String
  | .noEndpoint => "no-endpoint"
  | .overloaded => "overloaded"
  | .dns => "dns"
  | .dnsTimeout => "dns-timeout"
  | .connect => "connect"
  | .connectTimeout => "connect-timeout"
  | .requestBodyTimeout => "request-body-timeout"
  | .headerTimeout => "header-timeout"
  | .bodyTimeout => "body-timeout"
  | .resetBeforeHead => "reset-before-head"
  | .protocol => "protocol"
  | .cancelled => "cancelled"
  | .downstreamTimeout => "downstream-timeout"
  | .downstreamProtocolCommitted => "downstream-protocol-committed"
  | .timeoutBeforeHead => "timeout-before-head"
  | .refused => "refused"

def proxyFailureStatus (failure : Failure) : Nat :=
  if failure ∈ [.dnsTimeout, .connectTimeout, .requestBodyTimeout, .headerTimeout, .bodyTimeout] then
    if failure = .requestBodyTimeout then 408 else 504
  else if failure ∈ [.overloaded, .noEndpoint] then 503
  else 502

structure RetryPolicy where
  attempts : Nat := 1
  methods : List Text := ["GET".toList, "HEAD".toList, "OPTIONS".toList]
  attempts_pos : 1 ≤ attempts := by decide

abbrev RetryPolicy.standard : RetryPolicy := {}

def RetryPolicy.allows (policy : RetryPolicy) (method : Text) (attempt : Nat) (responseCommitted : Bool)
    (failure : Failure) (requestReplayable : Bool) : Bool :=
  if !requestReplayable || responseCommitted || decide (policy.attempts ≤ attempt) then false
  else if upper method ∉ policy.methods then false
  else decide (failure ∈ [.dns, .dnsTimeout, .connect, .connectTimeout, .headerTimeout, .resetBeforeHead,
    .timeoutBeforeHead, .refused])

structure ProxySpec where
  stripPrefix : Text := []
  timeouts : ProxyTimeouts := .standard
  retry : RetryPolicy := .standard
  trustForwarded : Bool := false

/-- A routed request that still needs an upstream: the route's policy and the group's name. -/
structure ProxyPlan where
  upstream : Text
  spec : ProxySpec := {}

inductive ProxyStage where
  | connect
  | requestBody
  | header
  | body
  | done
  deriving DecidableEq, Repr

/-- One absolute stage deadline. -/
structure ProxyDeadline where
  timeouts : ProxyTimeouts := .standard
  stage : ProxyStage := .connect
  deadlineMs : Int := -1

namespace ProxyDeadline

def init (timeouts : ProxyTimeouts) (nowMs : Int) : ProxyDeadline :=
  { timeouts := timeouts, stage := .connect, deadlineMs := nowMs + timeouts.connectMs }

def connected (nowMs : Int) (deadline : ProxyDeadline) : ProxyDeadline :=
  { deadline with stage := .header, deadlineMs := nowMs + deadline.timeouts.headerMs }

def requestBody (deadlineMs : Int) (deadline : ProxyDeadline) : ProxyDeadline :=
  { deadline with stage := .requestBody, deadlineMs := deadlineMs }

def finish (deadline : ProxyDeadline) : ProxyDeadline := { deadline with stage := .done, deadlineMs := -1 }

def responseHead (nowMs : Int) (bodyExpected : Bool) (deadline : ProxyDeadline) : ProxyDeadline :=
  if bodyExpected then { deadline with stage := .body, deadlineMs := nowMs + deadline.timeouts.bodyMs }
  else deadline.finish

def bodyProgress (nowMs : Int) (deadline : ProxyDeadline) : ProxyDeadline :=
  if deadline.stage = .body then { deadline with deadlineMs := nowMs + deadline.timeouts.idleMs }
  else deadline

def failure (deadline : ProxyDeadline) : Failure :=
  match deadline.stage with
  | .connect => .connectTimeout
  | .requestBody => .requestBodyTimeout
  | .header => .headerTimeout
  | .body | .done => .bodyTimeout

end ProxyDeadline

/-- `_minimum_deadline`: a negative deadline is none. -/
def minimumDeadline (first second : Int) : Int :=
  if first < 0 then second else if second < 0 then first else if first < second then first else second

structure UpstreamEndpoint where
  host : Text
  port : Nat
  deriving DecidableEq

/-- `_proxy_authority`. -/
def proxyAuthority (endpoint : UpstreamEndpoint) : Text :=
  if endpoint.host.contains ':' ∧ endpoint.host.head? ≠ some '[' then
    '[' :: endpoint.host ++ "]:".toList ++ decimal endpoint.port
  else endpoint.host ++ ':' :: decimal endpoint.port

structure PooledUpstreamConnection where
  handle : Int
  endpoint : UpstreamEndpoint
  connected : Bool := false
  released : Bool := false
  deriving DecidableEq

inductive ReadOutcome where
  | progress (data : Bytes)
  | wouldBlock
  | eof
  | failed

inductive WriteOutcome where
  | progress (count : Int)
  | wouldBlock
  | failed

inductive ConnectOutcome where
  | connected
  | wouldBlock
  | failed
  deriving DecidableEq

inductive Interest where
  | read
  | write
  deriving DecidableEq

inductive TlsRead where
  | ok (data : Bytes)
  | want (interest : Interest)
  | closed
  | failed (name : String)

inductive TlsWrite where
  | ok (count : Int)
  | want (interest : Interest)
  | closed
  | failed (name : String)

/-- A handshake or close-notify step; `ok` carries the protocol that was selected. -/
inductive TlsStep where
  | ok (alpn : String)
  | selectSni
  | want (interest : Interest)
  | closed
  | failed (name : String)

inductive DnsStep where
  | complete (values : List Text)
  | error (code : String)
  | wait (deadlineMs : Int)
  | ignored (attemptDeadlineMs : Int)
  | progress

/-- What `app.dispatch` returned. -/
inductive Dispatched where
  | response (response : Response)
  | proxy (plan : ProxyPlan)
  | other

inductive ThreadOutcome where
  | pending
  | returned
  | raised
  | cancelled
  deriving DecidableEq

/-- What a response iterator yields. -/
inductive StreamChunk where
  | bytes (data : Bytes)
  | text (value : Text)
  | other

/-- Everything a connection's thread observes and does not decide: its transport and TLS channel, the
clock, the application and its handler children, hooks, the lifecycle and pool it shares with other
connections, and the resolver. The first argument is the number of observations made so far, so a
world answers every call of a run in its own way. -/
structure World where
  localBodyStreaming : Bool := false
  nowMs : Nat → Except Exn Int := fun _ => .ok 0
  read : Nat → Except Exn ReadOutcome := fun _ => .ok .wouldBlock
  write : Nat → Bytes → Except Exn WriteOutcome := fun _ _ => .ok .wouldBlock
  tlsRead : Nat → Except Exn TlsRead := fun _ => .ok .closed
  tlsWrite : Nat → Bytes → Except Exn TlsWrite := fun _ _ => .ok .closed
  tlsHandshake : Nat → Except Exn TlsStep := fun _ => .ok (.ok "")
  tlsCloseNotify : Nat → Except Exn TlsStep := fun _ => .ok .closed
  tlsClosable : Nat → Bool := fun _ => true
  wait : Nat → Except Exn Unit := fun _ => .ok ()
  close : Nat → Except Exn Unit := fun _ => .ok ()
  hook : Nat → Except Exn Unit := fun _ => .ok ()
  running : Nat → Bool := fun _ => true
  admitRequest : Nat → Bool := fun _ => true
  queueRequest : Nat → Bool := fun _ => true
  admitUpstream : Nat → Bool := fun _ => true
  othersBuffered : Nat → Nat := fun _ => 0
  dispatchProxyHead : Nat → Except Exn (Option ProxyPlan) := fun _ => .ok none
  dispatch : Nat → Except Exn Dispatched := fun _ => .ok .other
  spawn : Nat → Except Exn Unit := fun _ => .ok ()
  outcome : Nat → ThreadOutcome := fun _ => .pending
  join : Nat → Except Exn Dispatched := fun _ => .ok .other
  cancelThread : Nat → Except Exn Unit := fun _ => .ok ()
  childReads : Nat → Nat := fun _ => 0
  iterate : Nat → Except Exn Unit := fun _ => .ok ()
  nextChunk : Nat → Except Exn (Option StreamChunk) := fun _ => .ok none
  poolSaturated : Nat → Bool := fun _ => false
  poolReserve : Nat → Except Exn (Option PooledUpstreamConnection) := fun _ => .ok none
  poolRoom : Nat → Bool := fun _ => true
  numericAddress : Text → Option Text := fun _ => none
  beginDriver : Nat → Except Exn Unit := fun _ => .ok ()
  dnsStep : Nat → Except Exn DnsStep := fun _ => .ok .progress
  orderAddresses : Nat → Except Exn (List Text) := fun _ => .ok []
  openUpstream : Nat → Except Exn Int := fun _ => .ok (-1)
  connectObserve : Nat → Except Exn ConnectOutcome := fun _ => .ok .failed
  upstreamRead : Nat → Except Exn ReadOutcome := fun _ => .ok .wouldBlock
  upstreamWrite : Nat → Bytes → Except Exn WriteOutcome := fun _ _ => .ok .wouldBlock

/-- The shared counters that a connection holds a part of. -/
inductive Gauge where
  | request
  | queued
  | upstream
  deriving DecidableEq

/-- What a run has done: its reads, writes and queued bytes, what it leased, opened, closed and gave back,
which decoded events it handled or dropped, and where its proxy attempts read a request body, saw their
upstream close or swallowed an exception. Nothing reads the record. -/
inductive Entry where
  | clientRead (data : Bytes)
  | clientWrite (data : Bytes)
  | queued (data : Bytes)
  | upstreamRead (handle : Int) (data : Bytes)
  | upstreamWrite (handle : Int) (data : Bytes)
  | upstreamClosed (byEof : Bool)
  | leased (handle : Int)
  | returned
  | unleased
  | opened (handle : Int)
  | connectOver (handle : Int)
  | closed (handle : Int)
  | idle (handle : Int)
  | admitted (gauge : Gauge)
  | released (gauge : Gauge)
  | decoded (event : Event)
  | handled (event : Event)
  | dropped (event : Event)
  | chunkReleased (data : Bytes)
  | feedRaised
  | resolverError
  | attempt (number : Nat)
  | bodyPass (complete : Bool)
  | bodyRead (body : BodyStream)
  deriving DecidableEq

end PccGateway
