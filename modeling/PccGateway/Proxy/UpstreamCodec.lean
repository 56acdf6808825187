import PccGateway.Http1.ServerFeed
import PccGateway.Proxy.Headers

namespace PccGateway
open Incremental

structure UpstreamResponseHead where
  status : Nat
  reason : Text
  version : Version
  headers : List Header
  contentLength : Int
  chunked : Bool
  keepAlive : Bool
  informational : Bool
  bodyExpected : Bool
  deriving DecidableEq, Repr

inductive UpstreamEvent where
  | responseHead (head : UpstreamResponseHead)
  | responseBody (data : Bytes)
  | responseEnd (trailers : List Header)
  deriving DecidableEq, Repr

inductive UpstreamState where
  | head
  | finalEmpty
  | fixedBody
  | chunkSize
  | chunkData
  | chunkCrlf
  | trailers
  | untilEof
  | complete
  deriving DecidableEq, Repr

structure UpstreamLimits extends BodyLimits where
  headerBytes_pos : 0 < maxHeaderBytes := by decide
  headerCount_pos : 0 < maxHeaderCount := by decide

theorem UpstreamLimits.toBodyLimits_inj {first second : UpstreamLimits} :
    first.toBodyLimits = second.toBodyLimits ↔ first = second := by
  constructor
  · intro same
    cases first
    cases second
    cases same
    rfl
  · exact congrArg _

instance : DecidableEq UpstreamLimits := fun _ _ => decidable_of_iff _ UpstreamLimits.toBodyLimits_inj

/-- The codec's fields. `requestMethod` is upper case: the constructor makes it so. -/
structure Http1UpstreamCodec where
  requestMethod : Text
  limits : UpstreamLimits
  buffer : Bytes := []
  state : UpstreamState := .head
  remaining : Nat := 0
  bodyReceived : Nat := 0
  complete : Bool := false
  closed : Bool := false
  deriving DecidableEq

/-- `line.split(b" ", 2)`. -/
def splitStatusLine (line : Bytes) : List Bytes :=
  match line.dropWhile (· != 32) with
  | [] => [line]
  | _ :: rest =>
    match rest.dropWhile (· != 32) with
    | [] => [line.takeWhile (· != 32), rest]
    | _ :: reason => [line.takeWhile (· != 32), rest.takeWhile (· != 32), reason]

/-- The status-line part of `_parse_head`: version, status and reason phrase. -/
def parseStatusLine (line : Bytes) : Except Exn (Version × Nat × Bytes) :=
  if line = [] then raiseProxy "empty-status-line" "empty upstream status line"
  else
    match splitStatusLine line with
    | versionBytes :: statusBytes :: more =>
      let reasonBytes := more.headD []
      if versionBytes ≠ ascii "HTTP/1.0" ∧ versionBytes ≠ ascii "HTTP/1.1" then
        raiseProxy "bad-version" "unsupported upstream HTTP version"
      else if statusBytes.length ≠ 3 then raiseProxy "bad-status" "upstream status must be three digits"
      else if statusBytes.any (fun value => value < 48 || 57 < value) then
        raiseProxy "bad-status" "upstream status is not decimal"
      else if containsBadValueByte reasonBytes then raiseProxy "bad-reason" "unsafe upstream reason phrase"
      else
        let status := statusBytes.foldl (fun total digit => total * 10 + (digit.toNat - 48)) 0
        if status < 100 ∨ 999 < status then raiseProxy "bad-status" "upstream status is out of range"
        else .ok (if versionBytes = ascii "HTTP/1.1" then .http11 else .http10, status, reasonBytes)
    | _ => raiseProxy "bad-status-line" "invalid upstream status line"

/-- `raise ProxyProtocolError(code, str(error)) from error` around a parser of the server codec. -/
def asProxyError {α : Type} (code : Http1Error → String) : Except Exn α → Except Exn α
  | .error (.http1 error) => raiseProxy (code error) error.message
  | result => result

def responseContentLength (maxBodyBytes : Int) (headers : List Header) : Except Exn Int :=
  match fieldValues headers "content-length" with
  | [] => .ok (-1)
  | [raw] =>
    if raw.contains ',' ∨ raw = [] then raiseProxy "ambiguous-length" "ambiguous upstream length"
    else if raw.any (fun character => character < '0' || '9' < character) then
      raiseProxy "bad-length" "invalid upstream length"
    else do
      let length ← parseDecimal raw
      if (length : Int) > maxBodyBytes then raiseProxy "body-too-large" "upstream body limit exceeded"
      else return length
  | _ => raiseProxy "ambiguous-length" "ambiguous upstream length"

def responseChunked (contentLength : Int) (headers : List Header) : Except Exn Bool :=
  if ¬ hasField headers "transfer-encoding" then .ok false
  else if 0 ≤ contentLength then
    raiseProxy "ambiguous-framing" "upstream sent both Transfer-Encoding and Content-Length"
  else if fieldTokens headers "transfer-encoding" ≠ ["chunked".toList] then
    raiseProxy "unsupported-transfer-coding" "only final chunked upstream coding is supported"
  else .ok true

/-- `_parse_head` up to the event; EOF framing turns keep-alive off. -/
def parseResponseHead (requestMethod : Text) (limits : BodyLimits) (block : Bytes) :
    Except Exn UpstreamResponseHead := do
  let lines := splitCrlf block
  let (version, status, reason) ← parseStatusLine (lines.headD [])
  let headers ← asProxyError (fun _ => "bad-header") (parseHeaders lines.tail limits.maxHeaderCount)
  let contentLength ← responseContentLength limits.maxBodyBytes headers
  let chunked ← responseChunked contentLength headers
  let informational := 100 ≤ status ∧ status < 200
  if status = 101 then raiseProxy "upgrade-rejected" "HTTP upgrade is not supported"
  else
    let bodyExpected := ¬ (requestMethod = "HEAD".toList ∨ informational ∨ status = 204 ∨ status = 304)
    let untilEof := bodyExpected ∧ ¬ chunked ∧ contentLength < 0
    return {
      status := status
      reason := latin1Text reason
      version := version
      headers := headers
      contentLength := contentLength
      chunked := chunked
      keepAlive := if untilEof then false else connectionKeepAlive version headers
      informational := informational
      bodyExpected := bodyExpected }

namespace Http1UpstreamCodec

def failTurn (codec : Http1UpstreamCodec) (code message : String) :
    Turn Http1UpstreamCodec Exn UpstreamEvent :=
  .fail (.proxyProtocol code message) codec

/-- `_finish`, then the check that no byte is left behind the response. -/
def finishTurn (codec : Http1UpstreamCodec) (events : List UpstreamEvent) (trailers : List Header) :
    Turn Http1UpstreamCodec Exn UpstreamEvent :=
  let finished := { codec with state := .complete, complete := true }
  if codec.buffer ≠ [] then finished.failTurn "pipelined-response" "unexpected response bytes"
  else .emit finished (events ++ [.responseEnd trailers]) true

/-- The state that `_parse_head` leaves. -/
def enterBody (codec : Http1UpstreamCodec) (head : UpstreamResponseHead) : Http1UpstreamCodec :=
  if head.informational then { codec with state := .head }
  else if head.bodyExpected = false ∨ head.contentLength = 0 then { codec with state := .finalEmpty }
  else if head.chunked then { codec with state := .chunkSize }
  else if 0 ≤ head.contentLength then
    { codec with state := .fixedBody, remaining := head.contentLength.toNat }
  else { codec with state := .untilEof }

def headTurn (codec : Http1UpstreamCodec) : Turn Http1UpstreamCodec Exn UpstreamEvent :=
  match findDoubleCrlf codec.buffer with
  | none =>
    if (codec.buffer.length : Int) > codec.limits.maxHeaderBytes then
      codec.failTurn "headers-too-large" "upstream headers exceed limit"
    else .wait
  | some marker =>
    if ((marker + 4 : Nat) : Int) > codec.limits.maxHeaderBytes then
      codec.failTurn "headers-too-large" "upstream headers exceed limit"
    else
      let taken := { codec with buffer := codec.buffer.drop (marker + 4) }
      match parseResponseHead codec.requestMethod codec.limits.toBodyLimits (codec.buffer.take marker) with
      | .error error => .fail error taken
      | .ok head =>
        let next := taken.enterBody head
        if next.state = .finalEmpty then next.finishTurn [.responseHead head] []
        else .emit next [.responseHead head] false

def fixedBodyTurn (codec : Http1UpstreamCodec) : Turn Http1UpstreamCodec Exn UpstreamEvent :=
  if codec.buffer = [] then .wait
  else
    let take := min codec.remaining codec.buffer.length
    let chunk := codec.buffer.take take
    let next := { codec with
      buffer := codec.buffer.drop take
      remaining := codec.remaining - take
      bodyReceived := codec.bodyReceived + take }
    let events := if chunk = [] then [] else [.responseBody chunk]
    if next.remaining = 0 then next.finishTurn events []
    else .emit next events false

def chunkSizeTurn (codec : Http1UpstreamCodec) : Turn Http1UpstreamCodec Exn UpstreamEvent :=
  match findCrlf codec.buffer with
  | none =>
    if 128 < codec.buffer.length then
      codec.failTurn "chunk-line-too-long" "upstream chunk line exceeds limit"
    else .wait
  | some marker =>
    if 128 < marker then codec.failTurn "chunk-line-too-long" "upstream chunk line exceeds limit"
    else
      let taken := { codec with buffer := codec.buffer.drop (marker + 2) }
      match asProxyError Http1Error.code (parseChunkSizeLine (codec.buffer.take marker)) with
      | .error error => .fail error taken
      | .ok size =>
        if (size : Int) > codec.limits.maxChunkBytes then
          taken.failTurn "chunk-too-large" "upstream chunk limit exceeded"
        else if ((codec.bodyReceived + size : Nat) : Int) > codec.limits.maxBodyBytes then
          taken.failTurn "body-too-large" "upstream body limit exceeded"
        else if size = 0 then .emit { taken with state := .trailers } [] false
        else .emit { taken with state := .chunkData, remaining := size } [] false

def chunkDataTurn (codec : Http1UpstreamCodec) : Turn Http1UpstreamCodec Exn UpstreamEvent :=
  if codec.buffer = [] then .wait
  else
    let take := min codec.remaining codec.buffer.length
    let chunk := codec.buffer.take take
    let next := { codec with
      buffer := codec.buffer.drop take
      remaining := codec.remaining - take
      bodyReceived := codec.bodyReceived + take }
    let events := if chunk = [] then [] else [.responseBody chunk]
    if next.remaining = 0 then .emit { next with state := .chunkCrlf } events false
    else .emit next events false

def chunkCrlfTurn (codec : Http1UpstreamCodec) : Turn Http1UpstreamCodec Exn UpstreamEvent :=
  if codec.buffer.length < 2 then .wait
  else if codec.buffer.take 2 ≠ crlf then codec.failTurn "bad-chunk-ending" "invalid upstream chunk ending"
  else .emit { codec with buffer := codec.buffer.drop 2, state := .chunkSize } [] false

/-- The fields that an upstream's trailers may not carry. -/
def forbiddenTrailers : List String := ["content-length", "transfer-encoding"]

def trailersTurn (codec : Http1UpstreamCodec) : Turn Http1UpstreamCodec Exn UpstreamEvent :=
  if crlf <+: codec.buffer then
    finishTurn { codec with buffer := codec.buffer.drop 2 } [] []
  else
    match findDoubleCrlf codec.buffer with
    | none =>
      if (codec.buffer.length : Int) > codec.limits.maxHeaderBytes then
        codec.failTurn "trailers-too-large" "upstream trailers exceed limit"
      else .wait
    | some marker =>
      if ((marker + 4 : Nat) : Int) > codec.limits.maxHeaderBytes then
        codec.failTurn "trailers-too-large" "upstream trailers exceed limit"
      else
        let taken := { codec with buffer := codec.buffer.drop (marker + 4) }
        match asProxyError (fun _ => "bad-trailer")
            (parseHeaders (splitCrlf (codec.buffer.take marker)) codec.limits.maxHeaderCount) with
        | .error error => .fail error taken
        | .ok trailers =>
          if forbiddenTrailers.any (hasField trailers) then
            taken.failTurn "bad-trailer" "framing field in upstream trailer"
          else taken.finishTurn [] (sanitizeHopByHop trailers)

def untilEofTurn (codec : Http1UpstreamCodec) : Turn Http1UpstreamCodec Exn UpstreamEvent :=
  if codec.buffer = [] then .wait
  else
    let received := { codec with bodyReceived := codec.bodyReceived + codec.buffer.length }
    if (received.bodyReceived : Int) > codec.limits.maxBodyBytes then
      received.failTurn "body-too-large" "upstream body limit exceeded"
    else .emit { received with buffer := [] } [.responseBody codec.buffer] false

/-- One pass of the `while True` loop of `feed`. -/
def turn (codec : Http1UpstreamCodec) : Turn Http1UpstreamCodec Exn UpstreamEvent :=
  match codec.state with
  | .head => codec.headTurn
  | .finalEmpty => codec.failTurn "codec-state" "unknown upstream codec state"
  | .fixedBody => codec.fixedBodyTurn
  | .chunkSize => codec.chunkSizeTurn
  | .chunkData => codec.chunkDataTurn
  | .chunkCrlf => codec.chunkCrlfTurn
  | .trailers => codec.trailersTurn
  | .untilEof => codec.untilEofTurn
  | .complete => .wait

def push (codec : Http1UpstreamCodec) (data : Bytes) : Http1UpstreamCodec :=
  { codec with buffer := codec.buffer ++ data }

/-- Every turn consumes input, except that exhausted chunk data only changes the state. -/
def size (codec : Http1UpstreamCodec) : Nat :=
  2 * codec.buffer.length + if codec.state = .chunkData then 1 else 0

end Http1UpstreamCodec
end PccGateway
