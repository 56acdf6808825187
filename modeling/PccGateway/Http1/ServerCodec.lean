import PccGateway.Http1.Lexical
import PccGateway.Lib.Incremental

namespace PccGateway
open Incremental

inductive Version where
  | http10
  | http11
  deriving DecidableEq, Repr

structure RequestHead where
  method : Text
  target : Text
  version : Version
  headers : List Header
  keepAlive : Bool
  expectContinue : Bool
  contentLength : Int := 0
  chunked : Bool := false
  deriving DecidableEq, Repr

/-- The decoder's events. A body chunk is its bytes; who holds the view over them is not part of the
codec. -/
inductive Event where
  | requestHead (head : RequestHead)
  | bodyChunk (data : Bytes)
  | requestEnd (trailers : List Header)
  deriving DecidableEq, Repr

def Event.isEnd : Event → Bool
  | .requestEnd _ => true
  | _ => false

inductive CodecState where
  | head
  | fixedBody
  | chunkSize
  | chunkData
  | trailers
  deriving DecidableEq, Repr

/-- The limits that both codecs have. -/
structure BodyLimits where
  maxHeaderBytes : Int := 32768
  maxHeaderCount : Int := 100
  maxBodyBytes : Int := 16777216
  maxChunkBytes : Int := 1048576
  deriving DecidableEq, Repr

/-- The limits a server codec is built with. The constructor insists on two of them only. -/
structure CodecLimits extends BodyLimits where
  maxRequestLine : Int := 8192
  requestLine_pos : 0 < maxRequestLine := by decide
  headerBytes_pos : 0 < maxHeaderBytes := by decide
  deriving DecidableEq

structure Http1ServerCodec where
  limits : CodecLimits
  buffer : Bytes := []
  state : CodecState := .head
  remaining : Nat := 0
  bodyReceived : Nat := 0
  closed : Bool := false
  deriving DecidableEq

/-- `int(text)` of a run of decimal digits. CPython refuses more than 4300 of them. -/
def parseDecimal (digits : Text) : Except Exn Nat :=
  if 4300 < digits.length then .error (.value "Exceeds the limit for integer string conversion")
  else .ok (digits.foldl (fun total digit => total * 10 + (digit.toNat - 48)) 0)

/-- The request-line part of `_parse_head`. -/
def parseRequestLine (maxRequestLine : Int) (line : Bytes) : Except Exn (Bytes × Bytes × Version) :=
  if line = [] then raiseHttp1 400 "empty-request-line" "request line is empty"
  else if (line.length : Int) > maxRequestLine then
    raiseHttp1 414 "request-line-too-long" "request line limit exceeded"
  else if line.contains 9 then raiseHttp1 400 "bad-request-line" "invalid request-line spacing"
  else
    match line.splitOn 32 with
    | [method, target, version] =>
      if !isToken method then raiseHttp1 400 "bad-method" "invalid HTTP method"
      else if target = [] then raiseHttp1 400 "bad-target" "empty request target"
      else if target.head? ≠ some 47 then
        raiseHttp1 400 "unsupported-target-form" "gateway requires an origin-form request target"
      else if target.any (fun value => value ≤ 32 || value == 127) then
        raiseHttp1 400 "bad-target" "invalid request target byte"
      else if version = ascii "HTTP/1.1" then .ok (method, target, .http11)
      else if version = ascii "HTTP/1.0" then .ok (method, target, .http10)
      else raiseHttp1 505 "bad-version" "unsupported HTTP version"
    | _ => raiseHttp1 400 "bad-request-line" "invalid request-line spacing"

def checkHost (version : Version) (headers : List Header) : Except Exn Unit :=
  if version = .http11 ∧ ¬ hasField headers "host" then
    raiseHttp1 400 "missing-host" "HTTP/1.1 requires Host"
  else if hasField headers "host" ∧ (fieldValues headers "host").length ≠ 1 then
    raiseHttp1 400 "duplicate-host" "multiple Host fields rejected"
  else .ok ()

/-- The `Content-Length` part of `_parse_head`; `-1` when the field is absent. -/
def requestContentLength (maxBodyBytes : Int) (headers : List Header) : Except Exn Int :=
  match fieldValues headers "content-length" with
  | [] => .ok (-1)
  | [raw] =>
    if raw.contains ',' then raiseHttp1 400 "ambiguous-length" "multiple Content-Length values rejected"
    else if raw = [] then raiseHttp1 400 "bad-content-length" "empty Content-Length"
    else if raw.any (fun char => char < '0' || '9' < char) then
      raiseHttp1 400 "bad-content-length" "non-decimal Content-Length"
    else do
      let length ← parseDecimal raw
      if (length : Int) > maxBodyBytes then raiseHttp1 413 "body-too-large" "request body limit exceeded"
      else return length
  | _ => raiseHttp1 400 "ambiguous-length" "multiple Content-Length values rejected"

def requestChunked (contentLength : Int) (headers : List Header) : Except Exn Bool :=
  if ¬ hasField headers "transfer-encoding" then .ok false
  else if 0 ≤ contentLength then
    raiseHttp1 400 "ambiguous-framing" "Transfer-Encoding with Content-Length rejected"
  else if fieldTokens headers "transfer-encoding" ≠ ["chunked".toList] then
    raiseHttp1 501 "unsupported-transfer-coding" "only a final chunked coding is supported"
  else .ok true

/-- The `Connection` part of both `_parse_head` functions. -/
def connectionKeepAlive (version : Version) (headers : List Header) : Bool :=
  let tokens := fieldTokens headers "connection"
  if tokens.contains "close".toList then false
  else if version = .http10 ∧ tokens.contains "keep-alive".toList then true
  else version = .http11

def requestExpectContinue (headers : List Header) : Except Exn Bool :=
  if ¬ hasField headers "expect" then .ok false
  else if fieldTokens headers "expect" ≠ ["100-continue".toList] then
    raiseHttp1 417 "unsupported-expectation" "unsupported Expect value"
  else .ok true

/-- `_parse_head` up to the event it returns. -/
def parseRequestHead (limits : CodecLimits) (block : Bytes) : Except Exn RequestHead := do
  let lines := splitCrlf block
  let (method, target, version) ← parseRequestLine limits.maxRequestLine (lines.headD [])
  let headers ← parseHeaders lines.tail limits.maxHeaderCount
  checkHost version headers
  let contentLength ← requestContentLength limits.maxBodyBytes headers
  let chunked ← requestChunked contentLength headers
  let expectContinue ← requestExpectContinue headers
  return {
    method := latin1Text method
    target := latin1Text target
    version := version
    headers := headers
    keepAlive := connectionKeepAlive version headers
    expectContinue := expectContinue
    contentLength := if chunked ∨ 0 ≤ contentLength then contentLength else 0
    chunked := chunked }

namespace Http1ServerCodec

def resetMessage (codec : Http1ServerCodec) : Http1ServerCodec :=
  { codec with state := .head, remaining := 0, bodyReceived := 0 }

/-- The end of `_parse_head`: the state in which the body is read, and whether there is one. -/
def enterBody (codec : Http1ServerCodec) (head : RequestHead) : Http1ServerCodec × Bool :=
  if head.chunked then ({ codec with state := .chunkSize }, true)
  else if 0 < head.contentLength then
    ({ codec with state := .fixedBody, remaining := head.contentLength.toNat }, true)
  else (codec.resetMessage, false)

def parseHead (codec : Http1ServerCodec) (block : Bytes) :
    Except Exn (Http1ServerCodec × RequestHead × Bool) := do
  let head ← parseRequestHead codec.limits block
  let (next, hasBody) := codec.enterBody head
  return (next, head, hasBody)

def failTurn (codec : Http1ServerCodec) (status : Nat) (code message : String) :
    Turn Http1ServerCodec Exn Event :=
  .fail (.http1 ⟨status, code, message⟩) codec

def headTurn (codec : Http1ServerCodec) : Turn Http1ServerCodec Exn Event :=
  match findDoubleCrlf codec.buffer with
  | none =>
    if (codec.buffer.length : Int) > codec.limits.maxHeaderBytes then
      codec.failTurn 431 "headers-too-large" "header byte limit exceeded"
    else if findCrlf codec.buffer = none ∧ (codec.buffer.length : Int) > codec.limits.maxRequestLine then
      codec.failTurn 414 "request-line-too-long" "request line limit exceeded"
    else .wait
  | some marker =>
    if ((marker + 4 : Nat) : Int) > codec.limits.maxHeaderBytes then
      codec.failTurn 431 "headers-too-large" "header byte limit exceeded"
    else
      let taken := { codec with buffer := codec.buffer.drop (marker + 4) }
      match taken.parseHead (codec.buffer.take marker) with
      | .error error => .fail error taken
      | .ok (next, head, true) => .emit next [.requestHead head] false
      | .ok (next, head, false) => .emit next [.requestHead head, .requestEnd []] true

def fixedBodyTurn (codec : Http1ServerCodec) : Turn Http1ServerCodec Exn Event :=
  if codec.buffer = [] then .wait
  else
    let take := min codec.remaining codec.buffer.length
    let next := { codec with
      buffer := codec.buffer.drop take
      remaining := codec.remaining - take
      bodyReceived := codec.bodyReceived + take }
    let events := if 0 < take then [.bodyChunk (codec.buffer.take take)] else []
    if next.remaining = 0 then .emit next.resetMessage (events ++ [.requestEnd []]) true
    else .emit next events false

def chunkSizeTurn (codec : Http1ServerCodec) : Turn Http1ServerCodec Exn Event :=
  match findCrlf codec.buffer with
  | none =>
    if 128 < codec.buffer.length then
      codec.failTurn 400 "chunk-line-too-long" "chunk-size line limit exceeded"
    else .wait
  | some marker =>
    if 128 < marker then codec.failTurn 400 "chunk-line-too-long" "chunk-size line limit exceeded"
    else
      let taken := { codec with buffer := codec.buffer.drop (marker + 2) }
      match parseChunkSizeLine (codec.buffer.take marker) with
      | .error error => .fail error taken
      | .ok size =>
        if (size : Int) > codec.limits.maxChunkBytes then
          taken.failTurn 413 "chunk-too-large" "chunk size limit exceeded"
        else if ((codec.bodyReceived + size : Nat) : Int) > codec.limits.maxBodyBytes then
          taken.failTurn 413 "body-too-large" "request body limit exceeded"
        else if size = 0 then .emit { taken with state := .trailers } [] false
        else .emit { taken with state := .chunkData, remaining := size } [] false

def chunkDataTurn (codec : Http1ServerCodec) : Turn Http1ServerCodec Exn Event :=
  if codec.buffer.length < codec.remaining + 2 then .wait
  else if (codec.buffer.drop codec.remaining).take 2 ≠ crlf then
    codec.failTurn 400 "bad-chunk-ending" "chunk data missing CRLF"
  else
    .emit { codec with
      buffer := codec.buffer.drop (codec.remaining + 2)
      bodyReceived := codec.bodyReceived + codec.remaining
      remaining := 0
      state := .chunkSize } [.bodyChunk (codec.buffer.take codec.remaining)] false

/-- The fields that a request's trailers may not carry. -/
def forbiddenTrailers : List String := ["content-length", "transfer-encoding", "host"]

def trailersTurn (codec : Http1ServerCodec) : Turn Http1ServerCodec Exn Event :=
  if crlf <+: codec.buffer then
    .emit (resetMessage { codec with buffer := codec.buffer.drop 2 }) [.requestEnd []] true
  else
    match findDoubleCrlf codec.buffer with
    | none =>
      if (codec.buffer.length : Int) > codec.limits.maxHeaderBytes then
        codec.failTurn 431 "trailers-too-large" "trailer byte limit exceeded"
      else .wait
    | some marker =>
      if ((marker + 4 : Nat) : Int) > codec.limits.maxHeaderBytes then
        codec.failTurn 431 "trailers-too-large" "trailer byte limit exceeded"
      else
        let taken := { codec with buffer := codec.buffer.drop (marker + 4) }
        match parseHeaders (splitCrlf (codec.buffer.take marker)) codec.limits.maxHeaderCount with
        | .error error => .fail error taken
        | .ok trailers =>
          if forbiddenTrailers.any (hasField trailers) then
            taken.failTurn 400 "forbidden-trailer" "framing or routing field in trailers"
          else .emit taken.resetMessage [.requestEnd trailers] true

/-- One pass of the `while True` loop of `_feed_pending`. -/
def turn (codec : Http1ServerCodec) : Turn Http1ServerCodec Exn Event :=
  match codec.state with
  | .head => codec.headTurn
  | .fixedBody => codec.fixedBodyTurn
  | .chunkSize => codec.chunkSizeTurn
  | .chunkData => codec.chunkDataTurn
  | .trailers => codec.trailersTurn

def push (codec : Http1ServerCodec) (data : Bytes) : Http1ServerCodec :=
  { codec with buffer := codec.buffer ++ data }

/-- Every turn consumes input, except that an exhausted fixed body only changes the state. -/
def size (codec : Http1ServerCodec) : Nat :=
  2 * codec.buffer.length + if codec.state = .fixedBody then 1 else 0

end Http1ServerCodec
end PccGateway
