import PccGateway.Errors
import PccGateway.Lib.Thread

namespace PccGateway

structure Cancellation where
  deadlineMs : Int
  cancelled : Bool := false
  reason : String := ""
  deriving DecidableEq

def Cancellation.cancel (reason : String) (cancellation : Cancellation) : Cancellation :=
  { cancellation with cancelled := true, reason := reason }

/-- The body of one request, with the fields of its lock-protected state. Its two events follow from
these: a reader that has to wait has just cleared the data event. -/
structure BodyStream where
  maxBytes : Int
  lowWatermark : Int
  highWatermark : Int
  streaming : Bool
  chunks : List Bytes := []
  received : Nat := 0
  readIndex : Nat := 0
  consumedBytes : Nat := 0
  queuedBytes : Nat := 0
  backpressured : Bool := false
  ended : Bool := false
  cancelled : Bool := false
  closed : Bool := false
  deriving DecidableEq

namespace BodyStream

def init (maxBytes lowWatermark highWatermark : Int) (streaming : Bool) : Except Exn BodyStream :=
  if maxBytes < 0 then .error (.value "body size limit must be non-negative")
  else
    let high := if highWatermark ≤ 0 then (if 0 < maxBytes then maxBytes else 1) else highWatermark
    if lowWatermark < 0 then .error (.value "body low watermark must be non-negative")
    else if high ≤ lowWatermark then .error (.value "body low watermark must be below high watermark")
    else .ok {
      maxBytes := maxBytes, lowWatermark := lowWatermark, highWatermark := high, streaming := streaming }

/-- `feed`, with the backpressure flag it reports. -/
def feed (data : Bytes) : Method BodyStream Exn Bool := fun body =>
  if body.ended ∨ body.cancelled ∨ body.closed then
    (body, .error (.runtime "body stream is not accepting data"))
  else if body.maxBytes < (body.received + data.length : Nat) then
    (body, .error (.value "request body limit exceeded"))
  else if data = [] then (body, .ok body.backpressured)
  else
    let queued := body.queuedBytes + data.length
    let high := body.backpressured || decide (body.highWatermark ≤ (queued : Int))
    ({ body with
        chunks := body.chunks ++ [data]
        received := body.received + data.length
        queuedBytes := queued
        backpressured := high }, .ok high)

def finish (body : BodyStream) : BodyStream := { body with ended := true }

def cancel (body : BodyStream) : BodyStream :=
  { body with cancelled := true, chunks := [], readIndex := 0, queuedBytes := 0, backpressured := false }

def close (body : BodyStream) : BodyStream :=
  if body.closed then body
  else { body with closed := true, chunks := [], readIndex := 0, queuedBytes := 0, backpressured := false }

/-- The unread chunk at `read_index` is taken; the consumed prefix is dropped now and then. -/
def take (chunk : Bytes) (body : BodyStream) : BodyStream :=
  let index := body.readIndex + 1
  let queued := body.queuedBytes - chunk.length
  let compact : Bool := decide (64 ≤ index ∧ body.chunks.length ≤ index * 2)
  { body with
    chunks := if compact then body.chunks.drop index else body.chunks
    readIndex := if compact then 0 else index
    queuedBytes := queued
    consumedBytes := body.consumedBytes + chunk.length
    backpressured := body.backpressured && !decide ((queued : Int) ≤ body.lowWatermark) }

/-- `read_chunk`. The thread that waits here waits for `feed`, `finish`, `cancel` or `close`. -/
def readChunk : Thread BodyStream Exn (Option Bytes) := fun body =>
  if body.cancelled then (body, .error (.raised (.runtime "request body was cancelled")))
  else
    match body.chunks[body.readIndex]? with
    | some chunk => (body.take chunk, .ok (some chunk))
    | none =>
      if body.ended ∨ body.closed then (body, .ok none)
      else if body.streaming = false then (body, .ok (some []))
      else (body, .error .parked)

def producerFinished (body : BodyStream) : Bool := body.ended || body.cancelled || body.closed

/-- `read_chunk` returns or raises at once: there is an unread chunk, or none will come, or the
stream polls. -/
def Ready (body : BodyStream) : Prop :=
  body.readIndex < body.chunks.length ∨ body.ended = true ∨ body.cancelled = true ∨ body.closed = true ∨
    body.streaming = false

instance : DecidablePred Ready := fun body => by
  unfold Ready
  infer_instance

end BodyStream
end PccGateway
