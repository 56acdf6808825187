import PccGateway.BufferRefinement
import PccGateway.Server.BodyStream

namespace PccGateway

/-- A chunk as a body stream gets and keeps it: bytes, or a view, which is named by its place in the
heap. -/
inductive BodyChunk where
  | bytes (data : Bytes)
  | view (id : Nat)
  deriving DecidableEq

namespace BodyChunk

/-- `len(chunk)`. -/
def length (heap : Heap) : BodyChunk → Nat
  | .bytes data => data.length
  | .view id => heap.viewLength id

/-- The view that has to be released for a chunk. -/
def viewed : BodyChunk → Option Nat
  | .bytes _ => none
  | .view id => some id

/-- What a reader would get. A released view has no bytes. -/
def content (heap : Heap) : BodyChunk → Bytes
  | .bytes data => data
  | .view id => (heap.toBytes id).toOption.getD []

/-- `data.slice()` for a view, and the data itself otherwise. -/
def retained : BodyChunk → Heap.Call BodyChunk
  | .bytes data => pure (.bytes data)
  | .view id => do
    let slice ← Heap.slice id
    return .view slice

/-- `if isinstance(chunk, BufferView) and not chunk.released: chunk.release()`. -/
def drop : BodyChunk → Heap.Call Unit
  | .bytes _ => pure ()
  | .view id => do
    let heap ← Method.get
    if heap.views[id]?.any BufferView.released then return ()
    else let _ ← Heap.releaseView id

/-- What `read_chunk` does with a chunk after the lock: `to_bytes` and `release` for a view. -/
def handOver : BodyChunk → Heap.Call Bytes
  | .bytes data => pure data
  | .view id => do
    let heap ← Method.get
    let result ← Method.lift (heap.toBytes id)
    let _ ← Heap.releaseView id
    return result

end BodyChunk

/-- The state of a body stream behind its lock, with the chunks as they are retained. -/
structure RetainedBody where
  heap : Heap
  maxBytes : Int
  lowWatermark : Int
  highWatermark : Int
  streaming : Bool
  chunks : List BodyChunk := []
  received : Nat := 0
  readIndex : Nat := 0
  consumedBytes : Nat := 0
  queuedBytes : Nat := 0
  backpressured : Bool := false
  ended : Bool := false
  cancelled : Bool := false
  closed : Bool := false

namespace RetainedBody

def init (heap : Heap) (maxBytes lowWatermark highWatermark : Int) (streaming : Bool) :
    Except Exn RetainedBody :=
  if maxBytes < 0 then .error (.value "body size limit must be non-negative")
  else
    let high := if highWatermark ≤ 0 then (if 0 < maxBytes then maxBytes else 1) else highWatermark
    if lowWatermark < 0 then .error (.value "body low watermark must be non-negative")
    else if high ≤ lowWatermark then .error (.value "body low watermark must be below high watermark")
    else .ok {
      heap := heap, maxBytes := maxBytes, lowWatermark := lowWatermark, highWatermark := high,
      streaming := streaming }

/-- `read_chunk` will return these, in this order. -/
def unread (body : RetainedBody) : List BodyChunk := body.chunks.drop body.readIndex

def isOver (body : RetainedBody) : Bool := body.ended || body.cancelled || body.closed

/-- A chunk of `length` bytes is appended. -/
def push (chunk : BodyChunk) (length : Nat) (body : RetainedBody) : RetainedBody :=
  { body with
    chunks := body.chunks ++ [chunk]
    received := body.received + length
    queuedBytes := body.queuedBytes + length
    backpressured := body.backpressured || decide (body.highWatermark ≤ (body.queuedBytes + length : Nat)) }

/-- The locked section of `feed`: whether the chunk was accepted. -/
def feedLocked (data : BodyChunk) : Method RetainedBody Exn Bool := fun body =>
  let length := data.length body.heap
  if body.isOver then (body, .error (.runtime "body stream is not accepting data"))
  else if body.maxBytes < (body.received + length : Nat) then
    (body, .error (.value "request body limit exceeded"))
  else if length = 0 then (body, .ok false)
  else
    match data.retained body.heap with
    | (heap, .error error) => ({ body with heap := heap }, .error error)
    | (heap, .ok chunk) => ({ body with heap := heap }.push chunk length, .ok true)

def finishLocked (body : RetainedBody) : RetainedBody := { body with ended := true }

/-- The queue is given up; the reader finds nothing any more. -/
def emptied (body : RetainedBody) : RetainedBody :=
  { body with chunks := [], readIndex := 0, queuedBytes := 0, backpressured := false }

/-- The locked section of `cancel`, with the chunks it will release. -/
def cancelLocked (body : RetainedBody) : RetainedBody × List BodyChunk :=
  ({ body.emptied with cancelled := true }, body.chunks)

/-- The locked section of `close`, with the chunks it will release. A second `close` returns at once. -/
def closeLocked (body : RetainedBody) : Option (RetainedBody × List BodyChunk) :=
  if body.closed then none else some ({ body.emptied with closed := true }, body.unread)

/-- What a pass of `read_chunk` finds while it holds the lock. -/
inductive Turn where
  | cancelled
  | taken (chunk : BodyChunk) (wakeSpace : Bool)
  | isOver
  | polled
  | wait

/-- The unread chunk at `read_index` is taken; the consumed prefix is dropped now and then. -/
def take (chunk : BodyChunk) (body : RetainedBody) : RetainedBody :=
  let index := body.readIndex + 1
  let queued := body.queuedBytes - chunk.length body.heap
  let compact : Bool := decide (64 ≤ index ∧ body.chunks.length ≤ index * 2)
  { body with
    chunks := if compact then body.chunks.drop index else body.chunks
    readIndex := if compact then 0 else index
    queuedBytes := queued
    consumedBytes := body.consumedBytes + chunk.length body.heap
    backpressured := body.backpressured && !decide ((queued : Int) ≤ body.lowWatermark) }

/-- The locked section of a pass of `read_chunk`. -/
def readLocked (body : RetainedBody) : RetainedBody × Turn :=
  if body.cancelled then (body, .cancelled)
  else
    match body.chunks[body.readIndex]? with
    | some chunk => (body.take chunk, .taken chunk (body.backpressured && !(body.take chunk).backpressured))
    | none =>
      if body.ended ∨ body.closed then (body, .isOver)
      else if body.streaming = false then (body, .polled)
      else (body, .wait)

end RetainedBody
end PccGateway
