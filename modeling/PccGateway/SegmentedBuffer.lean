import PccGateway.Buffer
import PccGateway.Lib.Fifo
import PccGateway.Ownership

namespace PccGateway

/-- A channel buffer with the heap that its views live in. `ChannelBuffer` is the same with the bytes
of the views. -/
structure SegmentedBuffer where
  heap : Heap
  segmentSize : Nat
  lowWatermark : Nat
  highWatermark : Nat
  maxBytes : Nat
  views : List Nat := []
  head : Nat := 0
  headOffset : Nat := 0
  queuedBytes : Nat := 0
  backpressured : Bool := false
  closed : Bool := false

namespace SegmentedBuffer

abbrev Call (α : Type) : Type := Method SegmentedBuffer Exn α

def onHeap {α : Type} (call : Heap.Call α) : Call α :=
  Method.on (·.heap) (fun heap buffer => { buffer with heap := heap }) call

def init (heap : Heap) (segmentSize lowWatermark highWatermark maxBytes : Int) :
    Except Exn SegmentedBuffer :=
  if segmentSize ≤ 0 then .error (.value "segment size must be positive")
  else if lowWatermark < 0 ∨ highWatermark ≤ lowWatermark then
    .error (.value "watermarks must satisfy 0 <= low < high")
  else if maxBytes < highWatermark then .error (.value "max bytes must cover the high watermark")
  else .ok {
    heap := heap
    segmentSize := segmentSize.toNat
    lowWatermark := lowWatermark.toNat
    highWatermark := highWatermark.toNat
    maxBytes := maxBytes.toNat }

def transitionAfterGrowth : Call Transition := fun buffer =>
  if buffer.backpressured = false ∧ buffer.highWatermark ≤ buffer.queuedBytes then
    ({ buffer with backpressured := true }, .ok .high)
  else (buffer, .ok .none)

def transitionAfterDrain : Call Transition := fun buffer =>
  if buffer.backpressured = true ∧ buffer.queuedBytes ≤ buffer.lowWatermark then
    ({ buffer with backpressured := false }, .ok .low)
  else (buffer, .ok .none)

/-- One pass of the loop of `append`: a new segment, and the view that alone holds it. -/
def storeSegment (source : Bytes) (offset capacity remaining : Nat) : Heap.Call (Nat × Nat) := do
  let segment ← Heap.newSegment capacity
  let written ← Heap.onSegment segment (BufferSegment.write source offset remaining)
  let view ← Heap.view segment 0 written
  let _ ← Heap.onSegment segment BufferSegment.release
  return (view, written)

/-- The loop of `append`. Every pass copies a byte, so the length of the source is enough fuel. -/
def appendLoop (source : Bytes) : Nat → Nat → Call Unit
  | 0, _ => return ()
  | fuel + 1, offset => do
    if source.length ≤ offset then return ()
    else
      let buffer ← Method.get
      let remaining := source.length - offset
      let (view, written) ← onHeap (storeSegment source offset (min buffer.segmentSize remaining) remaining)
      Method.modify fun buffer => { buffer with views := buffer.views ++ [view] }
      appendLoop source fuel (offset + written)

def append (source : Bytes) : Call Transition := do
  let buffer ← Method.get
  if buffer.closed then Method.raise (.bufferClosed "cannot append to a closed channel buffer")
  else if buffer.maxBytes < buffer.queuedBytes + source.length then
    Method.raise (.bufferLimit "channel buffer byte limit exceeded")
  else
    appendLoop source source.length 0
    Method.modify fun buffer => { buffer with queuedBytes := buffer.queuedBytes + source.length }
    transitionAfterGrowth

def appendView (view : Nat) : Call Transition := do
  let buffer ← Method.get
  let length := buffer.heap.viewLength view
  if buffer.closed then Method.raise (.bufferClosed "cannot append to a closed channel buffer")
  else if buffer.maxBytes < buffer.queuedBytes + length then
    Method.raise (.bufferLimit "channel buffer byte limit exceeded")
  else
    let kept ← onHeap (Heap.slice view)
    Method.modify fun buffer => { buffer with
      views := buffer.views ++ [kept]
      queuedBytes := buffer.queuedBytes + length }
    transitionAfterGrowth

/-- The loop of `peek_views` over the views from `head` on. -/
def peekLoop : List Nat → Nat → Nat → Heap.Call (List Nat)
  | [], _, _ => return []
  | view :: rest, localOffset, remaining => do
    if remaining = 0 then return []
    else
      let heap ← Method.get
      let take := min (heap.viewLength view - localOffset) remaining
      let slice ← Heap.slice view localOffset take
      let more ← peekLoop rest 0 (remaining - take)
      return slice :: more

def peekViews (limit : Int) : Call (List Nat) := do
  let buffer ← Method.get
  let remaining := if 0 ≤ limit ∧ limit < buffer.queuedBytes then limit.toNat else buffer.queuedBytes
  onHeap (peekLoop (buffer.views.drop buffer.head) buffer.headOffset remaining)

/-- The loop of `consume`, with a pass for every view that is left. -/
def consumeLoop : Nat → Nat → Call Unit
  | fuel, remaining => do
    if remaining = 0 then return ()
    else
      let buffer ← Method.get
      match buffer.views[buffer.head]? with
      | none => Method.raise (.lookup "list index out of range")
      | some view =>
        let available := buffer.heap.viewLength view - buffer.headOffset
        if remaining < available then
          Method.modify fun buffer => { buffer with headOffset := buffer.headOffset + remaining }
        else
          match fuel with
          | 0 => Method.raise (.lookup "list index out of range")
          | fuel + 1 =>
            let _ ← onHeap (Heap.releaseView view)
            Method.modify fun buffer => { buffer with head := buffer.head + 1, headOffset := 0 }
            consumeLoop fuel (remaining - available)

def consume (length : Int) : Call Transition := do
  let buffer ← Method.get
  if length < 0 ∨ (buffer.queuedBytes : Int) < length then
    Method.raise (.value "consume length exceeds queued bytes")
  else
    consumeLoop buffer.views.length length.toNat
    Method.modify fun buffer => { buffer with queuedBytes := buffer.queuedBytes - length.toNat }
    Method.modify fun buffer =>
      if 32 < buffer.head ∧ buffer.views.length ≤ buffer.head * 2 then
        { buffer with views := buffer.views.drop buffer.head, head := 0 }
      else buffer
    transitionAfterDrain

/-- The loop of `read`: every part is copied out and released. -/
def readLoop : List Nat → Heap.Call Bytes
  | [] => return []
  | part :: rest => do
    let heap ← Method.get
    let data ← Method.lift (heap.toBytes part)
    let _ ← Heap.releaseView part
    let more ← readLoop rest
    return data ++ more

def read (limit : Int) : Call Bytes := do
  let buffer ← Method.get
  let limit := if limit < 0 ∨ (buffer.queuedBytes : Int) < limit then (buffer.queuedBytes : Int) else limit
  let parts ← peekViews limit
  let output ← onHeap (readLoop parts)
  let _ ← consume limit
  return output

/-- The loop of `close`, with the number of views it released. -/
def closeLoop : List Nat → Heap.Call Nat
  | [] => return 0
  | view :: rest => do
    let heap ← Method.get
    if (heap.views[view]?.any BufferView.released) = false then
      let _ ← Heap.releaseView view
      let more ← closeLoop rest
      return more + 1
    else closeLoop rest

def close : Call Nat := do
  let buffer ← Method.get
  if buffer.closed then return 0
  else
    let released ← onHeap (closeLoop (buffer.views.drop buffer.head))
    Method.modify fun buffer => { buffer with
      views := [], head := 0, headOffset := 0, queuedBytes := 0, backpressured := false, closed := true }
    return released

end SegmentedBuffer
end PccGateway
