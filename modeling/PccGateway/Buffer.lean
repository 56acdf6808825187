import PccGateway.Errors
import PccGateway.Lib.Method

namespace PccGateway

/-- What `append` and `consume` report to the socket layer. -/
inductive Transition where
  | none
  | high
  | low
  deriving DecidableEq, Repr

/-- `first or second`: `BACKPRESSURE_NONE` is falsy. -/
def Transition.or (first second : Transition) : Transition := if first = .none then second else first

/-- A bounded FIFO of views. A view is the bytes it shows; those before `head` were released. -/
structure ChannelBuffer where
  segmentSize : Nat
  lowWatermark : Nat
  highWatermark : Nat
  maxBytes : Nat
  segment_pos : 0 < segmentSize
  watermarks : lowWatermark < highWatermark
  covers : highWatermark ≤ maxBytes
  views : List Bytes := []
  head : Nat := 0
  headOffset : Nat := 0
  queuedBytes : Nat := 0
  backpressured : Bool := false
  closed : Bool := false

namespace ChannelBuffer

def init (segmentSize lowWatermark highWatermark maxBytes : Int) : Except Exn ChannelBuffer :=
  if segment : segmentSize ≤ 0 then .error (.value "segment size must be positive")
  else if marks : lowWatermark < 0 ∨ highWatermark ≤ lowWatermark then
    .error (.value "watermarks must satisfy 0 <= low < high")
  else if cover : maxBytes < highWatermark then .error (.value "max bytes must cover the high watermark")
  else .ok {
    segmentSize := segmentSize.toNat
    lowWatermark := lowWatermark.toNat
    highWatermark := highWatermark.toNat
    maxBytes := maxBytes.toNat
    segment_pos := by omega
    watermarks := by omega
    covers := by omega }

def transitionAfterGrowth (buffer : ChannelBuffer) : ChannelBuffer × Except Exn Transition :=
  if buffer.backpressured = false ∧ buffer.highWatermark ≤ buffer.queuedBytes then
    ({ buffer with backpressured := true }, .ok .high)
  else (buffer, .ok .none)

def transitionAfterDrain (buffer : ChannelBuffer) : ChannelBuffer × Except Exn Transition :=
  if buffer.backpressured = true ∧ buffer.queuedBytes ≤ buffer.lowWatermark then
    ({ buffer with backpressured := false }, .ok .low)
  else (buffer, .ok .none)

/-- The copying loop of `append`: one full segment after another. Every pass copies a byte, so the
length of the source is enough fuel. -/
def segments (segmentSize : Nat) : Nat → Bytes → List Bytes
  | 0, _ => []
  | fuel + 1, source =>
    if source = [] then [] else source.take segmentSize ::
      segments segmentSize fuel (source.drop segmentSize)

def append (source : Bytes) : Method ChannelBuffer Exn Transition := fun buffer =>
  if buffer.closed then (buffer, .error (.bufferClosed "cannot append to a closed channel buffer"))
  else if buffer.maxBytes < buffer.queuedBytes + source.length then
    (buffer, .error (.bufferLimit "channel buffer byte limit exceeded"))
  else transitionAfterGrowth { buffer with
    views := buffer.views ++ segments buffer.segmentSize source.length source
    queuedBytes := buffer.queuedBytes + source.length }

/-- `append_view` of a live view. -/
def appendView (view : Bytes) : Method ChannelBuffer Exn Transition := fun buffer =>
  if buffer.closed then (buffer, .error (.bufferClosed "cannot append to a closed channel buffer"))
  else if buffer.maxBytes < buffer.queuedBytes + view.length then
    (buffer, .error (.bufferLimit "channel buffer byte limit exceeded"))
  else transitionAfterGrowth { buffer with
    views := buffer.views ++ [view]
    queuedBytes := buffer.queuedBytes + view.length }

/-- The loop of `peek_views` over the views from `head` on. -/
def peekLoop : List Bytes → Nat → Nat → List Bytes
  | [], _, _ => []
  | view :: rest, localOffset, remaining =>
    if remaining = 0 then []
    else
      let take := min (view.length - localOffset) remaining
      (view.drop localOffset).take take :: peekLoop rest 0 (remaining - take)

def peekViews (buffer : ChannelBuffer) (limit : Int) : List Bytes :=
  let remaining := if 0 ≤ limit ∧ limit < buffer.queuedBytes then limit.toNat else buffer.queuedBytes
  peekLoop (buffer.views.drop buffer.head) buffer.headOffset remaining

/-- The loop of `consume`, with a pass for every view that is left. -/
def consumeLoop : Nat → Nat → ChannelBuffer → ChannelBuffer × Except Exn Unit
  | fuel, remaining, buffer =>
    if remaining = 0 then (buffer, .ok ())
    else
      match buffer.views[buffer.head]? with
      | Option.none => (buffer, .error (.lookup "list index out of range"))
      | some view =>
        let available := view.length - buffer.headOffset
        if remaining < available then ({ buffer with headOffset := buffer.headOffset + remaining }, .ok ())
        else
          match fuel with
          | 0 => (buffer, .error (.lookup "list index out of range"))
          | fuel + 1 =>
            consumeLoop fuel (remaining - available)
              { buffer with head := buffer.head + 1, headOffset := 0 }

def consume (length : Int) : Method ChannelBuffer Exn Transition := fun buffer =>
  if length < 0 ∨ (buffer.queuedBytes : Int) < length then
    (buffer, .error (.value "consume length exceeds queued bytes"))
  else
    match consumeLoop buffer.views.length length.toNat buffer with
    | (next, .error error) => (next, .error error)
    | (next, .ok ()) =>
      let drained := { next with queuedBytes := next.queuedBytes - length.toNat }
      transitionAfterDrain
        (if 32 < drained.head ∧ drained.views.length ≤ drained.head * 2 then
          { drained with views := drained.views.drop drained.head, head := 0 }
        else drained)

def read (limit : Int) : Method ChannelBuffer Exn Bytes := fun buffer =>
  let limit := if limit < 0 ∨ (buffer.queuedBytes : Int) < limit then (buffer.queuedBytes : Int) else limit
  let output := (buffer.peekViews limit).flatten
  match buffer.consume limit with
  | (next, .error error) => (next, .error error)
  | (next, .ok _) => (next, .ok output)

def close (buffer : ChannelBuffer) : ChannelBuffer :=
  if buffer.closed then buffer
  else { buffer with
    views := [], head := 0, headOffset := 0, queuedBytes := 0, backpressured := false, closed := true }

/-- What no operation on the queue changes. -/
def settings (buffer : ChannelBuffer) : Nat × Nat × Nat × Nat × Bool :=
  (buffer.segmentSize, buffer.lowWatermark, buffer.highWatermark, buffer.maxBytes, buffer.closed)

theorem transitionAfterGrowth_settings (buffer : ChannelBuffer) :
    buffer.transitionAfterGrowth.1.settings = buffer.settings := by
  unfold transitionAfterGrowth
  split <;> rfl

theorem transitionAfterDrain_settings (buffer : ChannelBuffer) :
    buffer.transitionAfterDrain.1.settings = buffer.settings := by
  unfold transitionAfterDrain
  split <;> rfl

theorem append_settings (source : Bytes) : (append source).Leaves settings := by
  intro buffer
  unfold append
  split
  · rfl
  · split
    · rfl
    · exact transitionAfterGrowth_settings _

theorem appendView_settings (view : Bytes) : (appendView view).Leaves settings := by
  intro buffer
  unfold appendView
  split
  · rfl
  · split
    · rfl
    · exact transitionAfterGrowth_settings _

/-- The loop of `consume` moves the head and nothing else. -/
theorem consumeLoop_frame (fuel remaining : Nat) (buffer : ChannelBuffer) :
    (consumeLoop fuel remaining buffer).1.settings = buffer.settings ∧
      (consumeLoop fuel remaining buffer).1.queuedBytes = buffer.queuedBytes ∧
      (consumeLoop fuel remaining buffer).1.backpressured = buffer.backpressured := by
  induction fuel generalizing remaining buffer with
  | zero =>
    unfold consumeLoop
    split
    · exact ⟨rfl, rfl, rfl⟩
    · split
      · exact ⟨rfl, rfl, rfl⟩
      · simp only
        split <;> exact ⟨rfl, rfl, rfl⟩
  | succ fuel ih =>
    unfold consumeLoop
    split
    · exact ⟨rfl, rfl, rfl⟩
    · split
      · exact ⟨rfl, rfl, rfl⟩
      · simp only
        split
        · exact ⟨rfl, rfl, rfl⟩
        · exact ih _ _

theorem consume_settings (length : Int) : (consume length).Leaves settings := by
  intro buffer
  have loop := (consumeLoop_frame buffer.views.length length.toNat buffer).1
  unfold consume
  split
  · rfl
  · split
    · rename_i run
      rw [run] at loop
      exact loop
    · rename_i run
      rw [run] at loop
      simp only [transitionAfterDrain_settings]
      split <;> exact loop

theorem read_settings (limit : Int) : (read limit).Leaves settings := by
  intro buffer
  have consumed := consume_settings
    (if limit < 0 ∨ (buffer.queuedBytes : Int) < limit then (buffer.queuedBytes : Int) else limit) buffer
  unfold read
  revert consumed
  simp only
  rcases buffer.consume _ with ⟨next, error | transition⟩ <;> exact id

/-- The queued bytes. -/
def contents (buffer : ChannelBuffer) : Bytes :=
  (buffer.views.drop buffer.head).flatten.drop buffer.headOffset

/-- The counters describe the views: the offset lies inside the first view that is left. -/
structure WellFormed (buffer : ChannelBuffer) : Prop where
  queued : buffer.queuedBytes = buffer.contents.length
  inside : buffer.headOffset = 0 ∨ ∃ view, buffer.views[buffer.head]? = some view ∧
    buffer.headOffset < view.length
  head_le : buffer.head ≤ buffer.views.length

theorem init_wellFormed {segmentSize lowWatermark highWatermark maxBytes : Int} {buffer : ChannelBuffer}
    (start : init segmentSize lowWatermark highWatermark maxBytes = .ok buffer) :
    buffer.WellFormed ∧ buffer.contents = [] := by
  unfold init at start
  split at start
  · cases start
  · split at start
    · cases start
    · split at start
      · cases start
      · cases start
        exact ⟨⟨rfl, .inl rfl, le_rfl⟩, rfl⟩

theorem segments_flatten {segmentSize : Nat} (positive : 0 < segmentSize) {fuel : Nat} {source : Bytes}
    (enough : source.length ≤ fuel) : (segments segmentSize fuel source).flatten = source := by
  induction fuel generalizing source with
  | zero =>
    have empty : source = [] := List.eq_nil_of_length_eq_zero (by omega)
    simp [segments, empty]
  | succ fuel ih =>
    unfold segments
    split
    · rename_i empty
      simp [empty]
    · rename_i nonempty
      have length := List.length_pos_iff.mpr nonempty
      rw [List.flatten_cons, ih (by rw [List.length_drop]; omega), List.take_append_drop]

theorem contents_append {buffer : ChannelBuffer} (valid : buffer.WellFormed) (added : List Bytes) :
    ((buffer.views ++ added).drop buffer.head).flatten.drop buffer.headOffset =
      buffer.contents ++ added.flatten := by
  rw [List.drop_append_of_le_length valid.head_le, List.flatten_append]
  by_cases start : buffer.headOffset = 0
  · simp [contents, start]
  · obtain ⟨view, found, inside⟩ := valid.inside.resolve_left start
    refine List.drop_append_of_le_length ?_
    rw [List.drop_eq_getElem?_toList_append, found]
    simp
    omega

/-- Growth by views that hold `source` is an append of `source`. -/
theorem grow_wellFormed {buffer next : ChannelBuffer} {transition : Transition} (valid : buffer.WellFormed)
    {added : List Bytes} {source : Bytes} (same : added.flatten = source)
    (run : transitionAfterGrowth { buffer with
      views := buffer.views ++ added
      queuedBytes := buffer.queuedBytes + source.length } = (next, .ok transition)) :
    next.WellFormed ∧ next.contents = buffer.contents ++ source := by
  have grown := contents_append valid added
  rw [same] at grown
  have shape : next.views = buffer.views ++ added ∧ next.head = buffer.head ∧ next.headOffset =
      buffer.headOffset ∧ next.queuedBytes = buffer.queuedBytes + source.length := by
    unfold transitionAfterGrowth at run
    split at run <;> cases run <;> exact ⟨rfl, rfl, rfl, rfl⟩
  obtain ⟨views, head, offset, queued⟩ := shape
  have contentsEq : next.contents = buffer.contents ++ source := by
    rw [contents, views, head, offset, grown]
  refine ⟨⟨?_, ?_, ?_⟩, contentsEq⟩
  · rw [contentsEq, queued, valid.queued, List.length_append]
  · rw [offset, views, head]
    refine valid.inside.imp_right fun ⟨view, found, inside⟩ => ⟨view, ?_, inside⟩
    exact List.getElem?_append_left (List.getElem?_eq_some_iff.mp found).1 ▸ found
  · rw [views, head, List.length_append]
    have := valid.head_le
    omega

theorem append_wellFormed {buffer next : ChannelBuffer} {source : Bytes} {transition : Transition}
    (valid : buffer.WellFormed) (run : buffer.append source = (next, .ok transition)) :
    next.WellFormed ∧ next.contents = buffer.contents ++ source := by
  unfold append at run
  split at run
  · simp at run
  · split at run
    · simp at run
    · exact grow_wellFormed valid (segments_flatten buffer.segment_pos le_rfl) run

theorem appendView_wellFormed {buffer next : ChannelBuffer} {view : Bytes} {transition : Transition}
    (valid : buffer.WellFormed) (run : buffer.appendView view = (next, .ok transition)) :
    next.WellFormed ∧ next.contents = buffer.contents ++ view := by
  unfold appendView at run
  split at run
  · simp at run
  · split at run
    · simp at run
    · exact grow_wellFormed valid (by simp) run

theorem peekLoop_flatten {views : List Bytes} {localOffset remaining : Nat}
    (inside : ∀ view ∈ views.head?, localOffset ≤ view.length) (start : views = [] → localOffset = 0) :
    (peekLoop views localOffset remaining).flatten = (views.flatten.drop localOffset).take remaining := by
  induction views generalizing localOffset remaining with
  | nil => simp [peekLoop]
  | cons view rest ih =>
    have fits : localOffset ≤ view.length := inside view (by simp)
    unfold peekLoop
    split
    · rename_i zero
      simp [zero]
    · rw [List.flatten_cons, ih (by simp) (by simp), List.flatten_cons, List.drop_append_of_le_length fits,
        List.take_append, List.drop_zero, List.length_drop]
      rcases Nat.le_total (view.length - localOffset) remaining with all | part
      · have long : (view.drop localOffset).length ≤ remaining := by rwa [List.length_drop]
        rw [Nat.min_eq_left all, List.take_of_length_le long,
          List.take_of_length_le (List.length_drop ..).le]
      · rw [Nat.min_eq_right part, Nat.sub_self, Nat.sub_eq_zero_of_le part]

/-- The fields that `consume` works on; the others are as they were. -/
structure Advanced (buffer next : ChannelBuffer) (length : Nat) : Prop where
  contents_eq : next.contents = buffer.contents.drop length
  inside : next.headOffset = 0 ∨ ∃ view, next.views[next.head]? = some view ∧ next.headOffset < view.length
  head_le : next.head ≤ next.views.length
  queued : next.queuedBytes = buffer.queuedBytes
  frame : next.closed = buffer.closed ∧ next.maxBytes = buffer.maxBytes ∧ next.backpressured =
    buffer.backpressured

theorem consumeLoop_advanced {fuel remaining : Nat} {buffer : ChannelBuffer}
    (inside : buffer.headOffset = 0 ∨
      ∃ view, buffer.views[buffer.head]? = some view ∧ buffer.headOffset < view.length)
    (head_le : buffer.head ≤ buffer.views.length) (enough : buffer.views.length ≤ fuel + buffer.head)
    (fits : remaining ≤ buffer.contents.length) :
    ∃ next, consumeLoop fuel remaining buffer = (next, .ok ()) ∧ Advanced buffer next remaining := by
  induction fuel generalizing remaining buffer with
  | zero =>
    have end_ : buffer.head = buffer.views.length := by omega
    have empty : buffer.contents = [] := by simp [contents, end_]
    have zero : remaining = 0 := by simpa [empty] using fits
    exact ⟨buffer, by simp [consumeLoop, zero], by simp [zero], inside, head_le, rfl, rfl, rfl, rfl⟩
  | succ fuel ih =>
    by_cases zero : remaining = 0
    · exact ⟨buffer, by simp [consumeLoop, zero], by simp [zero], inside, head_le, rfl, rfl, rfl, rfl⟩
    · have more : buffer.head < buffer.views.length := by
        by_contra isOver
        have empty : buffer.contents = [] := by
          simp [contents, List.drop_of_length_le (Nat.le_of_not_lt isOver)]
        simp only [empty, List.length_nil] at fits
        omega
      obtain ⟨view, found⟩ : ∃ view, buffer.views[buffer.head]? = some view :=
        ⟨_, List.getElem?_eq_getElem more⟩
      have offset : buffer.headOffset ≤ view.length := by
        rcases inside with start | ⟨other, same, less⟩
        · omega
        · rw [found] at same
          cases same
          omega
      have split : buffer.contents = view.drop buffer.headOffset ++
          (buffer.views.drop (buffer.head + 1)).flatten := by
        rw [contents, List.drop_eq_getElem_cons more, (List.getElem?_eq_some_iff.mp found).2,
          List.flatten_cons, List.drop_append_of_le_length offset]
      rw [consumeLoop, if_neg zero, found]
      by_cases part : remaining < view.length - buffer.headOffset
      · refine ⟨{ buffer with headOffset := buffer.headOffset + remaining }, by simp [part], ?_,
          .inr ⟨view, found, ?_⟩, head_le, rfl, rfl, rfl, rfl⟩
        · simp only [contents, List.drop_drop]
        · simp only
          omega
      · simp only [part, if_false]
        have whole : view.length - buffer.headOffset = (view.drop buffer.headOffset).length := by simp
        obtain ⟨next, run, advanced⟩ := @ih (remaining - (view.length - buffer.headOffset))
          { buffer with head := buffer.head + 1, headOffset := 0 } (.inl rfl) (by simp only; omega)
            (by simp only; omega)
          (by rw [split, List.length_append, ← whole] at fits; simp only [contents, List.drop_zero]; omega)
        refine ⟨next, run, ?_, advanced.inside, advanced.head_le, advanced.queued, advanced.frame⟩
        have passed : (view.drop buffer.headOffset).length ≤ remaining := by omega
        rw [advanced.contents_eq, split, List.drop_append, ← whole, List.drop_of_length_le passed]
        rfl

theorem consume_wellFormed {buffer : ChannelBuffer} (valid : buffer.WellFormed) {length : Nat}
    (fits : length ≤ buffer.queuedBytes) :
    ∃ next transition, buffer.consume length = (next, .ok transition) ∧
      next.WellFormed ∧ next.contents = buffer.contents.drop length := by
  obtain ⟨moved, run, advanced⟩ :=
    @consumeLoop_advanced buffer.views.length length buffer valid.inside valid.head_le
    (by omega) (valid.queued ▸ fits)
  have queued : moved.queuedBytes - length = moved.contents.length := by
    rw [advanced.queued, advanced.contents_eq, List.length_drop, valid.queued]
  -- compaction drops views that were released, and nothing else
  have compacted : ∃ kept : ChannelBuffer, kept.WellFormed ∧ kept.contents = moved.contents ∧
      kept = (if 32 < moved.head ∧ moved.views.length ≤ moved.head * 2 then
        { moved with
          queuedBytes := moved.queuedBytes - length, views := moved.views.drop moved.head, head := 0 }
      else { moved with queuedBytes := moved.queuedBytes - length }) := by
    split
    · refine ⟨_, ⟨?_, ?_, ?_⟩, ?_, rfl⟩
      · simpa [contents] using queued
      · simpa using advanced.inside
      · simp
      · simp [contents]
    · exact ⟨{ moved with queuedBytes := moved.queuedBytes - length },
        ⟨queued, advanced.inside, advanced.head_le⟩, rfl, rfl⟩
  obtain ⟨kept, keptValid, keptContents, shape⟩ := compacted
  have result : buffer.consume length = kept.transitionAfterDrain := by
    unfold consume
    rw [if_neg (by omega), Int.toNat_natCast, run, shape]
  rw [result]
  unfold transitionAfterDrain
  split
  · exact ⟨_, _, rfl, ⟨keptValid.queued, keptValid.inside, keptValid.head_le⟩,
      keptContents.trans advanced.contents_eq⟩
  · exact ⟨_, _, rfl, keptValid, keptContents.trans advanced.contents_eq⟩

/-- The number of bytes that `read(limit)` takes. -/
def readLength (buffer : ChannelBuffer) (limit : Int) : Nat :=
  if limit < 0 ∨ (buffer.queuedBytes : Int) < limit then buffer.queuedBytes else limit.toNat

theorem readLength_le (buffer : ChannelBuffer) (limit : Int) :
    buffer.readLength limit ≤ buffer.queuedBytes := by
  unfold readLength
  split <;> omega

/-- `peek_views` shows the front of the queue. -/
theorem peekViews_flatten {buffer : ChannelBuffer} (valid : buffer.WellFormed) (limit : Int) :
    (buffer.peekViews limit).flatten = buffer.contents.take (buffer.readLength limit) := by
  have remaining : (if 0 ≤ limit ∧ limit < buffer.queuedBytes then limit.toNat else buffer.queuedBytes) =
      buffer.readLength limit := by
    unfold readLength
    split <;> split <;> omega
  unfold peekViews
  simp only [remaining]
  rw [peekLoop_flatten, contents]
  · intro view first
    rw [List.head?_drop] at first
    rcases valid.inside with start | ⟨other, same, less⟩
    · omega
    · rw [show buffer.views[buffer.head]? = some view from first] at same
      cases same
      omega
  · intro none
    rcases valid.inside with start | ⟨other, same, less⟩
    · exact start
    · have := (List.getElem?_eq_some_iff.mp same).1
      have := List.drop_eq_nil_iff.mp none
      omega

/-- `read` takes bytes from the front of the queue. It never fails on a well-formed buffer. -/
theorem read_wellFormed {buffer : ChannelBuffer} (valid : buffer.WellFormed) (limit : Int) :
    ∃ next, buffer.read limit = (next, .ok (buffer.contents.take (buffer.readLength limit))) ∧
    next.WellFormed ∧ next.contents = buffer.contents.drop (buffer.readLength limit) := by
  obtain ⟨next, transition, run, nextValid, nextContents⟩ :=
    consume_wellFormed valid (buffer.readLength_le limit)
  refine ⟨next, ?_, nextValid, nextContents⟩
  have length : (if limit < 0 ∨ (buffer.queuedBytes : Int) < limit then (buffer.queuedBytes : Int)
      else limit) = (buffer.readLength limit : Int) := by
    unfold readLength
    split <;> omega
  have again : buffer.readLength (buffer.readLength limit) = buffer.readLength limit := by
    have bound := buffer.readLength_le limit
    rw [readLength, if_neg (by omega), Int.toNat_natCast]
  have taken := peekViews_flatten valid (buffer.readLength limit)
  rw [again] at taken
  unfold read
  simp only [length, run, taken]

end ChannelBuffer
end PccGateway
