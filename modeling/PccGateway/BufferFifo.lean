import PccGateway.BufferRefinement

namespace PccGateway

/-- The bytes of a buffer are a bounded queue. -/
structure ChannelBuffer.Queues (bytes : ChannelBuffer) (queue : Fifo UInt8) : Prop where
  valid : bytes.WellFormed
  contents : bytes.contents = queue.items
  maxBytes : bytes.maxBytes = queue.capacity
  closed : bytes.closed = queue.closed

/-- An operation did what the queue does: it returned when the queue accepts it, with what the queue
gives, and it did not fail to find a view. -/
structure Agrees {α : Type} (value : α → Bytes) (result : Except Exn α) (expected : Option Bytes) :
    Prop where
  outcome : result.toOption.map value = expected
  found : ∀ message, result ≠ .error (.lookup message)

theorem Agrees.map {α : Type} {value : α → Bytes} {result : Except Exn α} {expected : Option Bytes}
    (agrees : Agrees value result expected) : Agrees id (result.map value) expected := by
  obtain ⟨outcome, found⟩ := agrees
  cases result with
  | error error =>
    refine ⟨outcome, fun message same => found message ?_⟩
    cases same
    rfl
  | ok value => exact ⟨outcome, nofun⟩

namespace ChannelBuffer
variable {bytes : ChannelBuffer} {queue : Fifo UInt8}

theorem Queues.queuedBytes (queues : bytes.Queues queue) : bytes.queuedBytes = queue.items.length := by
  rw [queues.valid.queued, queues.contents]

theorem Queues.of_settings {next : ChannelBuffer} (queues : bytes.Queues queue)
    (same : next.settings = bytes.settings) :
    next.maxBytes = queue.capacity ∧ next.closed = queue.closed :=
  ⟨(congrArg (·.2.2.2.1) same).trans queues.maxBytes, (congrArg (·.2.2.2.2) same).trans queues.closed⟩

/-- An append of either kind. -/
theorem Queues.grow (queues : bytes.Queues queue) {source : Bytes}
    {call : Method ChannelBuffer Exn Transition} (refuses : bytes.closed = true →
      call bytes = (bytes, .error (.bufferClosed "cannot append to a closed channel buffer")))
    (full : bytes.closed = false → bytes.maxBytes < bytes.queuedBytes + source.length →
      call bytes = (bytes, .error (.bufferLimit "channel buffer byte limit exceeded")))
    (grows : bytes.closed = false → bytes.queuedBytes + source.length ≤ bytes.maxBytes →
      ∃ next transition, call bytes = (next, .ok transition) ∧ next.WellFormed ∧ next.contents =
        bytes.contents ++ source ∧ next.settings = bytes.settings) :
    ∃ next result, call bytes = (next, result) ∧ next.Queues (queue.step (.append source)).1 ∧
      Agrees (fun _ => []) result (queue.step (.append source)).2 := by
  unfold Fifo.step
  simp only
  cases closed : bytes.closed with
  | true =>
    rw [if_pos (queues.closed.symm.trans closed)]
    exact ⟨bytes, _, refuses closed, queues, rfl, by simp⟩
  | false =>
    rw [if_neg (by simp [← queues.closed, closed])]
    by_cases fits : queue.items.length + source.length ≤ queue.capacity
    · rw [dif_pos fits]
      obtain ⟨next, transition, run, valid, contents, settings⟩ := grows closed (by
        rw [queues.queuedBytes, queues.maxBytes]
        exact fits)
      obtain ⟨maxBytes, closed⟩ := queues.of_settings settings
      exact ⟨next, _, run, ⟨valid, by rw [contents, queues.contents], maxBytes, closed⟩, rfl, by simp⟩
    · rw [dif_neg fits]
      refine ⟨bytes, _, full closed ?_, queues, rfl, by simp⟩
      rw [queues.queuedBytes, queues.maxBytes]
      omega

/-- Growth by views that hold `source` returns, and appends `source`. -/
theorem grow_returns (valid : bytes.WellFormed) {added : List Bytes} {source : Bytes}
    (same : added.flatten = source) :
    ∃ next transition, transitionAfterGrowth { bytes with
        views := bytes.views ++ added
        queuedBytes := bytes.queuedBytes + source.length } = (next, .ok transition) ∧
      next.WellFormed ∧ next.contents = bytes.contents ++ source ∧ next.settings = bytes.settings := by
  have settings := transitionAfterGrowth_settings { bytes with
    views := bytes.views ++ added
    queuedBytes := bytes.queuedBytes + source.length }
  obtain ⟨next, transition, run⟩ : ∃ next transition, transitionAfterGrowth { bytes with
      views := bytes.views ++ added
      queuedBytes := bytes.queuedBytes + source.length } = (next, .ok transition) := by
    unfold transitionAfterGrowth
    split <;> exact ⟨_, _, rfl⟩
  obtain ⟨nextValid, contents⟩ := grow_wellFormed valid same run
  rw [run] at settings
  exact ⟨next, transition, run, nextValid, contents, settings⟩

theorem append_returns (valid : bytes.WellFormed) (opened : bytes.closed = false) {source : Bytes}
    (fits : bytes.queuedBytes + source.length ≤ bytes.maxBytes) :
    ∃ next transition, bytes.append source = (next, .ok transition) ∧ next.WellFormed ∧
      next.contents = bytes.contents ++ source ∧ next.settings = bytes.settings := by
  obtain ⟨next, transition, run, grown⟩ := grow_returns valid (segments_flatten bytes.segment_pos le_rfl)
  exact ⟨next, transition, ((if_neg (by simp [opened])).trans (if_neg (by omega))).trans run, grown⟩

theorem append_overflows (opened : bytes.closed = false) {source : Bytes}
    (isOver : bytes.maxBytes < bytes.queuedBytes + source.length) :
    bytes.append source = (bytes, .error (.bufferLimit "channel buffer byte limit exceeded")) :=
  (if_neg (by simp [opened])).trans (if_pos isOver)

theorem append_refines (queues : bytes.Queues queue) (source : Bytes) :
    ∃ next result, bytes.append source = (next, result) ∧ next.Queues (queue.step (.append source)).1 ∧
      Agrees (fun _ => []) result (queue.step (.append source)).2 :=
  queues.grow (fun closed => if_pos closed) (fun opened isOver => append_overflows opened isOver)
      fun opened fits =>
    append_returns queues.valid opened fits

theorem appendView_refines (queues : bytes.Queues queue) (source : Bytes) :
    ∃ next result, bytes.appendView source = (next, result) ∧ next.Queues (queue.step (.append source)).1 ∧
      Agrees (fun _ => []) result (queue.step (.append source)).2 := by
  refine queues.grow (fun closed => if_pos closed) (fun opened isOver => ?_) fun opened fits => ?_
  · exact (if_neg (by simp [opened])).trans (if_pos isOver)
  · obtain ⟨next, transition, run, grown⟩ :=
      grow_returns queues.valid (show [source].flatten = source by simp)
    exact ⟨next, transition, ((if_neg (by simp [opened])).trans (if_neg (by omega))).trans run, grown⟩

theorem consume_refines (queues : bytes.Queues queue) (length : Int) :
    ∃ next result, bytes.consume length = (next, result) ∧ next.Queues (queue.step (.consume length)).1 ∧
      Agrees (fun _ => []) result (queue.step (.consume length)).2 := by
  have queued := queues.queuedBytes
  unfold Fifo.step
  simp only
  by_cases fits : 0 ≤ length ∧ length ≤ queue.items.length
  · rw [if_pos fits]
    obtain ⟨next, transition, run, valid, contents⟩ :=
      consume_wellFormed queues.valid (show length.toNat ≤ bytes.queuedBytes by omega)
    rw [Int.toNat_of_nonneg fits.1] at run
    have settings := consume_settings length bytes
    rw [run] at settings
    obtain ⟨maxBytes, closed⟩ := queues.of_settings settings
    exact ⟨next, _, run, ⟨valid, by rw [contents, queues.contents]; rfl, maxBytes, closed⟩, rfl, by simp⟩
  · rw [if_neg fits]
    exact ⟨bytes, _, if_pos (by omega), queues, rfl, by simp⟩

theorem Queues.front (queues : bytes.Queues queue) (limit : Int) :
    bytes.readLength limit = queue.front limit := by
  unfold readLength Fifo.front
  rw [queues.queuedBytes]

theorem read_refines (queues : bytes.Queues queue) (limit : Int) :
    ∃ next result, bytes.read limit = (next, result) ∧ next.Queues (queue.step (.read limit)).1 ∧
      Agrees id result (queue.step (.read limit)).2 := by
  obtain ⟨next, run, valid, contents⟩ := read_wellFormed queues.valid limit
  have settings := read_settings limit bytes
  rw [run] at settings
  obtain ⟨maxBytes, closed⟩ := queues.of_settings settings
  rw [queues.contents, queues.front limit] at run contents
  exact ⟨next, _, run, ⟨valid, contents, maxBytes, closed⟩, rfl, by simp⟩

theorem peekViews_refines (queues : bytes.Queues queue) (limit : Int) :
    queue.step (.peek limit) = (queue, some (bytes.peekViews limit).flatten) := by
  rw [peekViews_flatten queues.valid, queues.contents, queues.front limit]
  rfl

theorem close_refines (queues : bytes.Queues queue) (drained : bytes.closed = true → queue.items = []) :
    bytes.close.Queues (queue.step .close).1 := by
  unfold close
  split
  · rename_i isOver
    exact ⟨queues.valid, queues.contents.trans (drained isOver), queues.maxBytes, isOver⟩
  · exact ⟨⟨rfl, .inl rfl, Nat.le_refl _⟩, rfl, queues.maxBytes, rfl⟩

end ChannelBuffer

/-- A buffer in a program: what else holds segments, and every view that the buffer has retained so far. -/
structure BufferRun where
  buffer : SegmentedBuffer
  holders : List (Nat × Bool) := []
  retained : List Nat := []

namespace BufferRun

inductive Op where
  | outside (op : Holding.Op)
  | append (source : Bytes)
  | appendView (view : Nat)
  | peek (limit : Int)
  | consume (length : Int)
  | read (limit : Int)
  | close

def holding (run : BufferRun) : Holding := ⟨run.buffer.heap, run.holders⟩

/-- What other code does with segments and views. -/
def interfere (run : BufferRun) (op : Holding.Op) : BufferRun :=
  let next := run.holding.perform op
  { run with buffer := { run.buffer with heap := next.heap }, holders := next.holders }

/-- An append of either kind: the views it added are retained. -/
def retain (run : BufferRun) (result : SegmentedBuffer × Except Exn Transition) :
    BufferRun × Except Exn Bytes :=
  ({ run with buffer := result.1, retained := run.retained ++ result.1.views.drop run.buffer.views.length },
    result.2.map fun _ => [])

/-- One operation, with the bytes it gives. No other code has the buffer's own views, and
`append_view` is called with live views. -/
def perform (run : BufferRun) : Op → BufferRun × Except Exn Bytes
  | .outside (.releaseView view) =>
    if view ∈ run.buffer.pending then (run, .ok []) else (run.interfere (.releaseView view), .ok [])
  | .outside op => (run.interfere op, .ok [])
  | .append source => run.retain (SegmentedBuffer.append source run.buffer)
  | .appendView view =>
    match run.buffer.heap.toBytes view with
    | .error _ => (run, .ok [])
    | .ok _ => run.retain (SegmentedBuffer.appendView view run.buffer)
  | .peek limit =>
    match SegmentedBuffer.peekViews limit run.buffer with
    | (next, .error error) => ({ run with buffer := next }, .error error)
    | (next, .ok parts) => ({ run with buffer := next }, (parts.mapM next.heap.toBytes).map List.flatten)
  | .consume length =>
    let (next, result) := SegmentedBuffer.consume length run.buffer
    ({ run with buffer := next }, result.map fun _ => [])
  | .read limit =>
    let (next, result) := SegmentedBuffer.read limit run.buffer
    ({ run with buffer := next }, result)
  | .close =>
    let (next, result) := SegmentedBuffer.close run.buffer
    ({ run with buffer := next }, result.map fun _ => [])

/-- The operation of a byte queue that an operation stands for. -/
def denotes (run : BufferRun) : Op → Option (Fifo.Op UInt8)
  | .outside _ => none
  | .append source => some (.append source)
  | .appendView view => (run.buffer.heap.toBytes view).toOption.map .append
  | .peek limit => some (.peek limit)
  | .consume length => some (.consume length)
  | .read limit => some (.read limit)
  | .close => some .close

def expected (run : BufferRun) (queue : Fifo UInt8) (op : Op) : Fifo UInt8 × Option Bytes :=
  match run.denotes op with
  | none => (queue, some [])
  | some op => queue.step op

def performAll : List Op → BufferRun → BufferRun × List (Except Exn Bytes)
  | [], run => (run, [])
  | op :: ops, run =>
    let (next, outcome) := run.perform op
    let (last, outcomes) := performAll ops next
    (last, outcome :: outcomes)

def expectedAll : List Op → BufferRun → Fifo UInt8 → Fifo UInt8 × List (Option Bytes)
  | [], _, queue => (queue, [])
  | op :: ops, run, queue =>
    let (next, outcome) := run.expected queue op
    let (last, outcomes) := expectedAll ops (run.perform op).1 next
    (last, outcome :: outcomes)

/-- The bytes of `views[head..]` behind `head_offset`. -/
def contents (run : BufferRun) : Bytes :=
  (run.buffer.pending.map fun id => (run.buffer.heap.toBytes id).toOption.getD []).flatten.drop
    run.buffer.headOffset

/-- The run behaves as the queue: its bytes are the queue's, and of the views it retained exactly
those are released that are not queued any more. -/
structure Refines (run : BufferRun) (queue : Fifo UInt8) (bytes : ChannelBuffer) : Prop where
  represents : SegmentedBuffer.Represents run.holding.direct run.buffer bytes
  queues : bytes.Queues queue
  drained : queue.closed = true → queue.items = []
  kept : ∀ id ∈ run.buffer.pending, id ∈ run.retained
  released : ∀ id ∈ run.retained, ∃ view, run.buffer.heap.views[id]? = some view ∧
    (view.released = true ↔ id ∉ run.buffer.pending)

theorem step_drained {queue : Fifo UInt8} (drained : queue.closed = true → queue.items = [])
    (op : Fifo.Op UInt8) :
    (queue.step op).1.closed = true → (queue.step op).1.items = [] := by
  unfold Fifo.step
  cases op with
  | append source =>
    simp only
    split
    · exact drained
    · rename_i opened
      split
      · exact fun closed => absurd closed opened
      · exact drained
  | peek limit => exact drained
  | consume count =>
    simp only
    split
    · exact fun closed => by simp [Fifo.drop, drained closed]
    · exact drained
  | read limit => exact fun closed => by simp [Fifo.drop, drained closed]
  | close => exact fun _ => rfl

section Step
variable {run : BufferRun} {queue queue' : Fifo UInt8} {bytes bytes' : ChannelBuffer}

/-- An operation of the buffer: the views it passed are released now, and the views it added are queued. -/
theorem Refines.move (refines : run.Refines queue bytes) {next : SegmentedBuffer} {passed added : List Nat}
    (represents : SegmentedBuffer.Represents run.holding.direct next bytes') (queues : bytes'.Queues queue')
    (drained : queue'.closed = true → queue'.items = [])
    (moved : SegmentedBuffer.Moved run.buffer next passed added)
    (distinct : (passed ++ next.pending).Nodup) :
    Refines { run with buffer := next, retained := run.retained ++ added } queue' bytes' := by
  have apart : ∀ id ∈ passed, id ∉ next.pending :=
    fun id is also => List.disjoint_of_nodup_append distinct is also
  refine ⟨represents, queues, drained, ?_, ?_⟩
  · intro id member
    have among : id ∈ run.buffer.pending ++ added := by
      rw [moved.pending]
      exact List.mem_append_right _ member
    rw [List.mem_append]
    exact (List.mem_append.mp among).imp_left (refines.kept id)
  · intro id member
    by_cases gone : id ∈ passed
    · obtain ⟨view, found, isOver⟩ := moved.isOver id gone
      exact ⟨view, found, by simp [isOver, apart id gone]⟩
    · rcases List.mem_append.mp member with old | new
      · obtain ⟨view, found, iff⟩ := refines.released id old
        refine ⟨view, moved.keeps.views id view found gone, iff.trans (not_congr ?_)⟩
        have stays : id ∉ added := fun is => by
          have := moved.fresh id is
          have := (List.getElem?_eq_some_iff.mp found).1
          omega
        have same : id ∈ run.buffer.pending ++ added ↔ id ∈ passed ++ next.pending := by rw [moved.pending]
        simpa [stays, gone] using same
      · have among : id ∈ next.pending := by
          have here : id ∈ passed ++ next.pending := moved.pending ▸ List.mem_append_right _ new
          exact (List.mem_append.mp here).resolve_left gone
        obtain ⟨_, view, found, live, -⟩ := Heap.shows_mem represents.shows id among
        exact ⟨view, found, by simp [live, among]⟩

/-- An append of either kind. -/
theorem Refines.retain (refines : run.Refines queue bytes) {data : Bytes} {next : SegmentedBuffer}
    {result : Except Exn Transition} {added : List Nat}
    (represents : SegmentedBuffer.Represents run.holding.direct next bytes')
    (queues : bytes'.Queues (queue.step (.append data)).1)
    (moved : SegmentedBuffer.Moved run.buffer next [] added)
    (views : next.views = run.buffer.views ++ added)
    (agrees : Agrees (fun _ => []) result (queue.step (.append data)).2) :
    ∃ bytes', (run.retain (next, result)).1.Refines (queue.step (.append data)).1 bytes' ∧
      Agrees id (run.retain (next, result)).2 (queue.step (.append data)).2 := by
  have new : next.views.drop run.buffer.views.length = added := by rw [views, List.drop_left]
  refine ⟨bytes', ?_, agrees.map⟩
  simp only [BufferRun.retain, new]
  exact refines.move represents queues (step_drained refines.drained _) moved represents.nodup

/-- An operation that adds no view. -/
theorem Refines.pass (refines : run.Refines queue bytes) {op : Fifo.Op UInt8} {next : SegmentedBuffer}
    {passed : List Nat} (represents : SegmentedBuffer.Represents run.holding.direct next bytes')
    (queues : bytes'.Queues (queue.step op).1)
    (moved : SegmentedBuffer.Moved run.buffer next passed []) :
    Refines { run with buffer := next } (queue.step op).1 bytes' := by
  have whole := moved.pending
  rw [List.append_nil] at whole
  have after := refines.move represents queues (step_drained refines.drained _) moved
    (whole ▸ refines.represents.nodup)
  rw [List.append_nil] at after
  exact after

/-- Other code changes neither the buffer's views nor what they show. -/
theorem Refines.interfere (refines : run.Refines queue bytes) {op : Holding.Op}
    (kept : ∀ id ∈ run.buffer.pending, ¬ op.gone id) :
    (run.interfere op).Refines queue bytes := by
  have rep := refines.represents
  have step := Holding.Sound.perform (show run.holding.Sound from rep.sound) op
  refine ⟨⟨step.sound, rep.settings, rep.head, rep.headOffset, rep.queuedBytes, rep.backpressured,
    rep.length,
    Heap.shows_keeps rep.shows step.keeps kept, rep.nodup⟩, refines.queues, refines.drained,
      refines.kept, ?_⟩
  intro id member
  obtain ⟨view, found, iff⟩ := refines.released id member
  by_cases gone : op.gone id
  · have inRange := (List.getElem?_eq_some_iff.mp found).1
    have is := List.getElem?_eq_getElem (Nat.lt_of_lt_of_le inRange step.grows)
    have absent : id ∉ run.buffer.pending := fun among => kept id among gone
    exact ⟨_, is, iff_of_true (step.isOver id _ gone is) absent⟩
  · exact ⟨view, step.keeps.views id view found gone, iff⟩

theorem Refines.perform (refines : run.Refines queue bytes) (op : Op) : ∃ bytes',
    (run.perform op).1.Refines (run.expected queue op).1 bytes' ∧ Agrees id (run.perform op).2
    (run.expected queue op).2 := by
  have rep := refines.represents
  have queues := refines.queues
  have nothing : Agrees id (.ok []) (some []) := ⟨rfl, nofun⟩
  cases op with
  | outside op =>
    cases op with
    | releaseView view =>
      simp only [BufferRun.perform, expected, denotes]
      split
      · exact ⟨bytes, refines, nothing⟩
      · rename_i absent
        exact ⟨bytes, refines.interfere fun id member same => absent (same ▸ member), nothing⟩
    | _ => exact ⟨bytes, refines.interfere fun _ _ => not_false, nothing⟩
  | append source =>
    obtain ⟨next, bytes', result, added, run_, run', represents, moved, views⟩ :=
      SegmentedBuffer.append_simulates rep queues.valid.head_le source
    obtain ⟨_, _, same, queues', agrees⟩ := ChannelBuffer.append_refines queues source
    cases run'.symm.trans same
    simp only [BufferRun.perform, run_, expected, denotes]
    exact refines.retain represents queues' moved views agrees
  | appendView view =>
    simp only [BufferRun.perform, expected, denotes]
    cases shown : run.buffer.heap.toBytes view with
    | error error => exact ⟨bytes, refines, nothing⟩
    | ok data =>
      have shows := Heap.shows_of_toBytes shown
      obtain ⟨next, bytes', result, added, run_, run', represents, moved, views⟩ :=
        SegmentedBuffer.appendView_simulates rep queues.valid.head_le shows
      obtain ⟨_, _, same, queues', agrees⟩ := ChannelBuffer.appendView_refines queues data
      cases run'.symm.trans same
      simp only [run_, Except.toOption, Option.map_some]
      exact refines.retain represents queues' moved views agrees
  | peek limit =>
    obtain ⟨heap, parts, peeked, represents, keeps, grows, shows, -, -⟩ :=
      SegmentedBuffer.peekViews_simulates rep queues.valid limit
    simp only [BufferRun.perform, expected, denotes, peeked, Heap.shows_toBytes represents.sound shows,
      ChannelBuffer.peekViews_refines queues limit]
    refine ⟨bytes, ?_, rfl, nofun⟩
    have same := ChannelBuffer.peekViews_refines queues limit
    have after := @Refines.pass run queue bytes bytes refines (.peek limit) { run.buffer with
      heap := heap } [] represents
      (by rw [same]; exact queues) ⟨keeps.mono nofun, grows, by rw [List.append_nil]; rfl, by simp, by simp⟩
    rw [same] at after
    exact after
  | consume length =>
    obtain ⟨next, bytes', result, passed, run_, run', represents, moved⟩ :=
      SegmentedBuffer.consume_simulates rep length
    obtain ⟨_, _, same, queues', agrees⟩ := ChannelBuffer.consume_refines queues length
    cases run'.symm.trans same
    simp only [BufferRun.perform, run_, expected, denotes]
    exact ⟨bytes', refines.pass represents queues' moved, agrees.map⟩
  | read limit =>
    obtain ⟨next, bytes', result, passed, run_, run', represents, moved⟩ :=
      SegmentedBuffer.read_simulates rep queues.valid limit
    obtain ⟨_, _, same, queues', agrees⟩ := ChannelBuffer.read_refines queues limit
    cases run'.symm.trans same
    simp only [BufferRun.perform, run_, expected, denotes]
    exact ⟨bytes', refines.pass represents queues' moved, agrees⟩
  | close =>
    obtain ⟨next, count, passed, run_, represents, moved⟩ := SegmentedBuffer.close_simulates rep
    have queues' :=
      ChannelBuffer.close_refines queues fun isOver => refines.drained (queues.closed ▸ isOver)
    simp only [BufferRun.perform, run_, expected, denotes]
    exact ⟨bytes.close, refines.pass represents queues' moved, rfl, nofun⟩

end Step

/-- A new buffer is an empty queue. -/
theorem Refines.fresh {segmentSize lowWatermark highWatermark maxBytes : Int} {buffer : SegmentedBuffer}
    (start : SegmentedBuffer.init {} segmentSize lowWatermark highWatermark maxBytes = .ok buffer) :
    0 ≤ maxBytes ∧ ∃ bytes, Refines { buffer := buffer }
      { capacity := maxBytes.toNat, bounded := Nat.zero_le _ } bytes := by
  obtain ⟨bytes, made⟩ : ∃ bytes, ChannelBuffer.init segmentSize lowWatermark highWatermark maxBytes =
      .ok bytes ∧
      SegmentedBuffer.Represents ({ buffer := buffer } : BufferRun).holding.direct buffer bytes ∧
      buffer.pending = [] ∧
      bytes.maxBytes = maxBytes.toNat ∧ bytes.closed = false ∧ 0 ≤ maxBytes := by
    unfold SegmentedBuffer.init at start
    unfold ChannelBuffer.init
    split at start
    · cases start
    · rename_i segment
      rw [dif_neg segment]
      split at start
      · cases start
      · rename_i marks
        rw [dif_neg marks]
        split at start
        · cases start
        · rename_i covers
          rw [dif_neg covers]
          cases start
          exact ⟨_, rfl, ⟨Holding.empty_sound, rfl, rfl, rfl, rfl, rfl, rfl, .nil, .nil⟩, rfl, rfl,
            rfl, by omega⟩
  obtain ⟨created, represents, empty, limit, opened, nonneg⟩ := made
  obtain ⟨valid, contents⟩ := ChannelBuffer.init_wellFormed created
  exact ⟨nonneg, bytes, represents, ⟨valid, contents, limit, opened⟩, nofun, by simp [empty], by simp⟩

theorem Refines.performAll {run : BufferRun} {queue : Fifo UInt8} {bytes : ChannelBuffer}
    (refines : run.Refines queue bytes)
    (ops : List Op) : (∃ bytes', (run.performAll ops).1.Refines (expectedAll ops run queue).1 bytes') ∧
      (run.performAll ops).2.map Except.toOption = (expectedAll ops run queue).2 ∧
      ∀ outcome ∈ (run.performAll ops).2, ∀ message, outcome ≠ .error (.lookup message) := by
  induction ops generalizing run queue bytes with
  | nil => exact ⟨⟨bytes, refines⟩, rfl, by simp [BufferRun.performAll]⟩
  | cons op ops ih =>
    obtain ⟨bytes', next, agrees⟩ := refines.perform op
    obtain ⟨last, outcomes, found⟩ := ih next
    refine ⟨last, ?_, ?_⟩
    · have first : (run.perform op).2.toOption = (run.expected queue op).2 := by simpa using agrees.outcome
      simp only [BufferRun.performAll, expectedAll, List.map_cons, first, outcomes]
    · simp only [BufferRun.performAll, List.forall_mem_cons]
      exact ⟨agrees.found, found⟩

theorem Refines.contents_eq {run : BufferRun} {queue : Fifo UInt8} {bytes : ChannelBuffer}
    (refines : run.Refines queue bytes) :
    run.contents = queue.items := by
  have rep := refines.represents
  have read {ids : List Nat} {datas : List Bytes} (shows : List.Forall₂ run.buffer.heap.Shows ids datas) :
      ids.map (fun id => (run.buffer.heap.toBytes id).toOption.getD []) = datas := by
    induction shows with
    | nil => rfl
    | cons first rest ih =>
      rw [List.map_cons, ih, first.toBytes rep.sound]
      rfl
  rw [← refines.queues.contents, contents, ChannelBuffer.contents, read rep.shows, rep.headOffset]

theorem Refines.releases {run : BufferRun} {queue : Fifo UInt8} {bytes : ChannelBuffer}
    (refines : run.Refines queue bytes) :
    ∀ id ∈ run.retained, run.buffer.heap.releases.count id = if id ∈ run.buffer.pending then 0 else 1 := by
  intro id member
  obtain ⟨view, found, iff⟩ := refines.released id member
  rw [refines.represents.sound.logged id, found]
  by_cases among : id ∈ run.buffer.pending
  · have live : view.released = false := by simpa [among] using iff
    simp [among, live]
  · simp [among, iff.mpr among]

theorem expectedAll_capacity (ops : List Op) (run : BufferRun) (queue : Fifo UInt8) :
    (expectedAll ops run queue).1.capacity = queue.capacity := by
  induction ops generalizing run queue with
  | nil => rfl
  | cons op ops ih =>
    have first : (run.expected queue op).1.capacity = queue.capacity := by
      unfold expected
      split
      · rfl
      · exact Fifo.step_capacity queue _
    exact (ih _ _).trans first

/-- An operation that raises leaves the bytes as they are. -/
theorem Refines.raised {run : BufferRun} {queue : Fifo UInt8} {bytes : ChannelBuffer}
    (refines : run.Refines queue bytes)
    {op : Op} {error : Exn} (raised : (run.perform op).2 = .error error) :
    (run.perform op).1.contents = run.contents := by
  obtain ⟨bytes', next, agrees⟩ := refines.perform op
  have refused : (run.expected queue op).2 = none := by
    simpa [raised, Except.toOption] using agrees.outcome.symm
  have same : (run.expected queue op).1 = queue := by
    unfold expected at refused ⊢
    split at refused
    · cases refused
    · exact Fifo.step_refused refused
  rw [next.contents_eq, refines.contents_eq, same]

/-- Whatever is done with a channel buffer and around it, it gives what a bounded byte queue gives
and holds the bytes that the queue holds; an operation that raises changes none of them. No view is
looked up in vain, and every view that the buffer retained is released exactly once, when it leaves
the queue. What is assumed is that the constructor has accepted its arguments. The operations are
all those of the buffer, with any arguments, and those of other owners of the segments, in any
order. -/
theorem refines_fifo (segmentSize lowWatermark highWatermark maxBytes : Int) (buffer : SegmentedBuffer)
    (start : SegmentedBuffer.init {} segmentSize lowWatermark highWatermark maxBytes = .ok buffer)
    (ops : List Op) :
    let (run, outcomes) := performAll ops { buffer := buffer }
    let (queue, expected) := expectedAll ops { buffer := buffer }
      { capacity := maxBytes.toNat, bounded := Nat.zero_le _ }
    outcomes.map Except.toOption = expected ∧ run.contents = queue.items ∧
      run.buffer.queuedBytes = run.contents.length ∧ (run.buffer.queuedBytes : Int) ≤ maxBytes ∧
      (∀ op error, (run.perform op).2 = .error error → (run.perform op).1.contents = run.contents) ∧
      (∀ outcome ∈ outcomes, ∀ message, outcome ≠ .error (.lookup message)) ∧
      ∀ id ∈ run.retained, run.buffer.heap.releases.count id = if id ∈ run.buffer.pending then
          0 else 1 := by
  obtain ⟨nonneg, bytes, fresh⟩ := Refines.fresh start
  obtain ⟨⟨bytes', last⟩, outcomes, found⟩ := fresh.performAll ops
  have queued := last.represents.queuedBytes.trans last.queues.queuedBytes
  refine ⟨outcomes, last.contents_eq, by rw [last.contents_eq, queued], ?_, fun _ _ => last.raised,
    found, last.releases⟩
  have bounded :=
    (expectedAll ops { buffer := buffer } { capacity := maxBytes.toNat, bounded := Nat.zero_le _ }).1.bounded
  have capacity : _ = maxBytes.toNat :=
    expectedAll_capacity ops { buffer := buffer } { capacity := maxBytes.toNat, bounded := Nat.zero_le _ }
  rw [queued]
  omega

/-- A queue of six bytes in segments of two: a seventh byte is refused, and an empty view is queued as
well. -/
theorem refines_fifo_narrow :
    let ops : List Op := [
      .append [1, 2, 3], .peek 1, .append [4, 5], .appendView 2, .append [6], .outside (.create 3),
      .outside (.view 3 0 0), .appendView 5, .consume 3, .read (-1), .close, .append []]
    ∃ buffer, SegmentedBuffer.init {} 2 1 4 6 = .ok buffer ∧
      (performAll ops { buffer := buffer }).2.map Except.toOption =
        [some [], some [1], some [], some [], none, some [], some [], some [], some [],
          some [4, 5, 1], some [], none] := by
  refine ⟨_, rfl, ?_⟩
  exact (refines_fifo 2 1 4 6 _ rfl _).1.trans (by decide +kernel)

end BufferRun
end PccGateway
